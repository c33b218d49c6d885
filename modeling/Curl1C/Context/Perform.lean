/-
  Curl1C.Context.Perform

  `CcURL::easy_perform`, cut where the source's own comments cut it: the
  options for sending, the options for receiving, the status line, the options
  set for every request (`performPoint` is the state in which
  `curl_easy_perform` is called), and what follows the transfer.

  The answers of libcurl, of the file system and of 1C are the fields of
  `PerformEnv`.  `RaiseExtRuntimeError` may unwind or come back: `unwinds` says
  which, for each place that raises.
-/

import Curl1C.Context.Methods
import Curl1C.Common.Swrite

namespace Curl1C

open Lib

/-- The places of `easy_perform` that call `RuntimeError`. -/
inductive ErrorSite where
  | openSource | statSource | createDest | transfer
deriving DecidableEq

/-- What one activation of `easy_perform` is answered. -/
structure PerformEnv where
  /-- `fopen(pSrc->Data, "rb")` succeeds -/
  opensSource : Bool
  /-- `fstat` succeeds -/
  statsSource : Bool
  /-- `file_info.st_size`, whatever it holds after a failed `fstat` -/
  sourceSize : Int
  /-- `fopen(pDest->Data, "wb")` succeeds -/
  createsDest : Bool
  /-- the error raised at this place unwinds -/
  unwinds : ErrorSite → Bool
  /-- `curl_easy_perform` returns `CURLE_OK` -/
  succeeds : Bool
  /-- `CURLINFO_RESPONSE_CODE` -/
  responseCode : Int
  /-- the write-callback invocations of the transfer -/
  chunks : List Chunk

/-- Everything opens, and the server answers 200 with an empty body. -/
def PerformEnv.answered : PerformEnv :=
  { opensSource := true, statsSource := true, sourceSize := 0, createsDest := true,
    unwinds := fun _ => true, succeeds := true, responseCode := 200, chunks := [] }

/-- `WriteThis`: the text still to be delivered by `read_callback`. -/
structure WriteThis where
  readptr : List Byte
  sizeleft : Nat
deriving DecidableEq

/-- The locals of an activation beside the object: its id, the streams `fd` and
    `fp`, and `wt` once it is filled. -/
structure Frame where
  st : St
  call : CallId
  fd : Option FileId
  fp : Option FileId
  wt : Option WriteThis

namespace Frame

/-- `curl_easy_setopt(m_curl, o, v)`. -/
def setopt (o : CURLoption) (v : OptVal) (f : Frame) : Frame := { f with st := f.st.setopt o v }

section Setopt

variable (o : CURLoption) (v : OptVal) (f : Frame)

@[simp] theorem setopt_st : (f.setopt o v).st = f.st.setopt o v := rfl
@[simp] theorem setopt_call : (f.setopt o v).call = f.call := rfl
@[simp] theorem setopt_fd : (f.setopt o v).fd = f.fd := rfl
@[simp] theorem setopt_fp : (f.setopt o v).fp = f.fp := rfl

end Setopt

/-- Enter `easy_perform`. -/
def enter (st : St) : Frame :=
  { st := { st with proc := { st.proc with nCall := st.proc.nCall + 1 } }
    call := st.proc.nCall, fd := none, fp := none, wt := none }

variable (win : Win32)

/-- Sending a multipart request. -/
def sendMultipart (f : Frame) : Frame :=
  let o := f.st.obj
  let f := f.setopt .POSTFIELDS (.str o.PostFildsData)
  let f := f.setopt .POSTFIELDSIZE (.long o.PostFildsData.length)
  let f := f.setopt .MIMEPOST (.mime o.m_mime)
  let f := f.setopt .WRITEDATA (.data f.call)
  f.setopt .WRITEFUNCTION (.fn .curlSwrite)

/-- Sending from a variable. -/
def sendVariable (f : Frame) : Frame :=
  -- nothing is reset for empty data: the options of an earlier request stay
  if f.st.obj.pSrc.Data.isEmpty then f
  else
    let body := ansiToUtf8 win f.st.obj.pSrc.Data
    let f := { f with st := { f.st with obj := { f.st.obj with PostFildsData := body } } }
    if f.st.obj.isPosting = false then
      let f := f.setopt .POSTFIELDS (.str body)
      f.setopt .POSTFIELDSIZE (.long body.length)
    else
      -- mail: libcurl pulls the text through `read_callback`
      let f := { f with wt := some { readptr := body.bytes, sizeleft := body.length } }
      let f := f.setopt .READFUNCTION (.fn .readCallback)
      let f := f.setopt .READDATA (.wt f.call)
      f.setopt .UPLOAD (.long 1)

/-- The options of an upload from the stream `fd`. -/
def sendStream (env : PerformEnv) (fd : FileId) (f : Frame) : Frame :=
  -- the call that would set READFUNCTION is commented out in the source
  let f := f.setopt .UPLOAD (.long 1)
  let f := f.setopt .READDATA (.file fd)
  f.setopt .INFILESIZE_LARGE (.offT env.sourceSize)

/-- Sending from a file.  When the error for a file that does not open comes
    back, `fileno` is called on NULL. -/
def sendFile (env : PerformEnv) (f : Frame) : Outcome Frame :=
  let fd := f.st.proc.nFile
  let proc := f.st.proc.fopen f.st.obj.pSrc.Data env.opensSource
  let f := { f with st := { f.st with proc := proc } }
  if env.opensSource then
    let f := { f with fd := some fd, st := { f.st with proc := f.st.proc.fstat fd } }
    -- an error that comes back is ignored: the upload goes on with `sourceSize`
    if !env.statsSource && env.unwinds .statSource then .unwound f.st
    else .ok (f.sendStream env fd)
  else if env.unwinds .openSource then .unwound f.st
  else .crashed

/-- The options for sending. -/
def sendSetup (env : PerformEnv) (f : Frame) : Outcome Frame :=
  if f.st.obj.isMultipart then .ok f.sendMultipart
  else match f.st.obj.pSrc.Type_ with
    | .ttVariable => .ok (f.sendVariable win)
    | .ttFile => f.sendFile env
    -- no branch of the source for `ttMsg`
    | .ttMsg => .ok f

/-- The options for receiving.  When the error for a file that cannot be
    created comes back, libcurl is given a NULL stream. -/
def recvSetup (env : PerformEnv) (f : Frame) : Outcome Frame :=
  match f.st.obj.pDest.Type_ with
  | .ttVariable =>
      let f := f.setopt .WRITEDATA (.data f.call)
      .ok (f.setopt .WRITEFUNCTION (.fn .curlSwrite))
  | .ttFile =>
      let fp := f.st.proc.nFile
      let proc := f.st.proc.fopen f.st.obj.pDest.Data env.createsDest
      let f := { f with st := { f.st with proc := proc } }
      if env.createsDest then
        let f := { f with fp := some fp }
        let f := f.setopt .WRITEDATA (.file fp)
        .ok (f.setopt .WRITEFUNCTION (.fn .curlFwrite))
      else if env.unwinds .createDest then .unwound f.st
      else
        let f := f.setopt .WRITEDATA .null
        .ok (f.setopt .WRITEFUNCTION (.fn .curlFwrite))
  | .ttMsg => .ok f

/-- The options of the status line. -/
def statusSetup (f : Frame) : Frame :=
  if f.st.obj.m_StatusLine = 1 then
    let f := f.setopt .XFERINFODATA (.prog f.call)
    let f := f.setopt .XFERINFOFUNCTION (.fn .progressFunction)
    f.setopt .NOPROGRESS (.long 0)
  else f.setopt .NOPROGRESS (.long 1)

/-- The options set for every request. -/
def commonSetup (f : Frame) : Frame :=
  let f := f.setopt .SSL_VERIFYPEER (.long 0)
  let f := f.setopt .SSL_VERIFYHOST (.long 0)
  f.setopt .VERBOSE (.long 1)

/-- `fclose` on a stream that is not NULL. -/
def closeIfOpen (s : Option FileId) (f : Frame) : Frame :=
  match s with
  | none => f
  | some id => { f with st := { f.st with proc := f.st.proc.fclose id } }

/-- The transfer itself.  The response is collected in `data` when the handle
    writes to the local of this activation through `curl_swrite`. -/
def transfer (env : PerformEnv) (f : Frame) : Outcome (Frame × List Byte) :=
  let f := { f with st := { f.st with proc := f.st.proc.curlEasyPerform f.st.obj.m_curl } }
  if f.st.opts .WRITEFUNCTION = some (.fn .curlSwrite) ∧ f.st.opts .WRITEDATA = some (.data f.call)
  then
    match runOps swriteStep [] env.chunks with
    | some data => .ok (f, data)
    | none => .crashed
  else .ok (f, [])

/-- What `easy_perform` does after the transfer; the Boolean is its result.  A
    destination file is closed once more, after success. -/
def finish (env : PerformEnv) (f : Frame) (data : List Byte) : Outcome (St × Bool) :=
  let f := { f with st := { f.st with proc := f.st.proc.curlEasyGetinfo f.st.obj.m_curl } }
  -- the streams are closed before the result of the transfer is looked at
  let f := (f.closeIfOpen f.fp).closeIfOpen f.fd
  if !env.succeeds then
    if env.unwinds .transfer then .unwound f.st else .ok (f.st, false)
  else match f.st.obj.pDest.Type_ with
    | .ttVariable =>
        let text := utf8ToAnsi win (CStr.ofBuf data)
        let dest := { f.st.obj.pDest with Data := text }
        .ok ({ f.st with obj := { f.st.obj with pDest := dest } }, true)
    | .ttFile =>
        -- the second `fclose(fp)`, without a NULL test
        match f.fp with
        | none => .crashed
        | some id => .ok ({ f.st with proc := f.st.proc.fclose id }, true)
    | .ttMsg => .ok (f.st, true)

end Frame

namespace St

variable (win : Win32)

/-- The activation as it is when `easy_perform` calls `curl_easy_perform`. -/
def performPoint (env : PerformEnv) (st : St) : Outcome Frame :=
  ((Frame.enter st).sendSetup win env).bind fun f =>
    (f.recvSetup env).bind fun f => .ok f.statusSetup.commonSetup

/-- `CcURL::easy_perform`: the object afterwards, the result, and the value
    returned to the script after success. -/
def easyPerform (env : PerformEnv) (st : St) : Outcome (St × Bool × Int) :=
  (st.performPoint win env).bind fun f =>
    (f.transfer env).bind fun (f, data) =>
      (f.finish win env data).bind fun (st, ok) => .ok (st, ok, env.responseCode)

end St

end Curl1C
