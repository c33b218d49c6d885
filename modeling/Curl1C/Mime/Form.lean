/-
  Curl1C.Mime.Form

  The form of a `CcURL` object over its whole life: parts are added by
  `CCurlMime::AddPart` (Context.h), and every request that posts the form prepares
  it, rewinds it, announces its size (`Curl_http_body`, http.c) and reads it
  through `Curl_mime_read` into buffers of any sizes, to its end or not.

  The mime handle is the content of `data->set.mimepost` from the first
  `CURLOPT_MIMEPOST` on; setting the same handle again changes nothing.

  `AddPart` looks at no result of libcurl, so a part lacks what could not be copied
  for it, and without memory for the part itself the call does nothing.  One copy
  has to succeed (`Named`): a file without a name is opened as NULL.

  Main result: `form_requests` says what each request of a run delivers.
-/

import Mathlib.Algebra.Order.BigOperators.Group.List
import Mathlib.Algebra.Order.Group.Nat
import Curl1C.Lib.Refine
import Curl1C.Mime.Headers
import Curl1C.Mime.Rewind

namespace Curl1C.Mime

open Lib Dyn

/-! ## The form -/

/-- `data->set.mimepost` with the mime handle of the object. -/
abbrev Form := Mimepart (CurlMime Leaf)

theorem Boundary.zero_notMem (b : Boundary) : (0 : Byte) ∉ b.bytes := fun h =>
  absurd (b.alnum 0 h) (by decide)

/-- The boundary as it stands in a header. -/
def Boundary.text (b : Boundary) : CStr := ⟨b.bytes, b.zero_notMem⟩

/-- `curl_mime_init`. -/
def curlMimeInit (b : Boundary) : CurlMime Leaf :=
  { boundary := b, parts := [], state := mimesetstate .BEGIN 0 }

/-- The form of a new object. -/
def Form.new (b : Boundary) : Form := initpart.setContent (.MULTIPART (curlMimeInit b) none)

/-- The arguments of `AddPart`. -/
structure PartArgs where
  name : CStr
  filename : CStr
  type : CStr
  data : CStr

/-- A call of `AddPart` with the memory it finds. -/
structure PartCall extends PartArgs where
  mem : Memory

/-- A call that gets the memory it asks for. -/
def PartArgs.granted (a : PartArgs) : PartCall := { a with mem := Memory.plenty }

/-- `sizeof(struct curl_mimepart)` with pointers of 32 bits. -/
def sizeofMimepart : Nat := 368

/-- `curl_mime_addpart` gets memory for a part. -/
def PartCall.allocated (a : PartCall) : Bool := ((a.mem.call 0 []).realloc [] sizeofMimepart).isSome

/-- The part `AddPart` sets up.  It looks at no result, so a part lacks what could
    not be copied. -/
def PartCall.part (fs : FileSys) (a : PartCall) : Leaf :=
  let part : Leaf := initpart
  let part := if a.name.isEmpty then part else (part.curlMimeName (a.mem.call 1) a.name).1
  let part :=
    if a.filename.isEmpty then part
    else
      let part := (part.curlMimeFilename (a.mem.call 2) a.filename).1
      (part.curlMimeFiledata (a.mem.call 3) fs a.filename).1
  let part := if a.type.isEmpty then part else (part.curlMimeType (a.mem.call 4) a.type).1
  if a.data.isEmpty then part else (part.curlMimeData (a.mem.call 5) a.data).1

/-- `curl_mime_addpart` once it has memory; a pointer behind the last part stays
    NULL. -/
def CurlMime.addpart {π : Type} (part : π) (mime : CurlMime π) : CurlMime π :=
  { mime with
    parts := mime.parts ++ [part]
    state := { mime.state with
      ptr := if mime.parts.length ≤ mime.state.ptr then mime.parts.length + 1 else mime.state.ptr } }

/-- `CCurlMime::AddPart`. -/
def Form.addPart (fs : FileSys) (a : PartCall) (form : Form) : Form :=
  match form.content with
  | .MULTIPART mime datasize =>
      if a.allocated then { form with content := .MULTIPART (mime.addpart (a.part fs)) datasize }
      -- the setters refuse a part that is NULL
      else form
  | _ => form

/-! ## The functions of the three levels -/

def leafRewind : Leaf → Leaf × Bool := Mimepart.mimePartRewind noSeek

def leafSize : Leaf → Leaf × Option Nat := Mimepart.curlMimeSize noSize

/-- `Curl_mime_rewind` of the form. -/
def Form.rewind : Form → Form × Bool := Mimepart.mimePartRewind (CurlMime.mimeSubpartsSeek leafRewind)

/-- `Curl_mime_size` of the form. -/
def Form.size : Form → Form × Option Nat := Mimepart.curlMimeSize (CurlMime.multipartSize leafSize)

/-- `readback_part` of the form. -/
def Form.readback (fs : FileSys) : ReadFn Form Byte :=
  Mimepart.readbackPart fs (CurlMime.mimeSubpartsRead (Mimepart.readbackPart fs noSubparts))

/-- `Curl_mime_prepare_headers` of a part. -/
def leafPrepare (cfg : HeaderConfig) (mem : Memory) (disposition : Option CStr) (part : Leaf) :
    Option (Leaf × CURLcode) :=
  part.prepareHeaders mem cfg Empty.elim (fun _ => Empty.elim) none disposition

/-- `Curl_mime_prepare_headers` of the form. -/
def Form.prepare (mem : Memory) (cfg : HeaderConfig) (contenttype : Option CStr) (form : Form) :
    Option (Form × CURLcode) :=
  form.prepareHeaders (mem.call 0) cfg (fun mime => mime.boundary.text)
    (CurlMime.prepareHeaders (leafPrepare cfg) (mem.call 1)) contenttype none

/-! ## Requests -/

/-- `Curl_checkheaders`: the first header with this name and a `:` or `;`. -/
def curlCheckheaders (headers : List CStr) (thisheader : CStr) : Option CStr :=
  headers.find? fun head =>
    strncasecompare head thisheader thisheader.length &&
      (decide (symbol (head.bytes.drop thisheader.length) = 0x3A) ||
        decide (symbol (head.bytes.drop thisheader.length) = 0x3B))

/-- What a request finds: memory, `data->set.mime_formescape`, `data->set.headers`,
    and the sizes of the buffers that are filled. -/
structure RequestEnv where
  mem : Memory
  formescape : Bool
  headers : List CStr
  rooms : List Nat

def RequestEnv.config (env : RequestEnv) : HeaderConfig :=
  { formescape := env.formescape, strategy := .FORM }

/-- `cthdr` of `Curl_http_body`. -/
def RequestEnv.cthdr (env : RequestEnv) (form : Form) : Option CStr :=
  match curlCheckheaders env.headers contentType with
  | some hdr => some (CStr.ofBuf ((hdr.bytes.drop 13).dropWhile fun b => decide (b = 0x20)))
  | none => if form.isMultipart then some (.lit "multipart/form-data") else none

/-- The form is rewound, and its size computed. -/
def Form.rewound (form : Form) : Form × Except CURLcode (Option Nat) :=
  if form.rewind.2 then (form.rewind.1.size.1, .ok form.rewind.1.size.2)
  else (form.rewind.1, .error .SEND_FAIL_REWIND)

/-- What `Curl_http_body` does with the form; the result is `postsize`. -/
def Form.httpBody (env : RequestEnv) (form : Form) :
    Option (Form × Except CURLcode (Option Nat)) :=
  let form : Form := { form with bodyOnly := true }
  let cthdr := env.cthdr form
  (Form.prepare env.mem env.config cthdr { form with userheaders := env.headers }).map
    fun (form, result) =>
      let form : Form := { form with userheaders := [] }
      if result ≠ .OK then (form, .error result) else form.rewound

/-- The levels of the form. -/
def leafLevel (fs : FileSys) : Level Leaf := Mimepart.level fs Level.none

def mimeLevel (fs : FileSys) : Level (CurlMime Leaf) := CurlMime.level (leafLevel fs)

def formLevel (fs : FileSys) : Level Form := Mimepart.level fs (mimeLevel fs)

/-- Turns enough for the loops of a transfer. -/
def Form.fuel (fs : FileSys) (rooms : List Nat) (form : Form) : Nat :=
  (formLevel fs).rank form + rooms.sum + 1

/-- What can be done with the form. -/
inductive FormOp where
  | addPart (a : PartCall)
  | request (env : RequestEnv)

/-- What comes of it: a request that is sent has the headers generated for the
    form, the size announced, and what each call of `Curl_mime_read` returned. -/
inductive FormReply where
  | added
  | failed (e : CURLcode)
  | sent (headers : List CStr) (postsize : Option Nat) (blocks : List (Fetch Byte))

def formStep (fs : FileSys) (form : Form) : FormOp → Option (Form × FormReply)
  | .addPart a => some (form.addPart fs a, .added)
  | .request env =>
      (form.httpBody env).bind fun (form, result) =>
        match result with
        | .error e => some (form, .failed e)
        | .ok postsize =>
            (pulls (Form.readback fs) (form.fuel fs env.rooms) env.rooms form).map fun (form', blocks) =>
              (form', .sent form.curlheaders postsize blocks)

/-! ## What is meant to be sent -/

namespace PartCall

variable (fs : FileSys) (a : PartCall)

/-- The copy of the data. -/
def copy : Option CStr := strdup (a.mem.call 5 []) a.data

/-- The copy of the name under which the file is opened. -/
def path : Option CStr := strdup ((a.mem.call 3).call 0 []) a.filename

/-- The content of a part: the data, or else the file. -/
def content : Stream Byte :=
  if a.data.isEmpty then (if a.filename.isEmpty then .done else fs.text a.path)
  else a.copy.elim .done fun data => .ofList data.bytes

/-- The content can be read again from its start: it is data, or a regular file
    that could be read when the part was added. -/
def seekable : Bool :=
  if a.data.isEmpty then !a.filename.isEmpty && (a.path.bind fs.datasize).isSome
  else a.copy.isSome

/-- The length of the content is known. -/
def sized : Bool := !a.data.isEmpty || a.filename.isEmpty || (a.path.bind fs.datasize).isSome

/-- The headers of a part. -/
def headers (cfg : HeaderConfig) (disposition : Option CStr) : List CStr :=
  (a.part fs).generated cfg Empty.elim none disposition

/-- A part with its headers. -/
def text (cfg : HeaderConfig) (disposition : Option CStr) : Stream Byte :=
  (a.content fs).prepend (headerText (a.headers fs cfg disposition) ++ crlf)

/-- The name of a file that is to be sent could be copied. -/
def Named : Prop :=
  a.allocated = true → a.data.isEmpty = true → a.filename.isEmpty = false → a.path.isSome = true

/-- The parts of a form after the call. -/
def addTo (args : List PartCall) : List PartCall := if a.allocated then args ++ [a] else args

theorem addTo_granted (a : PartArgs) (args : List PartCall) :
    a.granted.addTo args = args ++ [a.granted] := if_pos rfl

theorem named_granted (a : PartArgs) : a.granted.Named := fun _ _ _ => rfl

end PartCall

namespace RequestEnv

variable (env : RequestEnv)

/-- The content type of the request: the caller's, or that of a form. -/
def contenttype : CStr :=
  ((searchHeader env.headers contentType).map CStr.ofBuf).getD
    (match curlCheckheaders env.headers contentType with
      | some hdr => CStr.ofBuf ((hdr.bytes.drop 13).dropWhile fun b => decide (b = 0x20))
      | none => .lit "multipart/form-data")

/-- The disposition of the parts. -/
def disposition : Option CStr :=
  if contentTypeMatch (some env.contenttype) (.lit "multipart/form-data") then some (.lit "form-data")
  else none

end RequestEnv

/-- The body of a request that posts the parts `args`. -/
def formText (fs : FileSys) (b : Boundary) (env : RequestEnv) (args : List PartCall) : Stream Byte :=
  CurlMime.multipart b.bytes (args.map fun a => a.text fs env.config env.disposition)

/-! ## The parts -/

/-- Without a result that is good the size of a file is not known. -/
theorem FileSys.datasize_of_filedata (fs : FileSys) (filename : CStr) :
    (if fs.filedata filename (some filename) = .OK then fs.datasize filename else none) =
      fs.datasize filename := by
  rw [filedata, datasize]
  cases fs.stat filename with
  | none => rfl
  | some st => cases fs.access filename <;> simp

/-- What `curl_mime_filedata` leaves in a part. -/
theorem Mimepart.curlMimeFiledata_fst {μ : Type} (mem : Memory) (fs : FileSys) (filename : CStr)
    (part : Mimepart μ) :
    (part.curlMimeFiledata mem fs filename).1 =
      { part.setContent (.FILE (strdup (mem.call 0 []) filename)
          ((strdup (mem.call 0 []) filename).bind fs.datasize) none) with
        filename := match strippath (mem.call 1) filename with
          | none => part.filename
          | some base => strdup (mem.call 2 []) base } := by
  have hsize : (if fs.filedata filename (strdup (mem.call 0 []) filename) = .OK
      then fs.datasize filename else none) =
      (strdup (mem.call 0 []) filename).bind fs.datasize := by
    cases hcopy : strdup (mem.call 0 []) filename with
    | none => rfl
    | some data =>
        -- the copy is the name that `stat` was asked for
        obtain rfl := strdup_eq_some hcopy
        exact FileSys.datasize_of_filedata fs _
  simp only [curlMimeFiledata, hsize]
  cases strippath (mem.call 1) filename <;> rfl

namespace PartCall

variable (fs : FileSys) (a : PartCall)

/-- The name of the file in the headers: what follows the last slash, or the whole
    path where that could not be copied. -/
def remoteName : Option CStr :=
  match strippath ((a.mem.call 3).call 1) a.filename with
  | none => strdup (a.mem.call 2 []) a.filename
  | some base => strdup ((a.mem.call 3).call 2 []) base

theorem part_eq : a.part fs =
    { (initpart : Leaf) with
      name := if a.name.isEmpty then none else strdup (a.mem.call 1 []) a.name
      filename := if a.filename.isEmpty then none else a.remoteName
      mimetype := if a.type.isEmpty then none else strdup (a.mem.call 4 []) a.type
      content := if a.data.isEmpty then
          (if a.filename.isEmpty then .NONE else .FILE a.path (a.path.bind fs.datasize) none)
        else a.copy.elim .NONE fun data => .DATA data.bytes } := by
  simp only [part, Mimepart.curlMimeFiledata_fst]
  split_ifs <;> rfl

/-- The length that is kept is the length of the file. -/
theorem datasize_sound {fs : FileSys} (hfs : fs.Stable) {name : CStr} {d : Nat}
    (h : fs.datasize name = some d) : ∃ bytes, fs.fopen name = some bytes ∧ bytes.length = d := by
  rw [FileSys.datasize] at h
  cases hstat : fs.stat name with
  | none => simp [hstat] at h
  | some st =>
      simp only [hstat, Option.ite_none_right_eq_some, Option.some.injEq] at h
      obtain ⟨⟨haccess, hreg⟩, rfl⟩ := h
      exact hfs name st hstat hreg haccess

/-- A part that was just set up. -/
theorem part_fresh {fs : FileSys} (hfs : fs.Stable) {a : PartCall} (hnamed : a.Named)
    (halloc : a.allocated = true) : (leafLevel fs).Fresh (a.part fs) := by
  rw [part_eq]
  refine ⟨?_, Or.inl rfl, rfl, ?_⟩
  · show Content.Sound fs _ (if _ then _ else _)
    split_ifs with hdata hfile
    · exact trivial
    · obtain ⟨path, hpath⟩ :=
        Option.isSome_iff_exists.mp (hnamed halloc hdata (eq_false_of_ne_true hfile))
      rw [hpath]
      exact ⟨by simp, fun d hd => datasize_sound hfs hd, rfl⟩
    · cases a.copy <;> exact trivial
  · show Content.Fresh _ (if _ then _ else _)
    split_ifs
    · exact trivial
    · simp [Content.Fresh]
    · cases a.copy <;> exact trivial

theorem part_seekable : ((leafLevel fs).fixed (a.part fs)).seekable = a.seekable fs := by
  rw [part_eq]
  show (Content.fixed fs _ (if _ then _ else _)).seekable = _
  rw [seekable]
  cases a.data.isEmpty <;> cases a.filename.isEmpty <;> cases a.copy <;> rfl

theorem part_sized : ((leafLevel fs).fixed (a.part fs)).sized = a.sized fs := by
  rw [part_eq]
  show (Content.fixed fs _ (if _ then _ else _)).sized = _
  rw [sized]
  cases a.data.isEmpty <;> cases a.filename.isEmpty <;> cases a.copy <;> rfl

theorem part_text (hdrs : List CStr) :
    ((leafLevel fs).fixed ((a.part fs).setHeaders hdrs)).text =
      (a.content fs).prepend (headerText hdrs ++ crlf) := by
  have hcontent : ((a.part fs).content.fixed fs Level.none).text = a.content fs := by
    rw [part_eq, content]
    show (Content.fixed fs _ (if _ then _ else _)).text = _
    cases a.data.isEmpty <;> cases a.filename.isEmpty <;> cases a.copy <;> rfl
  show ((a.part fs).content.fixed fs Level.none).text.prepend _ = _
  rw [hcontent, part_eq]
  rfl

end PartCall

/-! ## What a part was set up with -/

namespace Mimepart

variable {μ : Type}

/-- What was set in a part, without what was read and generated. -/
def bare (part : Mimepart μ) : Mimepart Unit :=
  (part.label ((initpart : Mimepart Unit).setContent part.content.source)).setHeaders []

theorem Kept.bare_eq {part part' : Mimepart μ} (h : part.Kept part') : part'.bare = part.bare := by
  obtain ⟨hdrs, st, -, rfl⟩ := h
  rfl

theorem Kept.sound {fs : FileSys} {L : Level μ} {part part' : Mimepart μ} (h : part.Kept part')
    (hs : part.Sound fs L) : part'.Sound fs L := by
  have hstate := h.state_eq
  obtain ⟨hdrs, st, -, rfl⟩ := h
  exact ⟨hs.content, fun hin => hs.fresh (hstate ▸ hin)⟩

theorem Kept.fresh {fs : FileSys} {L : Level μ} {part part' : Mimepart μ} (h : part.Kept part')
    (hf : part.Fresh fs L) : part'.Fresh fs L := by
  have hstate := h.state_eq
  obtain ⟨hdrs, st, -, rfl⟩ := h
  exact ⟨hf.content, by rw [hstate]; exact hf.tok, hf.ok, hf.fresh⟩

end Mimepart

section Leaf

variable {fs : FileSys} {p q : Leaf}

theorem leaf_fixed_setup (p : Leaf) :
    ((leafLevel fs).fixed p).setup =
      [p.label ((initpart : Mimepart Unit).setContent p.content.source)] := by
  obtain ⟨content, _, _, _, _, _, _, _, _⟩ := p
  cases content with
  | MULTIPART arg datasize => exact arg.elim
  | _ => rfl

/-- Two contents of parts without subparts that were set up alike. -/
theorem source_cases {c c' : Content Empty} (h : c.source = c'.source) :
    c = c' ∨ ∃ name datasize fp fp', c = .FILE name datasize fp ∧ c' = .FILE name datasize fp' := by
  cases c with
  | NONE => cases c' <;> simp [Content.source] at h ⊢
  | DATA data =>
      cases c' with
      | DATA data' => exact Or.inl (by simpa [Content.source] using h)
      | _ => simp [Content.source] at h
  | FILE name datasize fp =>
      cases c' with
      | FILE name' datasize' fp' =>
          obtain ⟨rfl, rfl⟩ : name = name' ∧ datasize = datasize' := by simpa [Content.source] using h
          exact Or.inr ⟨name, datasize, fp, fp', rfl, rfl⟩
      | _ => simp [Content.source] at h
  | MULTIPART arg datasize => exact arg.elim

/-- The headers, the text and the abilities of a part follow from what was set in
    it. -/
theorem bare_congr (h : p.bare = q.bare) :
    (∀ cfg disposition, p.generated cfg Empty.elim none disposition =
      q.generated cfg Empty.elim none disposition) ∧
    ((leafLevel fs).fixed p).seekable = ((leafLevel fs).fixed q).seekable ∧
    ((leafLevel fs).fixed p).sized = ((leafLevel fs).fixed q).sized ∧
    (p.curlheaders = q.curlheaders → ((leafLevel fs).fixed p).text = ((leafLevel fs).fixed q).text) := by
  obtain ⟨c, _, _, _, _, _, _, _, _⟩ := p
  obtain ⟨c', _, _, _, _, _, _, _, _⟩ := q
  simp only [Mimepart.bare, Mimepart.label, Mimepart.setHeaders, Mimepart.setContent,
    Mimepart.mk.injEq] at h
  obtain ⟨hsource, rfl, -, rfl, rfl, rfl, rfl, -, -⟩ := h
  obtain rfl | ⟨name, datasize, fp, fp', rfl, rfl⟩ := source_cases hsource
  · refine ⟨fun _ _ => rfl, rfl, rfl, ?_⟩
    rintro rfl
    rfl
  · refine ⟨fun _ _ => rfl, rfl, rfl, ?_⟩
    rintro rfl
    rfl

end Leaf


/-! ## The form between two operations -/

/-- The form holds the parts `args`, and can be rewound or not as the state of
    its parts says. -/
structure Holds (fs : FileSys) (b : Boundary) (args : List PartCall) (form : Form) : Prop where
  sound : (formLevel fs).Sound form
  multipart : ∃ mime datasize, form.content = .MULTIPART mime datasize ∧ mime.boundary = b ∧
    mime.parts.map Mimepart.bare = args.map fun a => (a.part fs).bare
  unset : form.userheaders = [] ∧ form.mimetype = none ∧ form.filename = none ∧ form.name = none

section Form

variable {fs : FileSys} {b : Boundary} {args : List PartCall} {form form' : Form}

theorem formLevel_reads (fs : FileSys) : (formLevel fs).Reads :=
  Mimepart.level_reads (CurlMime.level_reads (Mimepart.level_reads Level.none_reads))

theorem mimeLevel_rewinds (fs : FileSys) : (mimeLevel fs).Rewinds :=
  CurlMime.level_rewinds (Mimepart.level_rewinds Level.none_rewinds)

theorem formLevel_rewinds (fs : FileSys) : (formLevel fs).Rewinds :=
  Mimepart.level_rewinds (mimeLevel_rewinds fs)

theorem form_fixed_setup {mime : CurlMime Leaf} {datasize : Option Nat}
    (hc : form.content = .MULTIPART mime datasize) :
    ((formLevel fs).fixed form).setup =
      form.label ((initpart : Mimepart Unit).setContent (.MULTIPART () none)) ::
        mime.parts.map fun p => p.label ((initpart : Mimepart Unit).setContent p.content.source) := by
  have hparts : ((mimeLevel fs).fixed mime).setup =
      mime.parts.map fun p => p.label ((initpart : Mimepart Unit).setContent p.content.source) := by
    show mime.parts.flatMap (fun p => ((leafLevel fs).fixed p).setup) = _
    simp only [leaf_fixed_setup, List.map_eq_flatMap]
  rw [← hparts]
  show ((form.content.fixed fs (mimeLevel fs)).setup.modifyHead form.label) = _
  rw [hc]
  rfl

/-- A form that was set up like one with a multipart has a multipart. -/
theorem content_of_setup {mime : CurlMime Leaf} {datasize : Option Nat}
    (hc : form.content = .MULTIPART mime datasize)
    (hsetup : ((formLevel fs).fixed form').setup = ((formLevel fs).fixed form).setup) :
    ∃ mime' datasize', form'.content = .MULTIPART mime' datasize' := by
  rw [form_fixed_setup hc] at hsetup
  replace hsetup : (form'.content.fixed fs (mimeLevel fs)).setup.modifyHead form'.label = _ := hsetup
  cases hc' : form'.content with
  | MULTIPART mime' datasize' => exact ⟨mime', datasize', rfl⟩
  | _ =>
      rw [hc'] at hsetup
      have hhead := congrArg Mimepart.content (List.cons.inj hsetup).1
      cases hhead

/-- What a form holds does not depend on how far it was read. -/
theorem Holds.of_fixed (h : Holds fs b args form) (hs : (formLevel fs).Sound form')
    (hfixed : (formLevel fs).fixed form' = (formLevel fs).fixed form) : Holds fs b args form' := by
  obtain ⟨mime, datasize, hc, hb, hparts⟩ := h.multipart
  have hsetup := congrArg Fixed.setup hfixed
  have hbounds := congrArg Fixed.boundaries hfixed
  obtain ⟨mime', datasize', hc'⟩ := content_of_setup hc hsetup
  rw [form_fixed_setup hc, form_fixed_setup hc'] at hsetup
  obtain ⟨hhead, htail⟩ := List.cons.inj hsetup
  replace hbounds : (form'.content.fixed fs (mimeLevel fs)).boundaries =
    (form.content.fixed fs (mimeLevel fs)).boundaries := hbounds
  rw [hc, hc'] at hbounds
  obtain ⟨huser, htype, hfile, hname⟩ := h.unset
  refine ⟨hs, ⟨mime', datasize', hc', (List.cons.inj hbounds).1.trans hb, ?_⟩, ?_, ?_, ?_, ?_⟩
  · have hbare := congrArg (List.map (Mimepart.setHeaders [])) htail
    rw [List.map_map, List.map_map] at hbare
    exact hbare.trans hparts
  · exact (congrArg Mimepart.userheaders hhead).trans huser
  · exact (congrArg Mimepart.mimetype hhead).trans htype
  · exact (congrArg Mimepart.filename hhead).trans hfile
  · exact (congrArg Mimepart.name hhead).trans hname

/-- What depends on what was set in a part only is the same for the arguments it
    was added with. -/
theorem map_eq_of_bare {β : Type} {parts : List Leaf}
    (h : parts.map Mimepart.bare = args.map fun a => (a.part fs).bare) {f : Leaf → β}
    {g : PartCall → β} (hfg : ∀ (p : Leaf) (a : PartCall), p.bare = (a.part fs).bare → f p = g a) :
    parts.map f = args.map g := by
  induction parts generalizing args with
  | nil =>
      cases args with
      | nil => rfl
      | cons a args => cases h
  | cons p parts ih =>
      cases args with
      | nil => cases h
      | cons a args =>
          obtain ⟨hhead, htail⟩ := List.cons.inj h
          rw [List.map_cons, List.map_cons, hfg p a hhead, ih htail]

theorem holds_new (fs : FileSys) (b : Boundary) : Holds fs b [] (Form.new b) := by
  have hempty : ∀ P : Leaf → Prop, ∀ p ∈ (curlMimeInit b).parts, P p := by simp [curlMimeInit]
  exact ⟨⟨⟨hempty _, fun _ => hempty _⟩, fun _ => ⟨rfl, hempty _⟩⟩, ⟨_, _, rfl, rfl, rfl⟩,
    rfl, rfl, rfl, rfl⟩

theorem Form.addPart_of_allocated {mime : CurlMime Leaf} {datasize : Option Nat}
    (hc : form.content = .MULTIPART mime datasize) {a : PartCall} (halloc : a.allocated = true) :
    form.addPart fs a = { form with content := .MULTIPART (mime.addpart (a.part fs)) datasize } := by
  simp only [Form.addPart, hc, halloc, if_true]

/-- Without memory for a part nothing happens. -/
theorem Form.addPart_of_not_allocated {a : PartCall} (halloc : a.allocated = false) :
    form.addPart fs a = form := by
  simp only [Form.addPart, halloc]
  cases form.content <;> rfl

theorem Holds.addPart_of_allocated (hfs : fs.Stable) (h : Holds fs b args form) {a : PartCall}
    (hnamed : a.Named) (halloc : a.allocated = true) :
    Holds fs b (args ++ [a]) (form.addPart fs a) := by
  obtain ⟨mime, datasize, hc, hb, hparts⟩ := h.multipart
  have hfresh := PartCall.part_fresh hfs hnamed halloc
  have hall : ∀ P : Leaf → Prop, (∀ p ∈ mime.parts, P p) → P (a.part fs) →
      ∀ p ∈ (mime.addpart (a.part fs)).parts, P p := by
    intro P hold hnew p hp
    rcases List.mem_append.mp hp with hp | hp
    · exact hold p hp
    · rw [List.mem_singleton.mp hp]
      exact hnew
  have hcontent : form.content.Sound fs (mimeLevel fs).Sound := h.sound.content
  have hstart : form.state.state.inHeader = true → form.content.Fresh (mimeLevel fs) := h.sound.fresh
  rw [hc] at hcontent hstart
  rw [Form.addPart_of_allocated hc halloc]
  refine ⟨⟨⟨hall _ hcontent.parts ?_, fun hbegin => hall _ (hcontent.fresh hbegin) hfresh⟩,
    fun hin => ⟨(hstart hin).tok, hall _ (hstart hin).parts hfresh⟩⟩,
    ⟨_, _, rfl, hb, ?_⟩, h.unset⟩
  · exact (Mimepart.level_rewinds Level.none_rewinds).fresh_sound _ hfresh
  · show (mime.parts ++ [a.part fs]).map Mimepart.bare = _
    rw [List.map_append, List.map_append, hparts]
    rfl

theorem Holds.addPart (hfs : fs.Stable) (h : Holds fs b args form) {a : PartCall}
    (hnamed : a.Named) : Holds fs b (a.addTo args) (form.addPart fs a) := by
  rw [PartCall.addTo]
  split
  · rename_i halloc
    exact h.addPart_of_allocated hfs hnamed halloc
  · rename_i halloc
    rw [Form.addPart_of_not_allocated (eq_false_of_ne_true halloc)]
    exact h

/-! ## Preparing the form -/

/-- The headers of a part of the form. -/
def leafHeaders (cfg : HeaderConfig) (disposition : Option CStr) (p : Leaf) : List CStr :=
  p.generated cfg Empty.elim none disposition

/-- The text of a part with its headers. -/
theorem leaf_text {p : Leaf} {a : PartCall} (h : p.bare = (a.part fs).bare) (cfg : HeaderConfig)
    (disposition : Option CStr) :
    ((leafLevel fs).fixed (p.withHeaders (leafHeaders cfg disposition p))).text =
      a.text fs cfg disposition := by
  have hsame : leafHeaders cfg disposition p = a.headers fs cfg disposition :=
    (@bare_congr fs p (a.part fs) h).1 cfg disposition
  have htext := (@bare_congr fs (p.withHeaders (leafHeaders cfg disposition p))
    ((a.part fs).setHeaders (a.headers fs cfg disposition)) h).2.2.2 hsame
  rw [htext, PartCall.part_text]
  rfl

theorem leafPrepare_spec (cfg : HeaderConfig) (disposition : Option CStr) (mem : Memory) (p : Leaf) :
    leafPrepare cfg mem disposition p =
        some (p.withHeaders (leafHeaders cfg disposition p), .OK) ∧
        p.Kept (p.withHeaders (leafHeaders cfg disposition p)) ∨
      ∃ p', leafPrepare cfg mem disposition p = some (p', .OUT_OF_MEMORY) ∧ p.Kept p' ∧
        Starved mem (leafHeaders cfg disposition p) := by
  have hnosub : ∀ (q : Leaf) (type : Option CStr),
      q.prepareSubparts (fun _ => Empty.elim) type = some (q, .OK) := by
    intro q type
    rw [Mimepart.prepareSubparts]
    cases q.content with
    | MULTIPART arg datasize => exact arg.elim
    | _ => rfl
  obtain hok | ⟨hdrs, hfail, hwhy⟩ := Mimepart.prepareHeaders_spec mem cfg Empty.elim
    (fun _ => Empty.elim) none disposition p
  · exact Or.inl ⟨hok.trans (hnosub _ _), Mimepart.kept_restartHeaders _ _ p⟩
  · exact Or.inr ⟨_, hfail, Mimepart.kept_restartHeaders _ _ p, hwhy⟩

theorem forall_of_kept {P : Leaf → Prop} {parts parts' : List Leaf}
    (hkept : List.Forall₂ Mimepart.Kept parts parts') (hkeep : ∀ p q : Leaf, p.Kept q → P p → P q)
    (h : ∀ p ∈ parts, P p) : ∀ q ∈ parts', P q := by
  induction hkept with
  | nil => simp
  | cons hpq _ ih =>
      obtain ⟨hhead, htail⟩ := List.forall_mem_cons.mp h
      exact List.forall_mem_cons.mpr ⟨hkeep _ _ hpq hhead, ih htail⟩

theorem map_bare_of_kept {parts parts' : List Leaf}
    (hkept : List.Forall₂ Mimepart.Kept parts parts') :
    parts'.map Mimepart.bare = parts.map Mimepart.bare := by
  induction hkept with
  | nil => rfl
  | cons hpq _ ih => rw [List.map_cons, List.map_cons, hpq.bare_eq, ih]

/-- The form once its headers were replaced, or some of them: for `Curl_http_body`
    it is read without its own headers, and those of the caller are taken away
    again. -/
def Prepares (form form' : Form) : Prop :=
  ∃ mime datasize parts hdrs st, form.content = .MULTIPART mime datasize ∧
    List.Forall₂ Mimepart.Kept mime.parts parts ∧ st.state = form.state.state ∧
    form' = { form with
      content := .MULTIPART { mime with parts := parts } datasize
      bodyOnly := true
      curlheaders := hdrs
      userheaders := []
      state := st }

/-- The form still holds its parts then. -/
theorem Holds.prepares (h : Holds fs b args form) (hp : Prepares form form') :
    Holds fs b args form' := by
  obtain ⟨mime, datasize, parts, hdrs, st, hc, hkept, hst, rfl⟩ := hp
  obtain ⟨mime', datasize', hc', hb, hparts⟩ := h.multipart
  obtain ⟨rfl, rfl⟩ := Content.MULTIPART.inj (hc.symm.trans hc')
  have hcontent : form.content.Sound fs (mimeLevel fs).Sound := h.sound.content
  have hstart : form.state.state.inHeader = true → form.content.Fresh (mimeLevel fs) := h.sound.fresh
  rw [hc] at hcontent hstart
  have hsound : ∀ q ∈ parts, (leafLevel fs).Sound q :=
    forall_of_kept hkept (fun _ _ hpq => hpq.sound) hcontent.parts
  have hfresh : (∀ p ∈ mime.parts, (leafLevel fs).Fresh p) → ∀ q ∈ parts, (leafLevel fs).Fresh q :=
    forall_of_kept hkept fun _ _ hpq => hpq.fresh
  refine ⟨⟨⟨hsound, fun hbegin => hfresh (hcontent.fresh hbegin)⟩, fun hin => ?_⟩,
    ⟨_, _, rfl, hb, (map_bare_of_kept hkept).trans hparts⟩, rfl, h.unset.2⟩
  have hform := hstart (hst ▸ hin)
  exact ⟨hform.tok, hfresh hform.parts⟩

theorem Form.issuedType_eq {mime : CurlMime Leaf} {datasize : Option Nat}
    (hc : form.content = .MULTIPART mime datasize) (htype : form.mimetype = none) (env : RequestEnv)
    (huser : form.userheaders = env.headers) :
    form.issuedType .FORM (env.cthdr form) = some env.contenttype := by
  have hmulti : form.isMultipart = true := by rw [Mimepart.isMultipart, hc]
  have hcthdr : env.cthdr form = some (match curlCheckheaders env.headers contentType with
      | some hdr => CStr.ofBuf ((hdr.bytes.drop 13).dropWhile fun b => decide (b = 0x20))
      | none => .lit "multipart/form-data") := by
    rw [RequestEnv.cthdr, hmulti]
    cases curlCheckheaders env.headers contentType <;> rfl
  have hcustom : form.customct = (searchHeader env.headers contentType).map CStr.ofBuf := by
    rw [Mimepart.customct, htype, huser]
    rfl
  rw [Mimepart.issuedType, hmulti, hcthdr, hcustom, RequestEnv.contenttype]
  cases searchHeader env.headers contentType <;> simp

/-- The only header generated for the form itself is its content type, which
    names the boundary. -/
theorem Form.generated_eq {mime : CurlMime Leaf} {datasize : Option Nat}
    (hc : form.content = .MULTIPART mime datasize) (htype : form.mimetype = none)
    (hfile : form.filename = none) (hname : form.name = none) (env : RequestEnv)
    (huser : form.userheaders = env.headers) :
    form.generated env.config (fun mime => mime.boundary.text) (env.cthdr form) none =
      [Mimepart.typeText env.contenttype (some mime.boundary.text)] := by
  have hdisp : form.dispositionLine env.config (some env.contenttype) none = none := by
    rw [Mimepart.dispositionLine]
    split
    · rfl
    · have hnone : form.issuedDisposition (some env.contenttype) none = none := by
        rw [Mimepart.issuedDisposition, hfile, hname, Option.none_or]
        split
        · decide
        · rfl
      rw [hnone]
      rfl
  have henc : form.encodingLine env.config (some env.contenttype) = none := by
    rw [Mimepart.encodingLine, Mimepart.namesEncoding]
    simp [RequestEnv.config]
  have hline : form.typeLine (fun mime => mime.boundary.text) (some env.contenttype) =
      some (Mimepart.typeText env.contenttype (some mime.boundary.text)) := by
    rw [Mimepart.typeLine, Mimepart.boundary, hc]
    rfl
  rw [Mimepart.generated]
  show (form.dispositionLine env.config (form.issuedType .FORM (env.cthdr form)) none).toList ++
    ((form.typeLine _ (form.issuedType .FORM (env.cthdr form))).toList ++
      (form.encodingLine env.config (form.issuedType .FORM (env.cthdr form))).toList) = _
  rw [Form.issuedType_eq hc htype env huser, hdisp, henc, hline]
  rfl

/-- The header lines of a request that posts the parts `args`. -/
def formLines (fs : FileSys) (b : Boundary) (env : RequestEnv) (args : List PartCall) : List CStr :=
  Mimepart.typeText env.contenttype (some b.text) ::
    args.flatMap fun a => a.headers fs env.config env.disposition

/-- The parts of a form are prepared one after the other, with the disposition that
    the content type of the request asks for. -/
theorem Form.prepareSubparts_eq {mime : CurlMime Leaf} {datasize : Option Nat}
    (hc : form.content = .MULTIPART mime datasize) (env : RequestEnv) (mem : Memory) :
    form.prepareSubparts (CurlMime.prepareHeaders (leafPrepare env.config) mem)
        (some env.contenttype) =
      (prepareParts (fun mem => leafPrepare env.config mem env.disposition) mem mime.parts).map
        fun (parts, r) =>
          ({ form with content := .MULTIPART { mime with parts := parts } datasize }, r) := by
  have hsub : form.prepareSubparts (CurlMime.prepareHeaders (leafPrepare env.config) mem)
        (some env.contenttype) =
      (CurlMime.prepareHeaders (leafPrepare env.config) mem env.disposition mime).map
        fun (arg, r) => ({ form with content := .MULTIPART arg datasize }, r) :=
    Mimepart.prepareSubparts_multipart hc _ _
  rw [hsub, CurlMime.prepareHeaders, Option.map_map]
  rfl

/-- `Curl_http_body` replaces the headers, unless memory runs out, and goes on
    with the rewind. -/
theorem Holds.httpBody (h : Holds fs b args form) (env : RequestEnv) :
    (∃ form', form.httpBody env = some (form', .error .OUT_OF_MEMORY) ∧
        Prepares form form' ∧ Starved env.mem (formLines fs b env args)) ∨
      ∃ form', Prepares form form' ∧
        form'.curlheaders = [Mimepart.typeText env.contenttype (some b.text)] ∧
        ((formLevel fs).fixed form').text = formText fs b env args ∧
        form.httpBody env = some form'.rewound := by
  obtain ⟨mime, datasize, hc, hb, hparts⟩ := h.multipart
  obtain ⟨huser, htype, hfile, hname⟩ := h.unset
  let start : Form := { form with bodyOnly := true, userheaders := env.headers }
  have hgen : start.generated env.config (fun mime => mime.boundary.text) (env.cthdr start) none =
      [Mimepart.typeText env.contenttype (some b.text)] := by
    rw [← hb]
    exact @Form.generated_eq start mime datasize hc htype hfile hname env rfl
  have hissued : start.issuedType .FORM (env.cthdr start) = some env.contenttype :=
    @Form.issuedType_eq start mime datasize hc htype env rfl
  have hheaders : mime.parts.map (leafHeaders env.config env.disposition) =
      args.map fun a => a.headers fs env.config env.disposition :=
    map_eq_of_bare hparts fun p a hpa => (@bare_congr fs p (a.part fs) hpa).1 _ _
  have hcall : form.httpBody env =
      (start.prepareHeaders (env.mem.call 0) env.config (fun mime => mime.boundary.text)
        (CurlMime.prepareHeaders (leafPrepare env.config) (env.mem.call 1)) (env.cthdr start) none).map
        fun (form, result) =>
          let form : Form := { form with userheaders := [] }
          if result ≠ .OK then (form, .error result) else form.rewound := rfl
  obtain hok | ⟨hdrs, hfail, hwhy⟩ := Mimepart.prepareHeaders_spec (env.mem.call 0) env.config
    (fun mime => mime.boundary.text) (CurlMime.prepareHeaders (leafPrepare env.config) (env.mem.call 1))
    (env.cthdr start) none start
  · -- the line of the form is there, and the parts follow
    let line := Mimepart.typeText env.contenttype (some b.text)
    let st := ((start.setHeaders [line]).restartHeaders [line]).state
    have hst : st.state = form.state.state :=
      (Mimepart.kept_restartHeaders [line] [line] start).state_eq
    have hrun : start.prepareHeaders (env.mem.call 0) env.config (fun mime => mime.boundary.text)
        (CurlMime.prepareHeaders (leafPrepare env.config) (env.mem.call 1)) (env.cthdr start) none =
        (prepareParts (fun mem => leafPrepare env.config mem env.disposition) (env.mem.call 1)
          mime.parts).map fun (parts, r) =>
          ({ (start.setHeaders [line]).restartHeaders [line] with
            content := .MULTIPART { mime with parts := parts } datasize }, r) := by
      rw [hok, hgen]
      show ((start.setHeaders [line]).restartHeaders [line]).prepareSubparts
        (CurlMime.prepareHeaders (leafPrepare env.config) (env.mem.call 1))
        (start.issuedType .FORM (env.cthdr start)) = _
      rw [hissued]
      exact @Form.prepareSubparts_eq ((start.setHeaders [line]).restartHeaders [line]) mime datasize
        hc env (env.mem.call 1)
    obtain ⟨hall, hkept⟩ | ⟨parts, hall, hkept, p, hp, hwhy⟩ :=
      prepareParts_spec Mimepart.Kept.refl (leafPrepare_spec env.config env.disposition)
        (env.mem.call 1) mime.parts
    · refine Or.inr ⟨_, ⟨mime, datasize, _, [line], st, hc, hkept, hst, rfl⟩, rfl, ?_, ?_⟩
      · have htexts : (mime.parts.map fun p =>
            p.withHeaders (leafHeaders env.config env.disposition p)).map
            (fun p => ((leafLevel fs).fixed p).text) =
            args.map fun a => a.text fs env.config env.disposition := by
          rw [List.map_map]
          exact map_eq_of_bare hparts fun p a hpa => leaf_text hpa env.config env.disposition
        show (CurlMime.multipart mime.boundary.bytes (List.map _ (List.map _ mime.parts))).prepend [] = _
        rw [htexts, hb, Stream.prepend_nil]
        rfl
      · rw [hcall, hrun, hall]
        rfl
    · refine Or.inl ⟨_, by rw [hcall, hrun, hall]; rfl,
        ⟨mime, datasize, parts, [line], st, hc, hkept, hst, rfl⟩, hwhy.of_call.mono ?_⟩
      have hmem : leafHeaders env.config env.disposition p ∈
          args.map fun a => a.headers fs env.config env.disposition :=
        hheaders ▸ List.mem_map_of_mem hp
      obtain ⟨a, ha, hsame⟩ := List.mem_map.mp hmem
      intro text htext
      exact List.mem_cons_of_mem _ (List.mem_flatMap.mpr ⟨a, ha, hsame ▸ htext⟩)
  · refine Or.inl ⟨_, by rw [hcall, hfail]; rfl, ?_, ?_⟩
    · exact ⟨mime, datasize, mime.parts, hdrs, _, hc,
        List.forall₂_same.mpr fun p _ => Mimepart.Kept.refl p,
        (Mimepart.kept_restartHeaders hdrs [] start).state_eq, by rw [← hc]; rfl⟩
    · rw [hgen] at hwhy
      exact hwhy.of_call.mono (List.cons_subset_cons _ (List.nil_subset _))

/-! ## Sending the form -/

theorem Holds.seekable (h : Holds fs b args form) :
    ((formLevel fs).fixed form).seekable = args.all fun a => a.seekable fs := by
  obtain ⟨mime, datasize, hc, -, hparts⟩ := h.multipart
  have hmap : mime.parts.map (fun p => ((leafLevel fs).fixed p).seekable) =
      args.map fun a => a.seekable fs :=
    map_eq_of_bare hparts fun p a hpa =>
      (@bare_congr fs p (a.part fs) hpa).2.1.trans (a.part_seekable fs)
  have hall := congrArg (fun l => l.all id) hmap
  rw [List.all_map, List.all_map] at hall
  show (form.content.fixed fs (mimeLevel fs)).seekable = _
  rw [hc]
  exact hall

theorem Holds.sized (h : Holds fs b args form) :
    ((formLevel fs).fixed form).sized = args.all fun a => a.sized fs := by
  obtain ⟨mime, datasize, hc, -, hparts⟩ := h.multipart
  have hmap : mime.parts.map (fun p => ((leafLevel fs).fixed p).sized) =
      args.map fun a => a.sized fs :=
    map_eq_of_bare hparts fun p a hpa =>
      (@bare_congr fs p (a.part fs) hpa).2.2.1.trans (a.part_sized fs)
  have hall := congrArg (fun l => l.all id) hmap
  rw [List.all_map, List.all_map] at hall
  show (form.content.fixed fs (mimeLevel fs)).sized = _
  rw [hc]
  exact hall

/-- What an operation on a form with the parts `args` may come to. -/
inductive Answers (fs : FileSys) (b : Boundary) (args : List PartCall) : FormOp → FormReply → Prop where
  | added (a : PartCall) : Answers fs b args (.addPart a) .added
  | starved (env : RequestEnv) (h : Starved env.mem (formLines fs b env args)) :
      Answers fs b args (.request env) (.failed .OUT_OF_MEMORY)
  | stuck (env : RequestEnv) (h : ∃ a ∈ args, a.seekable fs = false) :
      Answers fs b args (.request env) (.failed .SEND_FAIL_REWIND)
  | sent (env : RequestEnv) (blocks : List (Fetch Byte))
      (h : Delivers (formText fs b env args) env.rooms blocks) :
      Answers fs b args (.request env)
        (.sent [Mimepart.typeText env.contenttype (some b.text)]
          (if args.all fun a => a.sized fs then some (formText fs b env args).values.length else none)
          blocks)

/-- The parts after an operation. -/
def FormOp.after (args : List PartCall) : FormOp → List PartCall
  | .addPart a => a.addTo args
  | .request _ => args

/-- Every buffer of a request has room for something, and there was memory for the
    name of a file. -/
def FormOp.Roomy : FormOp → Prop
  | .addPart a => a.Named
  | .request env => ∀ n ∈ env.rooms, 0 < n

/-- A form that was rewound delivers its text into any buffers. -/
theorem Holds.pulls (h : Holds fs b args form) (hok : form.rewind.2 = true) {rooms : List Nat}
    (hrooms : ∀ n ∈ rooms, 0 < n) :
    ∃ form' blocks,
      Lib.pulls (Form.readback fs) (form.rewind.1.size.1.fuel fs rooms) rooms form.rewind.1.size.1 =
        some (form', blocks) ∧
      (formLevel fs).Inv form' ∧ (formLevel fs).fixed form' = (formLevel fs).fixed form ∧
      Delivers ((formLevel fs).fixed form).text rooms blocks ∧
      ((formLevel fs).fixed form).text =
        ((formLevel fs).rest form').prepend (blocks.map Fetch.values).flatten := by
  have hL := formLevel_rewinds fs
  have hfixed := (hL.seek_sound form h.sound).2
  have hfresh := hL.seek_fresh form h.sound hok
  have hsize := hL.size_fixed _ hfresh
  have hrest := hL.size_rest _ hfresh
  obtain ⟨form', blocks, hrun, ⟨hinv, hsame⟩, -, hdelivery, hleft⟩ :=
    @pulls_delivers _ _ _ _ _ _ (formLevel_reads fs ((formLevel fs).fixed form))
      (form.rewind.1.size.1.fuel fs rooms) rooms form.rewind.1.size.1
      ⟨hL.size_inv _ hfresh, hsize.trans hfixed⟩
      (fun n hn => ⟨hrooms n hn, by
        have hle : n ≤ rooms.sum := List.le_sum_of_mem hn
        show n + (formLevel fs).rank _ < (formLevel fs).rank _ + rooms.sum + 1
        omega⟩)
      (by show (formLevel fs).rank _ < (formLevel fs).rank _ + rooms.sum + 1; omega)
  have htext : (formLevel fs).rest form.rewind.1.size.1 = ((formLevel fs).fixed form).text :=
    hrest.trans (congrArg Fixed.text hfixed)
  rw [htext] at hdelivery hleft
  exact ⟨form', blocks, hrun, hinv, hsame, hdelivery, hleft⟩

/-- One operation. -/
theorem Holds.step (hfs : fs.Stable) (h : Holds fs b args form) {op : FormOp} (hroomy : op.Roomy) :
    ∃ form' r, formStep fs form op = some (form', r) ∧ Holds fs b (op.after args) form' ∧
      Answers fs b args op r := by
  cases op with
  | addPart a => exact ⟨_, _, rfl, h.addPart hfs hroomy, .added a⟩
  | request env =>
      have hL := formLevel_rewinds fs
      obtain ⟨form', hbody, hp, hwhy⟩ | ⟨ready, hp, hlines, htext, hbody⟩ := h.httpBody env
      · exact ⟨form', _, by rw [formStep, hbody]; rfl, h.prepares hp, .starved env hwhy⟩
      · have hready := h.prepares hp
        cases hok : ready.rewind.2 with
        | false =>
            obtain ⟨hsound, hfixed⟩ := hL.seek_sound ready hready.sound
            refine ⟨ready.rewind.1, .failed .SEND_FAIL_REWIND, ?_, hready.of_fixed hsound hfixed,
              .stuck env ?_⟩
            · simp [formStep, hbody, Form.rewound, hok]
            · have hnot : ¬ ((formLevel fs).fixed ready).seekable = true := fun hseek =>
                absurd ((hL.seek_of_seekable ready hready.sound hseek).symm.trans hok) (by simp)
              rw [hready.seekable] at hnot
              simpa using hnot
        | true =>
            obtain ⟨form', blocks, hpulls, hinv, hfixed, hdelivery, -⟩ := hready.pulls hok hroomy
            have hfresh := hL.seek_fresh ready hready.sound hok
            have hsize : ready.rewind.1.size.2 =
                if args.all fun a => a.sized fs then some (formText fs b env args).values.length
                else none := by
              have hsame := (hL.seek_sound ready hready.sound).2
              refine (hL.size_eq _ hfresh).trans ?_
              rw [hsame, Fixed.size, hready.sized, htext]
            have hheaders : ready.rewind.1.size.1.curlheaders =
                [Mimepart.typeText env.contenttype (some b.text)] := by
              rw [← hlines]
              show (Mimepart.mimePartRewind _ ready).1.curlheaders = _
              rw [Mimepart.mimePartRewind]
              split <;> rfl
            rw [htext] at hdelivery
            refine ⟨form', _, ?_, hready.of_fixed (hL.inv_sound _ hinv) hfixed,
              .sent env blocks hdelivery⟩
            simp [formStep, hbody, Form.rewound, hok, hpulls, hheaders, hsize]

/-- Any number of operations. -/
theorem Holds.run (hfs : fs.Stable) (h : Holds fs b args form) {ops : List FormOp}
    (hroomy : ∀ op ∈ ops, op.Roomy) :
    ∃ form' rs, replyRun (formStep fs) form ops = some (form', rs) ∧
      Holds fs b (ops.foldl FormOp.after args) form' ∧
      Answered FormOp.after (Answers fs b) args ops rs := by
  have hnext : ∀ args form op, FormOp.Roomy op → Holds fs b args form →
      ∃ form' r, formStep fs form op = some (form', r) ∧ Holds fs b (op.after args) form' ∧
        Answers fs b args op r := fun _ _ _ hop h => h.step hfs hop
  exact answers_run h hnext hroomy

/-- A system without files. -/
def FileSys.bare : FileSys := { stat := fun _ => none, access := fun _ => false, fopen := fun _ => none }

/-- A part with a name only, as an input without a value has. -/
def PartArgs.named : PartArgs :=
  { name := .lit "q", filename := .empty, type := .empty, data := .empty }

/-- A boundary in which no digit was drawn. -/
def Boundary.dashes : Boundary where
  bytes := List.replicate boundaryLen 0x2D
  length_eq := by decide
  alnum := fun _ hb => Or.inl (List.eq_of_mem_replicate hb)

/-- A request without headers of the caller, for which the form is read at once. -/
def RequestEnv.plain : RequestEnv :=
  { mem := Memory.plenty, formescape := true, headers := [], rooms := [500] }

end Form

end Curl1C.Mime
