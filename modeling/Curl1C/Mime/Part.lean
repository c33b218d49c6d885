/-
  Curl1C.Mime.Part

  Mime parts and multiparts of libcurl (mime.h, mime.c): how a part gets its
  content, how the body of a multipart is read back block by block, how it is
  rewound, and how its size is computed.

  The functions that call each other through nested multiparts
  (`readback_part` and `mime_subparts_read`, `mime_part_rewind` and
  `mime_subparts_seek`, `Curl_mime_size` and `multipart_size`) take the function
  for the level below as a parameter, so a part is a `Mimepart μ` whose subparts
  are a `μ`.  The form that `AddPart` fills is a `Mimepart (CurlMime Leaf)`.

  Content encoders and parts read through a callback of the application are
  left out: the component uses neither.

  Each copy of an argument may be refused; the `i`-th call of a function has the
  memory `mem.call i`.
-/

import Mathlib.Data.List.DropRight
import Curl1C.Curl.Dynbuf
import Curl1C.Lib.Reader

namespace Curl1C.Mime

open Lib Dyn

/-! ## Comparisons that ignore case (strcase.c) -/

/-- `Curl_raw_toupper`. -/
def rawToupper (b : Byte) : Byte := if 0x61 ≤ b ∧ b ≤ 0x7A then b - 0x20 else b

/-- `ncasecompare`, on what the two pointers have in front of the NUL. -/
def ncasecompare : List Byte → List Byte → Nat → Bool
  | a :: first, b :: second, max + 1 =>
      if rawToupper a ≠ rawToupper b then false else ncasecompare first second max
  | _, _, 0 => true
  | first, second, _ + 1 => rawToupper (symbol first) = rawToupper (symbol second)

/-- `strncasecompare`. -/
def strncasecompare (first second : CStr) (max : Nat) : Bool :=
  ncasecompare first.bytes second.bytes max

/-- `match_header`: the value of a header with the label `lbl`. -/
def matchHeader (hdr lbl : CStr) : Option (List Byte) :=
  if strncasecompare hdr lbl lbl.length ∧ symbol (hdr.bytes.drop lbl.length) = 0x3A then
    some ((hdr.bytes.drop (lbl.length + 1)).dropWhile (fun b => decide (b = 0x20)))
  else none

/-- `search_header`. -/
def searchHeader (hdrlist : List CStr) (lbl : CStr) : Option (List Byte) :=
  hdrlist.findSome? fun hdr => matchHeader hdr lbl

def contentType : CStr := .lit "Content-Type"

def crlf : List Byte := [0x0D, 0x0A]

/-! ## Files -/

/-- What `stat` says about a file, as far as it is looked at. -/
structure Stat where
  isReg : Bool
  size : Nat

/-- The file system as `stat`, `access(…, R_OK)` and `fopen(…, "rb")` see it. -/
structure FileSys where
  stat : CStr → Option Stat
  access : CStr → Bool
  fopen : CStr → Option (List Byte)

/-- A file that can be read and is regular opens, and has the size `stat` gives. -/
def FileSys.Stable (fs : FileSys) : Prop :=
  ∀ name st, fs.stat name = some st → st.isReg = true → fs.access name = true →
    ∃ bytes, fs.fopen name = some bytes ∧ bytes.length = st.size

/-- A stream opened for reading. -/
structure OpenFile where
  bytes : List Byte
  pos : Nat
  eof : Bool

/-- `fread`; a short count sets the end-of-file indicator. -/
def OpenFile.fread (n : Nat) (f : OpenFile) : List Byte × OpenFile :=
  let xs := (f.bytes.drop f.pos).take n
  (xs, { f with pos := f.pos + xs.length, eof := f.eof || decide (xs.length < n) })

/-- `fseek(fp, 0, SEEK_SET)`. -/
def OpenFile.rewind (f : OpenFile) : OpenFile := { f with pos := 0, eof := false }

/-! ## Parts -/

/-- `enum mimestate`. -/
inductive Mimestate where
  | BEGIN | CURLHEADERS | USERHEADERS | EOH | BODY | BOUNDARY1 | BOUNDARY2 | CONTENT | END
deriving DecidableEq

/-- The order of the enumerators. -/
def Mimestate.toNat : Mimestate → Nat
  | .BEGIN => 0
  | .CURLHEADERS => 1
  | .USERHEADERS => 2
  | .EOH => 3
  | .BODY => 4
  | .BOUNDARY1 => 5
  | .BOUNDARY2 => 6
  | .CONTENT => 7
  | .END => 8

/-- `struct mime_state`.  In a part the pointer is to the rest of a header list,
    in a multipart it is to a part, given by its position (NULL is the position
    behind the last part). -/
structure MimeState (P : Type) where
  state : Mimestate
  ptr : P
  offset : Nat

/-- `mimesetstate`. -/
def mimesetstate {P : Type} (tok : Mimestate) (ptr : P) : MimeState P :=
  { state := tok, ptr := ptr, offset := 0 }

/-- The kind of a part with what this kind keeps.  The read and seek functions
    follow from it: a file has a seek function exactly when its size is known.  The
    name of a file is NULL if it could not be copied. -/
inductive Content (μ : Type) where
  | NONE
  | DATA (data : List Byte)
  | FILE (data : Option CStr) (datasize : Option Nat) (fp : Option OpenFile)
  | MULTIPART (arg : μ) (datasize : Option Nat)

/-- `part->datasize`; -1 is `none`. -/
def Content.datasize {μ : Type} : Content μ → Option Nat
  | .NONE => some 0
  | .DATA data => some data.length
  | .FILE _ datasize _ => datasize
  | .MULTIPART _ datasize => datasize

/-- `fclose` of an open file of the part. -/
def Content.close {μ : Type} : Content μ → Content μ
  | .FILE data datasize _ => .FILE data datasize none
  | content => content

/-- `part->lastreadstatus`, as far as it is told apart. -/
inductive ReadStatus where
  | ok | eof | error
deriving DecidableEq

/-- `struct curl_mimepart`; the flag is `MIME_BODY_ONLY`. -/
structure Mimepart (μ : Type) where
  content : Content μ
  bodyOnly : Bool
  curlheaders : List CStr
  userheaders : List CStr
  mimetype : Option CStr
  filename : Option CStr
  name : Option CStr
  state : MimeState (List CStr)
  lastreadstatus : ReadStatus

/-- `MIME_BOUNDARY_LEN`. -/
def boundaryLen : Nat := 46

/-- A boundary of a multipart: 24 dashes and 22 random letters and digits. -/
structure Boundary where
  bytes : List Byte
  length_eq : bytes.length = boundaryLen
  alnum : ∀ b ∈ bytes, b = 0x2D ∨ (0x30 ≤ b ∧ b ≤ 0x39) ∨ (0x41 ≤ b ∧ b ≤ 0x5A) ∨
    (0x61 ≤ b ∧ b ≤ 0x7A)

/-- `struct curl_mime` with the parts linked from `firstpart`. -/
structure CurlMime (π : Type) where
  boundary : Boundary
  parts : List π
  state : MimeState Nat

/-- A part without subparts. -/
abbrev Leaf := Mimepart Empty

variable {μ π : Type}

/-! ## Building a part -/

/-- `Curl_mime_initpart`. -/
def initpart : Mimepart μ where
  content := .NONE
  bodyOnly := false
  curlheaders := []
  userheaders := []
  mimetype := none
  filename := none
  name := none
  state := mimesetstate .BEGIN []
  lastreadstatus := .ok

namespace Mimepart

/-- `cleanup_part_content`, and the content set after it. -/
def setContent (content : Content μ) (part : Mimepart μ) : Mimepart μ :=
  { part with
    content := content
    state := { part.state with state := .BEGIN }
    lastreadstatus := .ok }

/-- What the setters return for a copy that may have failed. -/
def copyResult (copy : Option CStr) : CURLcode := if copy.isSome then .OK else .OUT_OF_MEMORY

/-- `curl_mime_name`. -/
def curlMimeName (mem : Memory) (name : CStr) (part : Mimepart μ) : Mimepart μ × CURLcode :=
  let copy := strdup (mem []) name
  ({ part with name := copy }, copyResult copy)

/-- `curl_mime_filename`. -/
def curlMimeFilename (mem : Memory) (filename : CStr) (part : Mimepart μ) : Mimepart μ × CURLcode :=
  let copy := strdup (mem []) filename
  ({ part with filename := copy }, copyResult copy)

/-- `curl_mime_type`. -/
def curlMimeType (mem : Memory) (mimetype : CStr) (part : Mimepart μ) : Mimepart μ × CURLcode :=
  let copy := strdup (mem []) mimetype
  ({ part with mimetype := copy }, copyResult copy)

/-- `curl_mime_data` with `CURL_ZERO_TERMINATED`. -/
def curlMimeData (mem : Memory) (ptr : CStr) (part : Mimepart μ) : Mimepart μ × CURLcode :=
  let copy := strdup (mem []) ptr
  (part.setContent (copy.elim .NONE fun data => .DATA data.bytes), copyResult copy)

end Mimepart

/-- `Curl_basename`: what follows the last slash or backslash. -/
def basename (path : CStr) : CStr where
  bytes := path.bytes.rtakeWhile fun b => decide (b ≠ 0x2F ∧ b ≠ 0x5C)
  nulFree := fun h => path.nulFree ((List.rtakeWhile_suffix _ _).mem h)

/-- `strippath`. -/
def strippath (mem : Memory) (fullfile : CStr) : Option CStr :=
  (strdup (mem.call 0 []) fullfile).bind fun filename => strdup (mem.call 1 []) (basename filename)

namespace FileSys

/-- The result of `curl_mime_filedata` in front of `strippath`; `data` is the copy of
    the name. -/
def filedata (fs : FileSys) (filename : CStr) (data : Option CStr) : CURLcode :=
  if data.isNone then .OUT_OF_MEMORY
  else if (fs.stat filename).isNone ∨ ¬ fs.access filename then .READ_ERROR
  else .OK

/-- The size of a regular file that can be read. -/
def datasize (fs : FileSys) (filename : CStr) : Option Nat :=
  match fs.stat filename with
  | some st => if fs.access filename ∧ st.isReg then some st.size else none
  | none => none

end FileSys

/-- `curl_mime_filedata`.  A file that is not there is not refused: the part
    is a file part of unknown size.  Where the name of the file cannot be copied,
    it is one without a name. -/
def Mimepart.curlMimeFiledata (mem : Memory) (fs : FileSys) (filename : CStr) (part : Mimepart μ) :
    Mimepart μ × CURLcode :=
  let data := strdup (mem.call 0 []) filename
  let result := fs.filedata filename data
  let datasize := if result = .OK then fs.datasize filename else none
  let part := part.setContent (.FILE data datasize none)
  match strippath (mem.call 1) filename with
  | none => (part, .OUT_OF_MEMORY)
  | some base =>
      let (part, res) := part.curlMimeFilename (mem.call 2) base
      (part, if res ≠ .OK then res else result)

/-! ## Readback -/

/-- `readback_bytes`: what is copied to the buffer, and the state after it.  One
    call does not go from the bytes over to the trail. -/
def readbackBytes {P : Type} (bufsize : Nat) (bytes trail : List Byte) (state : MimeState P) :
    List Byte × MimeState P :=
  let segment :=
    if bytes.length > state.offset then bytes.drop state.offset
    else trail.drop (state.offset - bytes.length)
  let xs := segment.take bufsize
  (xs, { state with offset := state.offset + xs.length })

namespace Mimepart

/-- `mime_open_file`; opening NULL does not come back. -/
def openFile (fs : FileSys) (name : Option CStr) (fp : Option OpenFile) : Option (Option OpenFile) :=
  match fp with
  | some f => some (some f)
  | none =>
      name.map fun name =>
        (fs.fopen name).map fun bytes => { bytes := bytes, pos := 0, eof := false }

/-- `mime_file_read`, with the part's `fp` after it. -/
def fileRead (fs : FileSys) (name : Option CStr) (n : Nat) (fp : Option OpenFile) :
    Option (Fetch Byte × Option OpenFile) :=
  (openFile fs name fp).map fun fp =>
    match fp with
    | none => (.error, none)
    | some f => (.data (f.fread n).1, some (f.fread n).2)

/-- The read function of a content: `mime_mem_read`, `mime_file_read` or
    `mime_subparts_read`.  A file is read at most once in a call of
    `Curl_mime_read`; memory is read as often as needed (`MIME_FAST_READ`). -/
def readContent (fs : FileSys) (sub : ReadFn μ Byte) (fuel n : Nat) (hasread : Bool) (offset : Nat) :
    Content μ → Option (Content μ × Bool × Fetch Byte)
  | .NONE => some (.NONE, hasread, .data [])
  | .DATA data => some (.DATA data, hasread, .data ((data.drop offset).take n))
  | .FILE name datasize fp =>
      if fp.any OpenFile.eof then some (.FILE name datasize fp, hasread, .data [])
      else if hasread then some (.FILE name datasize fp, hasread, .stop)
      else (fileRead fs name n fp).map fun (r, fp) => (.FILE name datasize fp, true, r)
  | .MULTIPART arg datasize =>
      (sub fuel n hasread arg).map fun (arg, hasread, r) => (.MULTIPART arg datasize, hasread, r)

/-- `part->state.offset` and `part->lastreadstatus` after a read. -/
def afterRead (r : Fetch Byte) (part : Mimepart μ) : Mimepart μ :=
  match r with
  | .stop => part
  | .error => { part with lastreadstatus := .error }
  | .data [] => { part with lastreadstatus := .eof }
  | .data (x :: xs) =>
      { part with
        state := { part.state with offset := part.state.offset + (x :: xs).length }
        lastreadstatus := .ok }

/-- The end of the part's data can be told from its size. -/
def atEnd (part : Mimepart μ) : Bool :=
  part.content.datasize.any fun datasize => decide (datasize ≤ part.state.offset)

/-- `read_part_content`. -/
def readPartContent (fs : FileSys) (sub : ReadFn μ Byte) : ReadFn (Mimepart μ) Byte :=
  fun fuel n hasread part =>
    match part.lastreadstatus with
    | .eof => some (part, hasread, .data [])
    | .error => some (part, hasread, .error)
    | .ok =>
        if part.atEnd then some (part.afterRead (.data []), hasread, .data [])
        else
          (readContent fs sub fuel n hasread part.state.offset part.content).map
            fun (content, hasread, r) =>
              (({ part with content := content } : Mimepart μ).afterRead r, hasread, r)

/-- `mimesetstate`, and the loop goes on with nothing read. -/
def goto (tok : Mimestate) (ptr : List CStr) (hasread : Bool) (part : Mimepart μ) :
    Option (Mimepart μ × Bool × Turn Byte) :=
  some ({ part with state := mimesetstate tok ptr }, hasread, .emit [])

/-- `readback_bytes`, and `mimesetstate` where it has nothing left to copy. -/
def segment (n : Nat) (bytes trail : List Byte) (tok : Mimestate) (ptr : List CStr) (hasread : Bool)
    (part : Mimepart μ) : Option (Mimepart μ × Bool × Turn Byte) :=
  let (xs, state) := readbackBytes n bytes trail part.state
  if xs.isEmpty then part.goto tok ptr hasread
  else some ({ part with state := state }, hasread, .emit xs)

/-- The part once its content has ended. -/
def finish (part : Mimepart μ) : Mimepart μ :=
  { part with content := part.content.close, state := mimesetstate .END [] }

/-- One turn of the loop of `readback_part`. -/
def turn (fs : FileSys) (sub : ReadFn μ Byte) : TurnFn (Mimepart μ) Byte :=
  fun fuel n hasread part =>
    match part.state.state with
    | .BEGIN => part.goto (if part.bodyOnly then .BODY else .CURLHEADERS) part.curlheaders hasread
    | .USERHEADERS =>
        match part.state.ptr with
        | [] => part.goto .EOH [] hasread
        | hdr :: next =>
            if (matchHeader hdr contentType).isSome then part.goto .USERHEADERS next hasread
            else part.segment n hdr.bytes crlf .USERHEADERS next hasread
    | .CURLHEADERS =>
        match part.state.ptr with
        | [] => part.goto .USERHEADERS part.userheaders hasread
        | hdr :: next => part.segment n hdr.bytes crlf .CURLHEADERS next hasread
    | .EOH => part.segment n crlf [] .BODY [] hasread
    | .BODY => part.goto .CONTENT [] hasread
    | .CONTENT =>
        (part.readPartContent fs sub fuel n hasread).map fun (part, hasread, r) =>
          match r with
          | .data [] => (part.finish, hasread, .ret (.data []))
          | .data (x :: xs) => (part, hasread, .emit (x :: xs))
          | .error => (part, hasread, .ret .error)
          | .stop => (part, hasread, .ret .stop)
    | .END => some (part, hasread, .ret (.data []))
    | .BOUNDARY1 | .BOUNDARY2 => some (part, hasread, .emit [])

/-- `readback_part`. -/
def readbackPart (fs : FileSys) (sub : ReadFn μ Byte) : ReadFn (Mimepart μ) Byte :=
  fill (turn fs sub)

end Mimepart

namespace CurlMime

/-- `mimesetstate`, and the loop goes on with nothing read. -/
def goto (tok : Mimestate) (ptr : Nat) (hasread : Bool) (mime : CurlMime π) :
    Option (CurlMime π × Bool × Turn Byte) :=
  some ({ mime with state := mimesetstate tok ptr }, hasread, .emit [])

/-- `readback_bytes`, and `mimesetstate` where it has nothing left to copy. -/
def segment (n : Nat) (bytes trail : List Byte) (tok : Mimestate) (hasread : Bool)
    (mime : CurlMime π) : Option (CurlMime π × Bool × Turn Byte) :=
  let (xs, state) := readbackBytes n bytes trail mime.state
  if xs.isEmpty then mime.goto tok mime.state.ptr hasread
  else some ({ mime with state := state }, hasread, .emit xs)

def boundaryPrefix : List Byte := [0x0D, 0x0A, 0x2D, 0x2D]

/-- What follows the boundary in front of a part, and behind the last one. -/
def boundaryTrail (part : Option π) : List Byte :=
  if part.isSome then crlf else [0x2D, 0x2D, 0x0D, 0x0A]

/-- One turn of the loop of `mime_subparts_read`. -/
def turn (readback : ReadFn π Byte) : TurnFn (CurlMime π) Byte := fun fuel n hasread mime =>
  match mime.state.state with
  | .BEGIN | .BODY =>
      -- the CRLF in front of the first boundary is the one that ends the headers
      some ({ mime with state := { mimesetstate .BOUNDARY1 0 with offset := 2 } }, hasread,
        .emit [])
  | .BOUNDARY1 => mime.segment n boundaryPrefix [] .BOUNDARY2 hasread
  | .BOUNDARY2 =>
      mime.segment n mime.boundary.bytes (boundaryTrail mime.parts[mime.state.ptr]?) .CONTENT hasread
  | .CONTENT =>
      match mime.parts[mime.state.ptr]? with
      | none => mime.goto .END mime.parts.length hasread
      | some part =>
          (readback fuel n hasread part).map fun (part, hasread, r) =>
            let mime := { mime with parts := mime.parts.set mime.state.ptr part }
            match r with
            | .data [] =>
                ({ mime with state := mimesetstate .BOUNDARY1 (mime.state.ptr + 1) }, hasread,
                  .emit [])
            | .data (x :: xs) => (mime, hasread, .emit (x :: xs))
            | .error => (mime, hasread, .ret .error)
            | .stop => (mime, hasread, .ret .stop)
  | .END => some (mime, hasread, .ret (.data []))
  | .CURLHEADERS | .USERHEADERS | .EOH => some (mime, hasread, .emit [])

/-- `mime_subparts_read`. -/
def mimeSubpartsRead (readback : ReadFn π Byte) : ReadFn (CurlMime π) Byte := fill (turn readback)

end CurlMime

/-- No multipart below: this function is never called. -/
def noSubparts : ReadFn Empty Byte := fun _ _ _ arg => nomatch arg

/-! ## Rewinding -/

namespace Mimepart

/-- `part->seekfunc(part->arg, 0, SEEK_SET)`: `mime_mem_seek`, `mime_file_seek`
    or `mime_subparts_seek`, and whether it returned `CURL_SEEKFUNC_OK`.  Where
    the part has no seek function, nothing happens and it cannot seek. -/
def seek (sub : μ → μ × Bool) : Content μ → Content μ × Bool
  | .NONE => (.NONE, false)
  | .DATA data => (.DATA data, true)
  | .FILE name none fp => (.FILE name none fp, false)
  | .FILE name (some size) fp => (.FILE name (some size) (fp.map OpenFile.rewind), true)
  | .MULTIPART arg datasize => (.MULTIPART (sub arg).1 datasize, (sub arg).2)

/-- Where reading starts. -/
def targetstate (part : Mimepart μ) : Mimestate := if part.bodyOnly then .BODY else .BEGIN

/-- `mime_part_rewind`. -/
def mimePartRewind (sub : μ → μ × Bool) (part : Mimepart μ) : Mimepart μ × Bool :=
  if part.state.state.toNat > part.targetstate.toNat then
    let (content, res) := seek sub part.content
    ({ part with
        content := content
        state := if res then mimesetstate part.targetstate [] else part.state
        lastreadstatus := .ok }, res)
  else ({ part with state := mimesetstate part.targetstate [], lastreadstatus := .ok }, true)

end Mimepart

/-- `mime_subparts_seek` with offset 0 from the start: every part is rewound,
    also behind one that cannot be. -/
def CurlMime.mimeSubpartsSeek (rewind : π → π × Bool) (mime : CurlMime π) : CurlMime π × Bool :=
  if mime.state.state = .BEGIN then (mime, true)
  else
    let parts := mime.parts.map fun part => (rewind part).1
    let result := mime.parts.all fun part => (rewind part).2
    ({ mime with
        parts := parts
        state := if result then mimesetstate .BEGIN mime.parts.length else mime.state }, result)

/-- No multipart below: this function is never called. -/
def noSeek : Empty → Empty × Bool := fun arg => nomatch arg

/-! ## Sizes -/

/-- `slist_size` with an overhead of two bytes for each header. -/
def slistSize (s : List CStr) (skip : Option CStr) : Nat :=
  (s.filter fun hdr => skip.all fun lbl => (matchHeader hdr lbl).isNone).foldl
    (fun size hdr => size + (hdr.length + 2)) 0

/-- The size of a multipart is computed, and kept in the part. -/
def Content.withSize (multipartSize : μ → μ × Option Nat) : Content μ → Content μ
  | .MULTIPART arg _ => .MULTIPART (multipartSize arg).1 (multipartSize arg).2
  | content => content

namespace Mimepart

/-- `Curl_mime_size`, with the size it leaves in the parts; -1 is `none`. -/
def curlMimeSize (multipartSize : μ → μ × Option Nat) (part : Mimepart μ) :
    Mimepart μ × Option Nat :=
  let content := part.content.withSize multipartSize
  ({ part with content := content }, content.datasize.map fun size =>
    if part.bodyOnly then size
    else size + slistSize part.curlheaders none + slistSize part.userheaders (some contentType) + 2)

end Mimepart

/-- `multipart_size`. -/
def CurlMime.multipartSize (mimeSize : π → π × Option Nat) (mime : CurlMime π) :
    CurlMime π × Option Nat :=
  let boundarysize := 4 + boundaryLen + 2
  ({ mime with parts := mime.parts.map fun part => (mimeSize part).1 },
    mime.parts.foldl
      (fun size part =>
        match (mimeSize part).2 with
        | none => none
        | some sz => size.map fun size => size + (boundarysize + sz))
      (some boundarysize))

/-- No multipart below: this function is never called. -/
def noSize : Empty → Empty × Option Nat := fun arg => nomatch arg

end Curl1C.Mime
