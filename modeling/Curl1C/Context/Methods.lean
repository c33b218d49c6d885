/-
  Curl1C.Context.Methods

  The constructor, the destructor and the methods of `CcURL`, except
  `easy_perform` (see `Curl1C.Context.Perform`).  `TraceLog` output and the
  members that only feed it are left out.
-/

import Curl1C.Context.State
import Curl1C.Common.Lookup

namespace Curl1C

/-! ## The shared cache -/

namespace Proc

/-- The first part of `CcURL::AssignCurlCache`: replace `CurlShare` when
    `bNeedInitCache` asks for it.  The result of `curl_share_cleanup` is
    ignored. -/
def renewCurlShare (p : Proc) : Proc :=
  if p.bNeedInitCache then
    { (p.curlShareCleanup p.CurlShare).curlShareInit with CurlShare := p.nShare }
  else p

/-- The argument that turns a cache flag on or off. -/
def shareFlag (b : Bool) : ShareOption := if b then .SHARE else .UNSHARE

/-- The `curl_share_setopt` calls of `CcURL::AssignCurlCache`. -/
def applyCacheFlags (p : Proc) : Proc :=
  -- no result is looked at: a share in use refuses all six
  let s := p.CurlShare
  let p := p.curlShareSetopt s (shareFlag p.bUseCacheDNS) .DNS
  let p := p.curlShareSetopt s (shareFlag p.bUseCacheCONNECT) .CONNECT
  let p := p.curlShareSetopt s (shareFlag p.bUseCacheSSL) .SSL_SESSION
  let p := p.curlShareSetopt s (shareFlag p.bUseCacheCOOKIE) .COOKIE
  (p.curlShareSetopt s .SHARE .PSL).curlShareSetopt s .SHARE .HSTS

/-- `CcURL::AssignCurlCache` on the handle `h`. -/
def assignCurlCache (h : HandleId) (p : Proc) : Proc :=
  let p := p.renewCurlShare.applyCacheFlags
  { p.curlEasySetopt h .SHARE (.share p.CurlShare) with bNeedInitCache := false }

section AssignCurlCache

variable (h : HandleId) (p : Proc)

/-- What has nothing to do with shares is left alone by all calls on them. -/
theorem applyCacheFlags_keeps {α : Type} (f : Proc → α)
    (hsetopt : ∀ p s o d, f (curlShareSetopt s o d p) = f p)
    (hrenew : ∀ share nShare log CurlShare, f { p with
      share := share, nShare := nShare, log := log, CurlShare := CurlShare } = f p) :
    f p.renewCurlShare.applyCacheFlags = f p := by
  have hshare : f p.renewCurlShare = f p := by
    rw [renewCurlShare]
    split
    · exact hrenew _ _ _ _
    · rfl
  simp only [applyCacheFlags, hsetopt, hshare]

@[simp] theorem assignCurlCache_slist : (p.assignCurlCache h).slist = p.slist :=
  applyCacheFlags_keeps p Proc.slist (fun _ _ _ _ => rfl) (fun _ _ _ _ => rfl)

@[simp] theorem assignCurlCache_nSlist : (p.assignCurlCache h).nSlist = p.nSlist :=
  applyCacheFlags_keeps p Proc.nSlist (fun _ _ _ _ => rfl) (fun _ _ _ _ => rfl)

@[simp] theorem assignCurlCache_nCall : (p.assignCurlCache h).nCall = p.nCall :=
  applyCacheFlags_keeps p Proc.nCall (fun _ _ _ _ => rfl) (fun _ _ _ _ => rfl)

/-- Assigning the cache leaves every option but `CURLOPT_SHARE` alone. -/
theorem assignCurlCache_opts {o : CURLoption} (ho : o ≠ .SHARE) (h' : HandleId) :
    ((p.assignCurlCache h).easy h').opts o = (p.easy h').opts o := by
  have hflags : (p.renewCurlShare.applyCacheFlags).easy = p.easy :=
    applyCacheFlags_keeps p Proc.easy (fun _ _ _ _ => rfl) (fun _ _ _ _ => rfl)
  simp only [assignCurlCache, curlEasySetopt, hflags]
  by_cases hh : h' = h
  · rw [hh, Function.update_self]
    show Function.update (p.easy h).opts .SHARE _ o = _
    rw [Function.update_of_ne ho]
  · rw [Function.update_of_ne hh]

/-- The handle is given the current share. -/
theorem assignCurlCache_opts_share :
    ((p.assignCurlCache h).easy h).opts .SHARE = some (.share (p.assignCurlCache h).CurlShare) := by
  simp only [assignCurlCache, curlEasySetopt, Function.update_self]

end AssignCurlCache

end Proc

/-- The process once `DllMain` has run: no handle yet, and a share with the
    kinds of data the flags of StdAfx.cpp ask for. -/
def dllMain : Proc :=
  let p : Proc :=
    { easy := fun _ => Easy.new, nEasy := 0, share := fun _ => Share.new, nShare := 0,
      slist := fun _ => [], nSlist := 0, mime := fun _ => [], nMime := 0, nFile := 0, nCall := 0,
      CurlShare := 0, bUseCacheDNS := true, bUseCacheCONNECT := true, bUseCacheSSL := true,
      bUseCacheCOOKIE := false, bNeedInitCache := false, log := [] }
  let s := p.nShare
  let p := { p.curlShareInit with CurlShare := s }
  let p := p.curlShareSetopt s .SHARE .DNS
  let p := p.curlShareSetopt s .SHARE .CONNECT
  p.curlShareSetopt s .SHARE .SSL_SESSION

/-! ## Construction and destruction -/

/-- What the memory of a new object holds in the members its constructor leaves
    unassigned. -/
structure Junk where
  isPosting : Bool
  m_StatusLine : Int

/-- Memory that happens to be zero. -/
def Junk.zero : Junk := { isPosting := false, m_StatusLine := 0 }

/-- `CcURL::CcURL`. -/
def construct (junk : Junk) (p : Proc) : St :=
  let h := p.nEasy
  let p := p.curlEasyInit.assignCurlCache h
  -- the element `GetHeaders` skips
  let l := p.slistHead none
  let p := p.curlSlistAppend none (CStr.lit "pragma:")
  let m := p.nMime
  let p := p.curlMimeInit h
  let obj : CcURL :=
    { m_curl := h, m_mime := m, m_trace := false, headers := some l, recipients := none,
      pSrc := CCurlValue.new, pDest := CCurlValue.new, PostFildsData := CStr.empty,
      isPosting := junk.isPosting, isMultipart := false, m_StatusLine := junk.m_StatusLine }
  let st : St := { proc := p, obj := obj }
  let st := st.setopt .SSL_VERIFYPEER (.long 0)
  let st := st.setopt .SSL_VERIFYHOST (.long 0)
  let st := st.setopt .ACCEPT_ENCODING (.str CStr.empty)
  let st := st.setopt .TRANSFER_ENCODING (.long 1)
  let st := st.setopt .VERBOSE (.long 1)
  st.setopt .FOLLOWLOCATION (.long 1)

/-- `CcURL::~CcURL`.  `pCurlMime` comes from `new` but is released with
    `delete[]`, which runs as many destructors as the word in front of the
    object (`cookie`) says: none for 0, and from 2 on also destructors of
    objects that do not exist. -/
def destroy (cookie : Nat) (st : St) : Option Proc :=
  let p := st.proc.curlSlistFreeAll st.obj.headers
  let p := p.curlSlistFreeAll st.obj.recipients
  let p := p.curlEasyCleanup st.obj.m_curl
  match cookie with
  | 0 => some p
  | 1 => some (p.curlMimeFree st.obj.m_mime)
  | _ => none

/-! ## Methods -/

namespace St

/-- `CcURL::easy_cleanup`. -/
def easyCleanup (st : St) : St :=
  let p := st.proc.curlSlistFreeAll st.obj.headers
  let p := p.curlSlistFreeAll st.obj.recipients
  -- `m_curl` is overwritten without `curl_easy_cleanup`
  let h := p.nEasy
  let st : St :=
    { proc := p.curlEasyInit
      obj := { st.obj with headers := none, recipients := none, m_curl := h } }
  let st := st.setopt .SSL_VERIFYPEER (.long 0)
  let st := st.setopt .SSL_VERIFYHOST (.long 0)
  let st := st.setopt .ACCEPT_ENCODING (.str CStr.empty)
  let st := st.setopt .TRANSFER_ENCODING (.long 1)
  st.setopt .VERBOSE (.long 1)

/-- The bytes of `CURL_GOOD_SHARE` in memory. -/
def goodShareMagic : List Byte := [0x1e, 0x7a, 0x11, 0x7e]

/-- A script value given as `CURLOPT_SHARE` that libcurl follows as a pointer to
    a share: any address other than NULL, or a text that looks like one. -/
def wildShare (o : CURLoption) (v : OptVal) : Bool :=
  match o, v with
  | .SHARE, .long n => decide (n ≠ 0)
  | .SHARE, .str s => decide (s.bytes.take 4 = goodShareMagic)
  | _, _ => false

/-- The last branch of `CcURL::easy_setopt`: the value goes to libcurl as it
    is. -/
def setoptScript (o : CURLoption) (v : OptVal) (st : St) : Outcome St :=
  if wildShare o v then .crashed else .ok (st.setopt o v)

/-- The branch of `CcURL::easy_setopt` for `CURLOPT_HTTPHEADER`. -/
def appendHeader (optvalue : CStr) (st : St) : St :=
  let l := st.proc.slistHead st.obj.headers
  let st : St :=
    { proc := st.proc.curlSlistAppend st.obj.headers optvalue
      obj := { st.obj with headers := some l } }
  st.setopt .HTTPHEADER (.slist l)

/-- The branch of `CcURL::easy_setopt` for `CURLOPT_POSTFIELDS`. -/
def setPostfields (optvalue : CStr) (st : St) : St :=
  let st : St := { st with obj := { st.obj with pSrc := { st.obj.pSrc with Data := optvalue } } }
  let st := st.setopt .POSTFIELDS (.str optvalue)
  st.setopt .POSTFIELDSIZE (.long st.obj.pSrc.Data.length)

/-- The branch of `CcURL::easy_setopt` for `CURLOPT_MAIL_RCPT`. -/
def appendRecipient (optvalue : CStr) (st : St) : St :=
  let l := st.proc.slistHead st.obj.recipients
  let st : St :=
    { proc := st.proc.curlSlistAppend st.obj.recipients optvalue
      obj := { st.obj with recipients := some l } }
  let st := st.setopt .MAIL_RCPT (.slist l)
  -- from now on requests are mails; nothing sets this back
  { st with obj := { st.obj with isPosting := true } }

/-- `CcURL::easy_setopt` with the option already looked up. -/
def easySetoptOption (o : CURLoption) (v : Value) (st : St) : Outcome St :=
  if o = .HTTPHEADER then .ok (st.appendHeader v.string)
  else if o = .POSTFIELDS then .ok (st.setPostfields v.string)
  else if o = .MAIL_RCPT then .ok (st.appendRecipient v.string)
  else if v.typeCode = 1 then st.setoptScript o (.long v.long)
  else if v.typeCode = 2 then st.setoptScript o (.str v.string)
  -- a value of any other type is ignored
  else .ok st

/-- `CcURL::easy_setopt`.  After the error for an unknown name the option is 0,
    which libcurl refuses, so nothing changes whether or not the error
    unwinds. -/
def easySetopt (name : CStr) (v : Value) (st : St) : Outcome St :=
  match curlOptionsFromString name with
  | .found o => st.easySetoptOption o v
  | .strcmpNull => .crashed
  | .unknown => .ok st

/-- `CcURL::Debug`. -/
def debug (v : Value) (st : St) : St :=
  if v.long = 1 then
    let st : St := { st with obj := { st.obj with m_trace := true } }
    (st.setopt .DEBUGFUNCTION (.fn .myTrace)).setopt .VERBOSE (.long 1)
  else if v.long = 0 then
    let st : St := { st with obj := { st.obj with m_trace := false } }
    (st.setopt .DEBUGFUNCTION .null).setopt .VERBOSE (.long 0)
  else st

/-- `CcURL::StatusLine`. -/
def statusLine (v : Value) (st : St) : St :=
  if v.long = 1 then { st with obj := { st.obj with m_StatusLine := 1 } }
  else if v.long = 0 then { st with obj := { st.obj with m_StatusLine := 0 } }
  else st

/-- The script method `AssignCurlCache`. -/
def assignCache (st : St) : St :=
  { st with proc := ({ st.proc with bNeedInitCache := true }).assignCurlCache st.obj.m_curl }

/-- The script method `UseCache`. -/
def useCache (dns connect ssl cookie : Value) (st : St) : St :=
  let p : Proc :=
    { st.proc with
      bNeedInitCache := true
      bUseCacheDNS := !dns.isZero
      bUseCacheCONNECT := !connect.isZero
      bUseCacheSSL := !ssl.isZero
      bUseCacheCOOKIE := !cookie.isZero }
  { st with proc := p.assignCurlCache st.obj.m_curl }

/-- The script method `mime_init`. -/
def mimeInit (st : St) : St := { st with obj := { st.obj with isMultipart := true } }

/-- A text argument of `AddPart`, which is skipped when empty. -/
def nonEmpty (s : CStr) : Option CStr := if s.isEmpty then none else some s

/-- `CCurlMime::AddPart`. -/
def addPart (name filename type data : CStr) (st : St) : St :=
  let part : MimePart :=
    { name := nonEmpty name, filename := nonEmpty filename,
      type := nonEmpty type, data := nonEmpty data }
  { st with proc := st.proc.curlMimeAddpart st.obj.m_mime part }

/-- `CcURL::GetHeaders`: the result and the rows of the value table.  The first
    element of the list is skipped. -/
def getHeaders (st : St) : Bool × List CStr :=
  match st.obj.headers with
  | none => (false, [])
  | some l => (true, (st.proc.slist l).tail)

end St

end Curl1C
