/-
  Curl1C.Context.State

  The objects a script holds: `CCurlValue` (data source and destination) and
  `CcURL` of Context.h, over the process state of `Curl1C.Curl.Proc`.

  `St` is one `CcURL` object together with the process it lives in.  The
  accessors at the end (`St.opts`, `St.setopt`, ...) are what the methods are
  written with, and their lemmas are all that later proofs need to know about
  the heap below.
-/

import Curl1C.Curl.Proc
import Curl1C.Common.Convert

namespace Curl1C

/-! ## Values of the 1C language -/

/-- A 1C value as its accessors show it: the type code, the text
    (`GetString`), the number converted to `long`, and whether the number
    compares equal to 0. -/
structure Value where
  typeCode : Nat
  string : CStr
  long : Int
  isZero : Bool
deriving DecidableEq

/-- The 1C string `s`, whose number is 0. -/
def Value.ofString (s : CStr) : Value := { typeCode := 2, string := s, long := 0, isZero := true }

/-- The 1C integer `n` with its decimal text. -/
def Value.ofInt (n : Int) : Value :=
  { typeCode := 1, string := CStr.lit (toString n), long := n, isZero := decide (n = 0) }

/-! ## Sources and destinations -/

/-- `tType`. -/
inductive TType where
  | ttVariable | ttFile | ttMsg
deriving DecidableEq

/-- `CCurlValue`, as far as requests depend on it. -/
structure CCurlValue where
  Type_ : TType
  Data : CStr
deriving DecidableEq

/-- The constructor of `CCurlValue`. -/
def CCurlValue.new : CCurlValue := { Type_ := .ttVariable, Data := CStr.empty }

/-- The write handler of the property `Type`: a number from 0 to 2 is taken,
    any other raises an error and changes nothing. -/
def CCurlValue.setType (value : Value) (c : CCurlValue) : CCurlValue :=
  if value.long = 0 then { c with Type_ := .ttVariable }
  else if value.long = 1 then { c with Type_ := .ttFile }
  else if value.long = 2 then { c with Type_ := .ttMsg }
  else c

/-- The write handler of the property `Data`. -/
def CCurlValue.setData (value : Value) (c : CCurlValue) : CCurlValue :=
  { c with Data := value.string }

/-! ## The request object -/

/-- `CcURL`, with the members its methods read.  `pCurlMime` holds `m_mime` and
    never changes, so the two are one field. -/
structure CcURL where
  m_curl : HandleId
  m_mime : MimeId
  m_trace : Bool
  headers : Option SlistId
  recipients : Option SlistId
  pSrc : CCurlValue
  pDest : CCurlValue
  PostFildsData : CStr
  isPosting : Bool
  isMultipart : Bool
  m_StatusLine : Int

/-- One object in its process. -/
structure St where
  proc : Proc
  obj : CcURL

/-- How a method that may raise an error leaves. -/
inductive Outcome (α : Type) where
  /-- it goes on with `a` -/
  | ok (a : α)
  /-- `RaiseExtRuntimeError` unwinds the method, leaving the object as it is -/
  | unwound (st : St)
  /-- it dereferences a NULL or wild pointer -/
  | crashed

namespace Outcome

variable {α β : Type}

/-- Go on with `f` if the method did not leave. -/
def bind (x : Outcome α) (f : α → Outcome β) : Outcome β :=
  match x with
  | ok a => f a
  | unwound st => unwound st
  | crashed => crashed

@[simp] theorem bind_eq_ok {x : Outcome α} {f : α → Outcome β} {b : β} :
    x.bind f = ok b ↔ ∃ a, x = ok a ∧ f a = ok b := by
  cases x <;> simp [bind]

/-- The state in which the caller of the method finds the object, if the
    process is still there. -/
def state (x : Outcome St) : Option St :=
  match x with
  | ok st => some st
  | unwound st => some st
  | crashed => none

end Outcome

/-! ## What the methods see of the process -/

namespace St

/-- The object's handle. -/
def handle (st : St) : Easy := st.proc.easy st.obj.m_curl

/-- The value the object's handle holds for an option. -/
def opts (st : St) (o : CURLoption) : Option OptVal := st.handle.opts o

/-- The strings of a list, none for NULL. -/
def strings (st : St) (l : Option SlistId) : List CStr :=
  match l with
  | none => []
  | some id => st.proc.slist id

/-- `curl_easy_setopt(m_curl, o, v)`. -/
def setopt (o : CURLoption) (v : OptVal) (st : St) : St :=
  { st with proc := st.proc.curlEasySetopt st.obj.m_curl o v }

section Setopt

variable (o : CURLoption) (v : OptVal) (st : St)

@[simp] theorem setopt_obj : (st.setopt o v).obj = st.obj := rfl
@[simp] theorem setopt_slist : (st.setopt o v).proc.slist = st.proc.slist := rfl
@[simp] theorem setopt_nSlist : (st.setopt o v).proc.nSlist = st.proc.nSlist := rfl
@[simp] theorem setopt_mime : (st.setopt o v).proc.mime = st.proc.mime := rfl
@[simp] theorem setopt_nCall : (st.setopt o v).proc.nCall = st.proc.nCall := rfl
@[simp] theorem setopt_nFile : (st.setopt o v).proc.nFile = st.proc.nFile := rfl
@[simp] theorem setopt_strings (l : Option SlistId) : (st.setopt o v).strings l = st.strings l := rfl

/-- The handle holds what it was last given. -/
@[simp] theorem setopt_opts (o' : CURLoption) :
    (st.setopt o v).opts o' = if o' = o then some v else st.opts o' := by
  simp only [St.opts, St.handle, St.setopt, Proc.curlEasySetopt, Function.update_self]
  by_cases h : o' = o
  · rw [if_pos h, h, Function.update_self]
  · rw [if_neg h, Function.update_of_ne h]

end Setopt

/-- A handle fresh from `curl_easy_init` has every option at its default. -/
theorem easyInit_opts (p : Proc) (obj : CcURL) (hobj : obj.m_curl = p.nEasy) (o : CURLoption) :
    (St.mk p.curlEasyInit obj).opts o = none := by
  show (Function.update p.easy p.nEasy Easy.new obj.m_curl).opts o = none
  rw [hobj, Function.update_self]
  rfl

end St

end Curl1C
