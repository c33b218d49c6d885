/-
  Curl1C.Context.Cleanup

  `easy_cleanup` against a new object.

  The constructor and `easy_cleanup` are two initialisers of the same members
  and the same handle options.  `BehavesAsNew` compares what can be seen of the
  two objects after any further operations.  The handle comes out alike up to
  two options; those two, the first header, the two modes and the text of the
  source do not.

  Main result: `not_behavesAsNew`.
-/

import Curl1C.Context.Body
import Curl1C.Context.Options

namespace Curl1C

open Lib

/-- What an option value shows: a pointer to a list or to a mime structure
    stands for the contents. -/
inductive Shown where
  | value (v : OptVal)
  | strings (l : List CStr)
  | parts (l : List MimePart)
deriving DecidableEq

/-- What the object's handle shows for an option. -/
def St.shown (st : St) (o : CURLoption) : Option Shown :=
  (st.opts o).map fun v => match v with
    | .slist l => .strings (st.proc.slist l)
    | .mime m => .parts (st.proc.mime m)
    | v => .value v

/-- Two objects cannot be told apart: by their headers, recipients and modes,
    or by a request they send, its body and the options of its handle. -/
structure Alike (win : Win32) (s t : St) : Prop where
  headers : s.getHeaders.2 = t.getHeaders.2
  recipients : s.recipientStrings = t.recipientStrings
  isPosting : s.obj.isPosting = t.obj.isPosting
  isMultipart : s.obj.isMultipart = t.obj.isMultipart
  request : ∀ env f g, s.performPoint win env = .ok f → t.performPoint win env = .ok g →
    f.st.body = g.st.body ∧ ∀ o, f.st.shown o = g.st.shown o

/-- After `easy_cleanup` in the state `st`, every sequence of operations leaves
    the object like one that is constructed at that moment. -/
def BehavesAsNew (win : Win32) (junk : Junk) (st : St) : Prop :=
  ∀ ops s t, runOps (step win) st.easyCleanup ops = some s →
    runOps (step win) (construct junk st.easyCleanup.proc) ops = some t → Alike win s t

/-! ## The two handles -/

/-- The options `easy_cleanup` leaves in the new handle. -/
theorem easyCleanup_opts_eq (st : St) (o : CURLoption) :
    st.easyCleanup.opts o =
      if o = .VERBOSE then some (.long 1)
      else if o = .TRANSFER_ENCODING then some (.long 1)
      else if o = .ACCEPT_ENCODING then some (.str CStr.empty)
      else if o = .SSL_VERIFYHOST then some (.long 0)
      else if o = .SSL_VERIFYPEER then some (.long 0)
      else none := by
  unfold St.easyCleanup
  dsimp only
  rw [St.setopt_opts, St.setopt_opts, St.setopt_opts, St.setopt_opts, St.setopt_opts,
    St.easyInit_opts _ _ rfl]

/-- The options the constructor leaves in the handle, beside the share. -/
theorem construct_opts_eq (junk : Junk) (p : Proc) {o : CURLoption} (ho : o ≠ .SHARE) :
    (construct junk p).opts o =
      if o = .FOLLOWLOCATION then some (.long 1)
      else if o = .VERBOSE then some (.long 1)
      else if o = .TRANSFER_ENCODING then some (.long 1)
      else if o = .ACCEPT_ENCODING then some (.str CStr.empty)
      else if o = .SSL_VERIFYHOST then some (.long 0)
      else if o = .SSL_VERIFYPEER then some (.long 0)
      else none := by
  have hnew : ((p.curlEasyInit.assignCurlCache p.nEasy).easy p.nEasy).opts o = none := by
    rw [Proc.assignCurlCache_opts _ _ ho]
    simp only [Proc.curlEasyInit, Function.update_self]
    rfl
  unfold construct
  dsimp only
  rw [St.setopt_opts, St.setopt_opts, St.setopt_opts, St.setopt_opts, St.setopt_opts,
    St.setopt_opts]
  simp only [St.opts, St.handle, Proc.curlMimeInit, Proc.curlSlistAppend, hnew]

theorem construct_opts_share (junk : Junk) (p : Proc) :
    (construct junk p).opts .SHARE = some (.share (p.curlEasyInit.assignCurlCache p.nEasy).CurlShare) := by
  unfold construct
  dsimp only
  rw [St.setopt_opts, St.setopt_opts, St.setopt_opts, St.setopt_opts, St.setopt_opts, St.setopt_opts]
  simp only [reduceCtorEq, if_false, St.opts, St.handle, Proc.curlMimeInit, Proc.curlSlistAppend]
  exact Proc.assignCurlCache_opts_share _ _

/-- `easy_cleanup` leaves the handle of a new object, up to `FOLLOWLOCATION` and the
    share, which it does not set. -/
theorem easyCleanup_opts_iff (st : St) (junk : Junk) (p : Proc) (o : CURLoption) :
    st.easyCleanup.opts o = (construct junk p).opts o ↔ o ≠ .FOLLOWLOCATION ∧ o ≠ .SHARE := by
  rw [easyCleanup_opts_eq]
  by_cases hshare : o = .SHARE
  · rw [hshare, construct_opts_share]
    simp
  · rw [construct_opts_eq junk p hshare]
    by_cases hfollow : o = .FOLLOWLOCATION
    · rw [hfollow]
      simp
    · rw [if_neg hfollow]
      simp [hfollow, hshare]

/-! ## The two objects -/

/-- The rows `GetHeaders` reports once one header has been passed. -/
theorem getHeaders_appendHeader (st : St) (s : CStr) :
    (st.appendHeader s).getHeaders.2 = (st.headerStrings ++ [s]).tail := by
  rw [getHeaders_rows, appendHeader_headerStrings]

/-- Whatever an object did before, `easy_cleanup` does not make it like new: the first
    header passed to it afterwards is not reported, its handle differs from a new one in
    two options, and the modes, the source and the destination are those of before. -/
theorem not_behavesAsNew (win : Win32) (junk : Junk) (st : St) :
    ¬ BehavesAsNew win junk st ∧
      (∀ o, st.easyCleanup.opts o = (construct junk st.easyCleanup.proc).opts o ↔
        o ≠ .FOLLOWLOCATION ∧ o ≠ .SHARE) ∧
      st.easyCleanup.obj.isPosting = st.obj.isPosting ∧
      st.easyCleanup.obj.isMultipart = st.obj.isMultipart ∧
      st.easyCleanup.obj.pSrc = st.obj.pSrc ∧ st.easyCleanup.obj.pDest = st.obj.pDest := by
  refine ⟨?_, easyCleanup_opts_iff st junk _, rfl, rfl, rfl, rfl⟩
  intro hnew
  have hcleaned : runOps (step win) st.easyCleanup [passOne] =
      some (st.easyCleanup.appendHeader (CStr.lit "X-A: 1")) := by
    rw [runOps_cons, step_passOne]
    rfl
  have hconstructed : runOps (step win) (construct junk st.easyCleanup.proc) [passOne] =
      some ((construct junk st.easyCleanup.proc).appendHeader (CStr.lit "X-A: 1")) := by
    rw [runOps_cons, step_passOne]
    rfl
  have hrows := (hnew [passOne] _ _ hcleaned hconstructed).headers
  have hnone : st.easyCleanup.headerStrings = [] := rfl
  have hpragma : (construct junk st.easyCleanup.proc).headerStrings = [CStr.lit "pragma:"] :=
    construct_headerInv junk _
  rw [getHeaders_appendHeader, getHeaders_appendHeader, hnone, hpragma] at hrows
  cases hrows

/-- The object of a script that posted `A` still posts `A` after
    `easy_cleanup`, and no longer follows redirects; a new object has nothing
    to post and follows them. -/
theorem easyCleanup_keeps_body :
    ∃ st f g, run Win32.ascii Junk.zero dllMain postOnce = some st ∧
      st.easyCleanup.performPoint Win32.ascii .answered = .ok f ∧
      (construct Junk.zero st.easyCleanup.proc).performPoint Win32.ascii .answered = .ok g ∧
      f.st.body = [0x41] ∧ g.st.body = [] ∧
      f.st.shown .FOLLOWLOCATION = none ∧ g.st.shown .FOLLOWLOCATION = some (.value (.long 1)) ∧
      ¬ BehavesAsNew Win32.ascii Junk.zero st := by
  have hrun : ∃ st f g, run Win32.ascii Junk.zero dllMain postOnce = some st ∧
      st.easyCleanup.performPoint Win32.ascii .answered = .ok f ∧
      (construct Junk.zero st.easyCleanup.proc).performPoint Win32.ascii .answered = .ok g ∧
      f.st.body = [0x41] ∧ g.st.body = [] ∧
      f.st.shown .FOLLOWLOCATION = none ∧
      g.st.shown .FOLLOWLOCATION = some (.value (.long 1)) :=
    ⟨_, _, _, rfl, rfl, rfl, by decide, by decide, by decide, by decide⟩
  obtain ⟨st, f, g, hst, hf, hg, hstale, hempty, hrest⟩ := hrun
  refine ⟨st, f, g, hst, hf, hg, hstale, hempty, hrest.1, hrest.2, ?_⟩
  intro hnew
  have hbody := ((hnew [] _ _ rfl rfl).request .answered f g hf hg).1
  rw [hstale, hempty] at hbody
  cases hbody

end Curl1C
