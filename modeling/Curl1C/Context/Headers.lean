/-
  Curl1C.Context.Headers

  The two string lists of an object, and what `GetHeaders` reports.

  `headers` and `recipients` are lists on libcurl's heap; `ListsApart` keeps
  them two different lists, so that each is a list of strings of its own.

  The constructor starts the header list with the element `pragma:`, and
  `GetHeaders` skips the first element.  `easy_cleanup` starts an empty list
  without it, so from then on the element skipped is a header of the script.

  Main result: `getHeaders_rows_iff`.
-/

import Curl1C.Context.Run

namespace Curl1C

open Lib

/-! ## One list among others -/

namespace Proc

variable (p : Proc) (l : Option SlistId) (s : CStr)

/-- The list appended to grows by the string. -/
theorem curlSlistAppend_self :
    (p.curlSlistAppend l s).slist (p.slistHead l) = (l.elim [] p.slist) ++ [s] := by
  simp only [curlSlistAppend, Function.update_self]
  cases l with
  | none => rfl
  | some id => rfl

/-- Every other list that exists keeps its strings. -/
theorem curlSlistAppend_of_ne {id : SlistId} (hid : id < p.nSlist) (hne : l ≠ some id) :
    (p.curlSlistAppend l s).slist id = p.slist id := by
  have hhead : id ≠ p.slistHead l := by
    cases l with
    | none => exact Nat.ne_of_lt hid
    | some k => exact fun heq => hne (congrArg some heq.symm)
  simp only [curlSlistAppend, Function.update_of_ne hhead]

theorem nSlist_le_curlSlistAppend : p.nSlist ≤ (p.curlSlistAppend l s).nSlist := by
  simp only [curlSlistAppend]
  split
  · exact Nat.le_succ _
  · exact Nat.le_refl _

/-- The list appended to exists afterwards. -/
theorem slistHead_lt (hl : ∀ id, l = some id → id < p.nSlist) :
    p.slistHead l < (p.curlSlistAppend l s).nSlist := by
  cases l with
  | none => exact Nat.lt_succ_self _
  | some id => exact hl id rfl

end Proc

/-! ## The two lists of an object -/

/-- Both lists exist, and they are different ones. -/
structure ListsApart (st : St) : Prop where
  headers : ∀ l, st.obj.headers = some l → l < st.proc.nSlist
  recipients : ∀ l, st.obj.recipients = some l → l < st.proc.nSlist
  apart : ∀ l, st.obj.headers = some l → st.obj.recipients ≠ some l

/-- The strings of the header list. -/
def St.headerStrings (st : St) : List CStr := st.strings st.obj.headers

/-- The strings of the recipient list. -/
def St.recipientStrings (st : St) : List CStr := st.strings st.obj.recipients

theorem strings_eq_elim (st : St) (l : Option SlistId) : st.strings l = l.elim [] st.proc.slist := by
  cases l <;> rfl

section Append

variable {st : St} (s : CStr)

theorem appendHeader_headerStrings :
    (st.appendHeader s).headerStrings = st.headerStrings ++ [s] := by
  show (st.proc.curlSlistAppend st.obj.headers s).slist (st.proc.slistHead st.obj.headers) = _
  rw [Proc.curlSlistAppend_self, ← strings_eq_elim]
  rfl

theorem appendHeader_recipientStrings (h : ListsApart st) :
    (st.appendHeader s).recipientStrings = st.recipientStrings := by
  show St.strings _ st.obj.recipients = st.strings st.obj.recipients
  cases hrec : st.obj.recipients with
  | none => rfl
  | some id =>
      have hne : st.obj.headers ≠ some id := fun hhead => h.apart id hhead hrec
      exact Proc.curlSlistAppend_of_ne _ _ _ (h.recipients id hrec) hne

theorem appendRecipient_recipientStrings :
    (st.appendRecipient s).recipientStrings = st.recipientStrings ++ [s] := by
  show (st.proc.curlSlistAppend st.obj.recipients s).slist (st.proc.slistHead st.obj.recipients) = _
  rw [Proc.curlSlistAppend_self, ← strings_eq_elim]
  rfl

theorem appendRecipient_headerStrings (h : ListsApart st) :
    (st.appendRecipient s).headerStrings = st.headerStrings := by
  show St.strings _ st.obj.headers = st.strings st.obj.headers
  cases hhead : st.obj.headers with
  | none => rfl
  | some id =>
      exact Proc.curlSlistAppend_of_ne _ _ _ (h.headers id hhead) (h.apart id hhead)

theorem appendHeader_listsApart (h : ListsApart st) : ListsApart (st.appendHeader s) := by
  have hgrow := Proc.nSlist_le_curlSlistAppend st.proc st.obj.headers s
  refine ⟨?_, ?_, ?_⟩
  · rintro l ⟨⟩
    exact Proc.slistHead_lt _ _ s h.headers
  · intro l hl
    exact Nat.lt_of_lt_of_le (h.recipients l hl) hgrow
  · rintro l ⟨⟩ hrec
    -- a new head is fresh, an old one was apart before
    cases hhead : st.obj.headers with
    | none =>
        rw [hhead] at hrec
        exact absurd (h.recipients _ hrec) (Nat.lt_irrefl _)
    | some id =>
        rw [hhead] at hrec
        exact h.apart id hhead hrec

theorem appendRecipient_listsApart (h : ListsApart st) : ListsApart (st.appendRecipient s) := by
  have hgrow := Proc.nSlist_le_curlSlistAppend st.proc st.obj.recipients s
  refine ⟨?_, ?_, ?_⟩
  · intro l hl
    exact Nat.lt_of_lt_of_le (h.headers l hl) hgrow
  · rintro l ⟨⟩
    exact Proc.slistHead_lt _ _ s h.recipients
  · intro l hhead hrec
    have hrec' : st.proc.slistHead st.obj.recipients = l := Option.some.inj hrec
    cases hold : st.obj.recipients with
    | none =>
        rw [hold] at hrec'
        exact absurd (h.headers l hhead) (hrec' ▸ Nat.lt_irrefl _)
    | some id =>
        rw [hold] at hrec'
        exact h.apart l hhead (hold.trans (congrArg some hrec'))

end Append

theorem Kept.listsApart {st st' : St} (hkept : Kept st st') (h : ListsApart st) :
    ListsApart st' := by
  refine ⟨?_, ?_, ?_⟩
  · rw [hkept.headers, hkept.nSlist]
    exact h.headers
  · rw [hkept.recipients, hkept.nSlist]
    exact h.recipients
  · rw [hkept.headers, hkept.recipients]
    exact h.apart

theorem Kept.headerStrings {st st' : St} (hkept : Kept st st') :
    st'.headerStrings = st.headerStrings := by
  unfold St.headerStrings
  rw [hkept.headers, strings_eq_elim, strings_eq_elim, hkept.slist]

theorem Kept.recipientStrings {st st' : St} (hkept : Kept st st') :
    st'.recipientStrings = st.recipientStrings := by
  unfold St.recipientStrings
  rw [hkept.recipients, strings_eq_elim, strings_eq_elim, hkept.slist]

theorem construct_listsApart (junk : Junk) (p : Proc) : ListsApart (construct junk p) := by
  refine ⟨?_, ?_, ?_⟩
  · rintro l ⟨⟩
    exact Nat.lt_succ_self _
  · rintro l ⟨⟩
  · rintro l - ⟨⟩

theorem step_listsApart {win : Win32} {op : Op} {st st' : St} (h : ListsApart st)
    (hstep : step win st op = some st') : ListsApart st' := by
  cases hquiet : op.quiet with
  | true => exact (step_quiet hquiet hstep).listsApart h
  | false =>
    cases op with
    | easySetopt name v =>
        rcases easySetopt_cases hstep with ⟨-, rfl⟩ | ⟨-, rfl⟩ | ⟨-, rfl⟩ |
          ⟨o, a, -, -, -, -, rfl⟩ | ⟨-, rfl⟩
        · exact appendHeader_listsApart v.string h
        · exact ⟨h.headers, h.recipients, h.apart⟩
        · exact appendRecipient_listsApart v.string h
        · exact ⟨h.headers, h.recipients, h.apart⟩
        · exact h
    | setSourceData v =>
        obtain rfl := Option.some.inj hstep
        exact ⟨h.headers, h.recipients, h.apart⟩
    | easyCleanup =>
        obtain rfl := Option.some.inj hstep
        refine ⟨?_, ?_, ?_⟩ <;> rintro l ⟨⟩
    | mimeInit =>
        obtain rfl := Option.some.inj hstep
        exact ⟨h.headers, h.recipients, h.apart⟩
    | _ => cases hquiet

/-! ## The headers a script passed -/

/-- How one operation changes the headers passed since construction or the
    last `easy_cleanup`. -/
def passHeader (passed : List CStr) : Op → List CStr
  | .easySetopt name v =>
      if curlOptionsFromString name = .found .HTTPHEADER then passed ++ [v.string] else passed
  | .easyCleanup => []
  | _ => passed

/-- The strings passed as headers since construction or the last
    `easy_cleanup`. -/
def headersPassed (ops : List Op) : List CStr := ops.foldl passHeader []

theorem headersPassed_snoc (hist : List Op) (op : Op) :
    headersPassed (hist ++ [op]) = passHeader (headersPassed hist) op := by
  simp [headersPassed]

theorem passHeader_of_ne {name : CStr} {v : Value} (passed : List CStr)
    (hname : curlOptionsFromString name ≠ .found .HTTPHEADER) :
    passHeader passed (.easySetopt name v) = passed := by
  simp [passHeader, hname]

theorem passHeader_of_quiet {op : Op} (hquiet : op.quiet = true) (passed : List CStr) :
    passHeader passed op = passed := by
  cases op <;> first | rfl | cases hquiet

/-- Whether `easy_cleanup` has been called. -/
def cleaned (ops : List Op) : Bool :=
  ops.any fun op => match op with
    | .easyCleanup => true
    | _ => false

/-- The elements in front of the script's headers: `pragma:` until the first
    `easy_cleanup`, none from then on. -/
def builtinHeaders (ops : List Op) : List CStr :=
  if cleaned ops then [] else [CStr.lit "pragma:"]

theorem cleaned_snoc_of_ne {hist : List Op} {op : Op} (hop : op ≠ .easyCleanup) :
    cleaned (hist ++ [op]) = cleaned hist := by
  unfold cleaned
  rw [List.any_append]
  cases op <;> first | exact absurd rfl hop | simp

theorem cleaned_snoc_easyCleanup (hist : List Op) : cleaned (hist ++ [.easyCleanup]) = true := by
  simp [cleaned]

/-- The header list holds the built-in elements and then the script's. -/
def HeaderInv (hist : List Op) (st : St) : Prop :=
  st.headerStrings = builtinHeaders hist ++ headersPassed hist

theorem HeaderInv.of_eq {hist : List Op} {op : Op} {st st' : St} (h : HeaderInv hist st)
    (hop : op ≠ .easyCleanup) (hpass : passHeader (headersPassed hist) op = headersPassed hist)
    (hstrings : st'.headerStrings = st.headerStrings) : HeaderInv (hist ++ [op]) st' := by
  unfold HeaderInv builtinHeaders
  rw [hstrings, h, headersPassed_snoc, hpass, cleaned_snoc_of_ne hop]
  rfl

/-- Only `easy_setopt` with the header option and `easy_cleanup` change the
    list, and they change the history alike. -/
theorem step_headerInv {win : Win32} {hist : List Op} {op : Op} {st st' : St}
    (hapart : ListsApart st) (h : HeaderInv hist st) (hstep : step win st op = some st') :
    HeaderInv (hist ++ [op]) st' := by
  cases hquiet : op.quiet with
  | true =>
      have hop : op ≠ .easyCleanup := by
        rintro rfl
        cases hquiet
      exact h.of_eq hop (passHeader_of_quiet hquiet _) (step_quiet hquiet hstep).headerStrings
  | false =>
    cases op with
    | easySetopt name v =>
        rcases easySetopt_cases hstep with ⟨hname, rfl⟩ | ⟨hname, rfl⟩ | ⟨hname, rfl⟩ |
          ⟨o, a, hname, ho, -, -, rfl⟩ | ⟨hnone, rfl⟩
        · -- the list and the history grow by the same string
          unfold HeaderInv builtinHeaders
          rw [appendHeader_headerStrings, h, headersPassed_snoc, cleaned_snoc_of_ne (by simp)]
          simp [passHeader, hname, builtinHeaders]
        · exact h.of_eq (by simp) (passHeader_of_ne _ (by simp [hname])) rfl
        · exact h.of_eq (by simp) (passHeader_of_ne _ (by simp [hname]))
            (appendRecipient_headerStrings v.string hapart)
        · refine h.of_eq (by simp) (passHeader_of_ne _ ?_) rfl
          rw [hname]
          rintro ⟨⟩
          exact ho (by decide)
        · refine h.of_eq (by simp) (passHeader_of_ne _ ?_) rfl
          exact fun hname => (hnone _ hname).1 (by decide)
    | setSourceData v =>
        obtain rfl := Option.some.inj hstep
        exact h.of_eq (by simp) rfl rfl
    | easyCleanup =>
        -- `headers` is NULL, and `pragma:` is not put back
        obtain rfl := Option.some.inj hstep
        unfold HeaderInv builtinHeaders
        rw [cleaned_snoc_easyCleanup, headersPassed_snoc]
        rfl
    | mimeInit =>
        obtain rfl := Option.some.inj hstep
        exact h.of_eq (by simp) rfl rfl
    | _ => cases hquiet

theorem construct_headerInv (junk : Junk) (p : Proc) : HeaderInv [] (construct junk p) := by
  have hlist : (construct junk p).headerStrings = [CStr.lit "pragma:"] := by
    show (Proc.curlSlistAppend none (CStr.lit "pragma:") _).slist (Proc.slistHead none _) = _
    rw [Proc.curlSlistAppend_self]
    rfl
  exact hlist

theorem run_headerInv {win : Win32} {junk : Junk} {p : Proc} {ops : List Op} {st : St}
    (h : run win junk p ops = some st) : HeaderInv ops st := by
  have hboth : ListsApart st ∧ HeaderInv ops st := by
    refine runOps_induct (I := fun hist st => ListsApart st ∧ HeaderInv hist st)
      ⟨construct_listsApart junk p, construct_headerInv junk p⟩ ?_ ops
      (fun _ _ => trivial) st h
    rintro hist op s t - ⟨hapart, hinv⟩ hstep
    exact ⟨step_listsApart hapart hstep, step_headerInv hapart hinv hstep⟩
  exact hboth.2

/-! ## What `GetHeaders` reports -/

/-- The rows are the list without its first element. -/
theorem getHeaders_rows (st : St) : st.getHeaders.2 = st.headerStrings.tail := by
  unfold St.getHeaders St.headerStrings
  cases st.obj.headers with
  | none => rfl
  | some l => rfl

/-- `GetHeaders` reports the headers the script passed exactly as long as
    `easy_cleanup` has not been called, or while no header has been passed
    since. -/
theorem getHeaders_rows_iff (win : Win32) (junk : Junk) (p : Proc) (ops : List Op) (st : St)
    (hrun : run win junk p ops = some st) :
    st.getHeaders.2 = headersPassed ops ↔ cleaned ops = false ∨ headersPassed ops = [] := by
  have hinv : st.headerStrings = builtinHeaders ops ++ headersPassed ops := run_headerInv hrun
  rw [getHeaders_rows, hinv]
  unfold builtinHeaders
  cases hclean : cleaned ops with
  | false => simp
  | true =>
      -- the first header passed is the one that `tail` drops
      cases headersPassed ops with
      | nil => simp
      | cons x xs => simp

theorem lookup_HTTPHEADER : curlOptionsFromString (CStr.lit "HTTPHEADER") = .found .HTTPHEADER :=
  curlOptionsFromString_of_getElem? (show lookuptable[98]? = _ from rfl)

/-- A script passes the header `X-A: 1`. -/
def passOne : Op := .easySetopt (CStr.lit "HTTPHEADER") (Value.ofString (CStr.lit "X-A: 1"))

theorem headersPassed_passOne (hist : List Op) :
    headersPassed (hist ++ [passOne]) = headersPassed hist ++ [CStr.lit "X-A: 1"] := by
  rw [headersPassed_snoc]
  simp only [passOne, passHeader, lookup_HTTPHEADER, if_true]
  rfl

theorem step_passOne (win : Win32) (st : St) :
    step win st passOne = some (st.appendHeader (CStr.lit "X-A: 1")) := by
  rw [passOne, step_easySetopt_found win lookup_HTTPHEADER]
  rfl

theorem getHeaders_rows_passOne :
    ∃ st, run Win32.ascii Junk.zero dllMain [passOne] = some st ∧
      st.getHeaders.2 = headersPassed [passOne] := by
  have hrun : run Win32.ascii Junk.zero dllMain [passOne] =
      some ((construct Junk.zero dllMain).appendHeader (CStr.lit "X-A: 1")) := by
    rw [run, runOps_cons, step_passOne]
    rfl
  exact ⟨_, hrun, (getHeaders_rows_iff Win32.ascii Junk.zero dllMain [passOne] _ hrun).mpr
    (Or.inl rfl)⟩

/-- The first header passed after `easy_cleanup` is the element `GetHeaders`
    skips. -/
theorem getHeaders_loses_header_after_cleanup :
    ∃ st, run Win32.ascii Junk.zero dllMain [.easyCleanup, passOne] = some st ∧
      headersPassed [.easyCleanup, passOne] = [CStr.lit "X-A: 1"] ∧ st.getHeaders.2 = [] := by
  have hrun : run Win32.ascii Junk.zero dllMain [.easyCleanup, passOne] =
      some ((construct Junk.zero dllMain).easyCleanup.appendHeader (CStr.lit "X-A: 1")) := by
    have hcleanup : step Win32.ascii (construct Junk.zero dllMain) .easyCleanup =
        some (construct Junk.zero dllMain).easyCleanup := rfl
    rw [run, runOps_cons, hcleanup, Option.bind_some, runOps_cons, step_passOne]
    rfl
  exact ⟨_, hrun, headersPassed_passOne [.easyCleanup], rfl⟩

end Curl1C
