/-
  Curl1C.Context.Setopt

  What `easy_setopt` makes of a name and of a value.

  The name is searched in `lookuptable`.  The type of the value, not that of
  the option, decides what is passed to `curl_easy_setopt`: a number goes as a
  `long`, a string as a `char *`.  Three options have branches of their own.

  Main results: `nameContract_iff` for names, `setopt_reads_iff` for values.
-/

import Curl1C.Context.Run
import Curl1C.Curl.OptionType

namespace Curl1C

open Lib

/-! ## Names -/

/-- Some row of `lookuptable` has the key. -/
def Named (key : CStr) : Prop := ∃ k o, (some k, o) ∈ lookuptable ∧ CStr.lit k = key

/-- The settings a script has made on the object and its handle are the same. -/
structure SameSettings (st st' : St) : Prop where
  headers : st'.strings st'.obj.headers = st.strings st.obj.headers
  recipients : st'.strings st'.obj.recipients = st.strings st.obj.recipients
  data : st'.obj.pSrc.Data = st.obj.pSrc.Data
  isPosting : st'.obj.isPosting = st.obj.isPosting
  opts : ∀ o, st'.opts o = st.opts o

/-- The name of a row stands for its option; any other name is reported as
    unknown, which a NULL key in the search would prevent, and changes no
    setting. -/
structure NameContract (key : CStr) : Prop where
  found : ∀ k o, (some k, o) ∈ lookuptable → CStr.lit k = key →
    curlOptionsFromString key = .found o
  unknown : ¬ Named key → curlOptionsFromString key = .unknown
  harmless : ¬ Named key → ∀ (v : Value) (st : St),
    ∃ st', (st.easySetopt key v).state = some st' ∧ SameSettings st st'

/-- The search for any other name reaches the NULL key. -/
theorem strcmpNull_of_not_named {key : CStr} (h : ¬ Named key) :
    curlOptionsFromString key = .strcmpNull := by
  apply curlOptionsFromString_of_forall_ne
  intro k o hrow hk
  exact h ⟨k, o, hrow, hk⟩

/-- Exactly the names of the table are treated as they should be; with any other
    name the process dereferences NULL. -/
theorem nameContract_iff (key : CStr) :
    (NameContract key ↔ Named key) ∧
    (¬ Named key → curlOptionsFromString key = .strcmpNull ∧
      ∀ (v : Value) (st : St), st.easySetopt key v = .crashed) := by
  refine ⟨⟨?_, ?_⟩, ?_⟩
  · intro hcontract
    by_contra hnot
    have hlookup := (hcontract.unknown hnot).symm.trans (strcmpNull_of_not_named hnot)
    cases hlookup
  · intro hnamed
    refine ⟨?_, fun hnot => absurd hnamed hnot, fun hnot => absurd hnamed hnot⟩
    rintro k o hrow rfl
    exact curlOptionsFromString_of_mem hrow
  · intro hnot
    have hnull := strcmpNull_of_not_named hnot
    refine ⟨hnull, ?_⟩
    intro v st
    rw [St.easySetopt, hnull]

theorem nameContract_url : NameContract (CStr.lit "URL") :=
  (nameContract_iff (CStr.lit "URL")).1.mpr
    ⟨"URL", .URL, List.mem_of_getElem? (show lookuptable[304]? = _ from rfl), rfl⟩

/-- Names are compared with their case, so `url` is not in the table. -/
theorem not_nameContract_lowercase :
    curlOptionsFromString (CStr.lit "url") = .strcmpNull ∧
    (∀ (v : Value) (st : St), st.easySetopt (CStr.lit "url") v = .crashed) ∧
    ¬ NameContract (CStr.lit "url") := by
  have hnull : curlOptionsFromString (CStr.lit "url") = .strcmpNull := by decide +kernel
  refine ⟨hnull, ?_, ?_⟩
  · intro v st
    rw [St.easySetopt, hnull]
  · intro hcontract
    obtain ⟨st', hst', -⟩ : ∃ st', ((construct Junk.zero dllMain).easySetopt (CStr.lit "url")
        (Value.ofInt 0)).state = some st' ∧ SameSettings (construct Junk.zero dllMain) st' := by
      refine hcontract.harmless ?_ _ _
      rintro ⟨k, o, hrow, hk⟩
      have hfound := hcontract.found k o hrow hk
      rw [hnull] at hfound
      cases hfound
    rw [St.easySetopt, hnull] at hst'
    cases hst'

/-! ## Values -/

/-- The option and the argument of a `curl_easy_setopt`. -/
def setoptCall : Call → Option (CURLoption × OptVal)
  | .easySetopt _ o a => some (o, a)
  | _ => none

/-- The options and arguments `easy_setopt` passes to `curl_easy_setopt` for the
    option it looked up. -/
def St.setoptArgs (o : CURLoption) (v : Value) (st : St) : List (CURLoption × OptVal) :=
  if o = .HTTPHEADER then [(.HTTPHEADER, .slist (st.proc.slistHead st.obj.headers))]
  else if o = .POSTFIELDS then
    [(.POSTFIELDS, .str v.string), (.POSTFIELDSIZE, .long v.string.length)]
  else if o = .MAIL_RCPT then [(.MAIL_RCPT, .slist (st.proc.slistHead st.obj.recipients))]
  else v.scriptArg.toList.map fun a => (o, a)

theorem setoptArgs_of_notMem {o : CURLoption} (ho : o ∉ specialOptions) (v : Value) (st : St) :
    st.setoptArgs o v = v.scriptArg.toList.map fun a => (o, a) := by
  simp only [specialOptions, List.mem_cons, List.not_mem_nil, or_false, not_or] at ho
  rw [St.setoptArgs, if_neg ho.1, if_neg ho.2.1, if_neg ho.2.2]

/-- `easy_setopt` makes the calls with these arguments, or libcurl follows one
    of them as a wild pointer. -/
theorem easySetoptOption_calls (o : CURLoption) (v : Value) (st : St) :
    (∃ st' calls, st.easySetoptOption o v = .ok st' ∧ st'.proc.log = st.proc.log ++ calls ∧
      calls.filterMap setoptCall = st.setoptArgs o v) ∨
    (st.easySetoptOption o v = .crashed ∧
      ∃ a, st.setoptArgs o v = [(o, a)] ∧ St.wildShare o a = true) := by
  by_cases hspecial : o ∈ specialOptions
  · simp only [specialOptions, List.mem_cons, List.not_mem_nil, or_false] at hspecial
    -- the two list options append to their list first
    rcases hspecial with rfl | rfl | rfl
    · exact Or.inl ⟨_, [_, _], rfl, List.append_assoc .., rfl⟩
    · exact Or.inl ⟨_, [_, _], rfl, List.append_assoc .., rfl⟩
    · exact Or.inl ⟨_, [_, _], rfl, List.append_assoc .., rfl⟩
  · rw [easySetoptOption_of_notMem hspecial, setoptArgs_of_notMem hspecial]
    cases v.scriptArg with
    | none => exact Or.inl ⟨st, [], rfl, (List.append_nil _).symm, rfl⟩
    | some a =>
        rw [Option.elim_some, St.setoptScript]
        by_cases hwild : St.wildShare o a = true
        · rw [if_pos hwild]
          exact Or.inr ⟨rfl, a, rfl, hwild⟩
        · rw [if_neg hwild]
          exact Or.inl ⟨_, [_], rfl, rfl, rfl⟩

/-- Every call that `easy_setopt` makes passes what libcurl reads. -/
def St.PassesRead (o : CURLoption) (v : Value) (st : St) : Prop :=
  ∀ c ∈ st.setoptArgs o v, readsArg c.1 c.2 = true

/-- The branches of their own pass what is read. -/
theorem passesRead_of_mem {o : CURLoption} (ho : o ∈ specialOptions) (v : Value) (st : St) :
    st.PassesRead o v := by
  simp only [specialOptions, List.mem_cons, List.not_mem_nil, or_false] at ho
  intro c hc
  rcases ho with rfl | rfl | rfl
  · obtain rfl := List.mem_singleton.mp hc
    rfl
  · rcases List.mem_pair.mp hc with rfl | rfl <;> rfl
  · obtain rfl := List.mem_singleton.mp hc
    rfl

/-- The other branch passes one argument. -/
theorem passesRead_of_scriptArg {o : CURLoption} (ho : o ∉ specialOptions) {v : Value} {a : OptVal}
    (ha : v.scriptArg = some a) (st : St) : st.PassesRead o v ↔ readsArg o a = true := by
  simp [St.PassesRead, setoptArgs_of_notMem ho, ha]

/-- For a name of the table and a number or a string, `easy_setopt` passes what
    libcurl reads exactly for the options with a branch of their own, for numbers
    given to integer options, and for strings given to text options or
    `CURLOPT_COPYPOSTFIELDS`.  It refuses no value. -/
theorem setopt_reads_iff {name : CStr} {o : CURLoption}
    (hname : curlOptionsFromString name = .found o) {v : Value}
    (hv : v.typeCode = 1 ∨ v.typeCode = 2) (st : St) :
    ((∃ st' calls, st.easySetopt name v = .ok st' ∧ st'.proc.log = st.proc.log ++ calls ∧
        calls.filterMap setoptCall = st.setoptArgs o v) ∨
      (st.easySetopt name v = .crashed ∧
        ∃ a, st.setoptArgs o v = [(o, a)] ∧ St.wildShare o a = true)) ∧
    st.setoptArgs o v ≠ [] ∧
    (st.PassesRead o v ↔ o ∈ specialOptions ∨
      (v.typeCode = 1 ∧ (o.type = some .LONG ∨ o.type = some .VALUES)) ∨
      (v.typeCode = 2 ∧ (o.type = some .STRINGPOINT ∨ o = .COPYPOSTFIELDS))) := by
  have hoption : st.easySetopt name v = st.easySetoptOption o v := by rw [St.easySetopt, hname]
  rw [hoption]
  refine ⟨easySetoptOption_calls o v st, ?_⟩
  by_cases hspecial : o ∈ specialOptions
  · refine ⟨?_, iff_of_true (passesRead_of_mem hspecial v st) (Or.inl hspecial)⟩
    simp only [specialOptions, List.mem_cons, List.not_mem_nil, or_false] at hspecial
    rcases hspecial with rfl | rfl | rfl <;> exact List.cons_ne_nil _ _
  have hpost : o ≠ .POSTFIELDS := by
    rintro rfl
    exact hspecial (by decide)
  rcases hv with hnum | hstr
  · have harg : v.scriptArg = some (.long v.long) := by simp [Value.scriptArg, hnum]
    refine ⟨by simp [setoptArgs_of_notMem hspecial, harg], ?_⟩
    rw [passesRead_of_scriptArg hspecial harg, readsArg_long_iff]
    simp [hspecial, hnum]
  · have harg : v.scriptArg = some (.str v.string) := by simp [Value.scriptArg, hstr]
    refine ⟨by simp [setoptArgs_of_notMem hspecial, harg], ?_⟩
    rw [passesRead_of_scriptArg hspecial harg, readsArg_str_iff]
    simp [hspecial, hstr, hpost]

theorem setopt_reads_timeout :
    (construct Junk.zero dllMain).PassesRead .TIMEOUT (Value.ofInt 30) :=
  (setopt_reads_iff (curlOptionsFromString_of_getElem? (show lookuptable[287]? = _ from rfl))
    (Or.inl rfl) (construct Junk.zero dllMain)).2.2.mpr (Or.inr (Or.inl ⟨rfl, Or.inl rfl⟩))

/-- A string where a `long` is read, a number where a pointer is read, and a
    32-bit `long` where 64 bits are read. -/
theorem not_passesRead_mismatched :
    curlOptionsFromString (CStr.lit "TIMEOUT") = .found .TIMEOUT ∧
    curlOptionsFromString (CStr.lit "URL") = .found .URL ∧
    curlOptionsFromString (CStr.lit "INFILESIZE_LARGE") = .found .INFILESIZE_LARGE ∧
    (construct Junk.zero dllMain).setoptArgs .TIMEOUT (Value.ofString (CStr.lit "30")) =
      [(.TIMEOUT, .str (CStr.lit "30"))] ∧
    (construct Junk.zero dllMain).setoptArgs .URL (Value.ofInt 5) = [(.URL, .long 5)] ∧
    (construct Junk.zero dllMain).setoptArgs .INFILESIZE_LARGE (Value.ofInt 5) =
      [(.INFILESIZE_LARGE, .long 5)] ∧
    ¬ (construct Junk.zero dllMain).PassesRead .TIMEOUT (Value.ofString (CStr.lit "30")) ∧
    ¬ (construct Junk.zero dllMain).PassesRead .URL (Value.ofInt 5) ∧
    ¬ (construct Junk.zero dllMain).PassesRead .INFILESIZE_LARGE (Value.ofInt 5) := by
  refine ⟨curlOptionsFromString_of_getElem? (show lookuptable[287]? = _ from rfl),
    curlOptionsFromString_of_getElem? (show lookuptable[304]? = _ from rfl),
    curlOptionsFromString_of_getElem? (show lookuptable[107]? = _ from rfl), rfl, rfl, rfl, ?_⟩
  refine ⟨?_, ?_, ?_⟩
  · intro hread
    exact absurd (hread (.TIMEOUT, .str (CStr.lit "30")) List.mem_cons_self) (by decide)
  · intro hread
    exact absurd (hread (.URL, .long 5) List.mem_cons_self) (by decide)
  · intro hread
    exact absurd (hread (.INFILESIZE_LARGE, .long 5) List.mem_cons_self) (by decide)

end Curl1C
