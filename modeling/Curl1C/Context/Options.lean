/-
  Curl1C.Context.Options

  The options a script sets stay in force.

  The constructor, `easy_cleanup`, `Debug`, the cache methods and
  `easy_perform` write options of the same handle as the script.
  `scriptValue o` is the last value the script gave to the option `o` since the
  handle was made; `InForce` says that the handle holds it.  The two list
  options are in force when the handle holds the object's list and the list
  ends with the value.

  Main results: `inForce_along`, and `inForce_along_iff` with the two options of the
  verification, which `easy_perform` resets.
-/

import Curl1C.Context.Headers

namespace Curl1C

open Lib

/-- The options whose values a script adds to a list one by one. -/
def listOptions : List CURLoption := [.HTTPHEADER, .MAIL_RCPT]

/-- `easy_setopt` does something with the value: it goes to a list, or it is a
    number or a string. -/
def Effective (o : CURLoption) (v : Value) : Prop := o ∈ listOptions ∨ v.scriptArg ≠ none

instance (o : CURLoption) (v : Value) : Decidable (Effective o v) :=
  inferInstanceAs (Decidable (_ ∨ _))

/-- How one operation changes the value the script gave to `o`. -/
def setScript (o : CURLoption) (last : Option Value) : Op → Option Value
  | .easySetopt name v =>
      if curlOptionsFromString name = .found o ∧ Effective o v then some v else last
  | .easyCleanup => none
  | _ => last

/-- The value the script last gave to `o` since construction or the last
    `easy_cleanup`. -/
def scriptValue (o : CURLoption) (ops : List Op) : Option Value := ops.foldl (setScript o) none

/-- The handle holds, for `o`, the list `list` of the object, and the list ends
    with the value. -/
def Listed (st : St) (o : CURLoption) (list : Option SlistId) (v : Value) : Prop :=
  ∃ l, list = some l ∧ st.opts o = some (.slist l) ∧ (st.strings list).getLast? = some v.string

/-- The handle holds the script's value for `o`. -/
def InForce (st : St) (o : CURLoption) (v : Value) : Prop :=
  if o = .HTTPHEADER then Listed st o st.obj.headers v
  else if o = .MAIL_RCPT then Listed st o st.obj.recipients v
  else st.opts o = v.scriptArg

/-! ## What keeps a value in force -/

section Keep

variable {st st' : St} {o : CURLoption} {v : Value}

theorem Listed.of_eq {list list' : Option SlistId} (h : Listed st o list v)
    (hopts : st'.opts o = st.opts o) (hlist : list' = list)
    (hstrings : st'.strings list' = st.strings list) : Listed st' o list' v := by
  obtain ⟨l, hl, hopt, hlast⟩ := h
  exact ⟨l, hlist.trans hl, hopts.trans hopt, by rw [hstrings, hlast]⟩

/-- A value stays in force while its option and, for a list option, its list
    stay as they are. -/
theorem InForce.of_eq (h : InForce st o v) (hopts : st'.opts o = st.opts o)
    (hheaders : o = .HTTPHEADER →
      st'.obj.headers = st.obj.headers ∧ st'.headerStrings = st.headerStrings)
    (hrecipients : o = .MAIL_RCPT →
      st'.obj.recipients = st.obj.recipients ∧ st'.recipientStrings = st.recipientStrings) :
    InForce st' o v := by
  unfold InForce at h ⊢
  by_cases hheader : o = .HTTPHEADER
  · rw [if_pos hheader] at h ⊢
    obtain ⟨hlist, hstrings⟩ := hheaders hheader
    exact h.of_eq hopts hlist hstrings
  rw [if_neg hheader] at h ⊢
  by_cases hrcpt : o = .MAIL_RCPT
  · rw [if_pos hrcpt] at h ⊢
    obtain ⟨hlist, hstrings⟩ := hrecipients hrcpt
    exact h.of_eq hopts hlist hstrings
  rw [if_neg hrcpt] at h ⊢
  exact hopts.trans h

theorem Kept.inForce (hkept : Kept st st') (ho : o ∉ managedOptions) (h : InForce st o v) :
    InForce st' o v :=
  h.of_eq (hkept.opts o ho) (fun _ => ⟨hkept.headers, hkept.headerStrings⟩)
    (fun _ => ⟨hkept.recipients, hkept.recipientStrings⟩)

/-- Another option is set. -/
theorem InForce.setopt (h : InForce st o v) {o' : CURLoption} (hne : o ≠ o') (a : OptVal) :
    InForce (st.setopt o' a) o v := by
  refine h.of_eq ?_ (fun _ => ⟨rfl, rfl⟩) (fun _ => ⟨rfl, rfl⟩)
  rw [St.setopt_opts, if_neg hne]

end Keep

/-! ## What puts a value in force -/

section Set

variable {st : St} {o : CURLoption} {v : Value}

theorem appendHeader_inForce (st : St) (v : Value) :
    InForce (st.appendHeader v.string) .HTTPHEADER v := by
  refine ⟨st.proc.slistHead st.obj.headers, rfl, ?_, ?_⟩
  · show (St.setopt _ _ _).opts _ = _
    rw [St.setopt_opts, if_pos rfl]
  · have hstrings : (st.appendHeader v.string).headerStrings = _ :=
      appendHeader_headerStrings v.string
    unfold St.headerStrings at hstrings
    rw [hstrings, List.getLast?_concat]

theorem appendRecipient_inForce (st : St) (v : Value) :
    InForce (st.appendRecipient v.string) .MAIL_RCPT v := by
  refine ⟨st.proc.slistHead st.obj.recipients, rfl, ?_, ?_⟩
  · show (St.setopt _ _ _).opts _ = _
    rw [St.setopt_opts, if_pos rfl]
  · have hstrings : (st.appendRecipient v.string).recipientStrings = _ :=
      appendRecipient_recipientStrings v.string
    unfold St.recipientStrings at hstrings
    rw [hstrings, List.getLast?_concat]

theorem setopt_inForce (st : St) {a : OptVal} (ho : o ∉ specialOptions)
    (ha : v.scriptArg = some a) : InForce (st.setopt o a) o v := by
  have hheader : o ≠ .HTTPHEADER := by
    rintro rfl
    exact ho (by decide)
  have hrcpt : o ≠ .MAIL_RCPT := by
    rintro rfl
    exact ho (by decide)
  unfold InForce
  rw [if_neg hheader, if_neg hrcpt, St.setopt_opts, if_pos rfl, ha]

/-- A header leaves every other option in force. -/
theorem InForce.appendHeader (h : InForce st o v) (hapart : ListsApart st)
    (hne : o ≠ .HTTPHEADER) (s : CStr) : InForce (st.appendHeader s) o v := by
  refine h.of_eq ?_ (fun heq => absurd heq hne)
    (fun _ => ⟨rfl, appendHeader_recipientStrings s hapart⟩)
  show (St.setopt _ _ _).opts o = _
  rw [St.setopt_opts, if_neg hne]
  rfl

/-- A recipient leaves every other option in force. -/
theorem InForce.appendRecipient (h : InForce st o v) (hapart : ListsApart st)
    (hne : o ≠ .MAIL_RCPT) (s : CStr) : InForce (st.appendRecipient s) o v := by
  refine h.of_eq ?_ (fun _ => ⟨rfl, appendRecipient_headerStrings s hapart⟩)
    (fun heq => absurd heq hne)
  show (St.setopt _ _ _).opts o = _
  rw [St.setopt_opts, if_neg hne]
  rfl

/-- A body leaves every option but the two of the body in force. -/
theorem InForce.setPostfields (h : InForce st o v) (hfields : o ≠ .POSTFIELDS)
    (hsize : o ≠ .POSTFIELDSIZE) (s : CStr) : InForce (st.setPostfields s) o v := by
  have hdata : InForce
      { st with obj := { st.obj with pSrc := { st.obj.pSrc with Data := s } } } o v :=
    h.of_eq rfl (fun _ => ⟨rfl, rfl⟩) (fun _ => ⟨rfl, rfl⟩)
  exact (hdata.setopt hfields _).setopt hsize _

end Set

/-! ## Every run -/

theorem scriptValue_snoc (o : CURLoption) (hist : List Op) (op : Op) :
    scriptValue o (hist ++ [op]) = setScript o (scriptValue o hist) op := by
  simp [scriptValue]

theorem setScript_of_quiet {op : Op} (hquiet : op.quiet = true) (o : CURLoption)
    (last : Option Value) : setScript o last op = last := by
  cases op <;> first | rfl | cases hquiet

theorem setScript_of_not {o : CURLoption} {name : CStr} {v : Value} (last : Option Value)
    (h : ¬ (curlOptionsFromString name = .found o ∧ Effective o v)) :
    setScript o last (.easySetopt name v) = last := by
  simp only [setScript, if_neg h]

theorem setScript_of_effective {o : CURLoption} {name : CStr} {v : Value} (last : Option Value)
    (hname : curlOptionsFromString name = .found o) (heff : Effective o v) :
    setScript o last (.easySetopt name v) = some v := by
  simp only [setScript, if_pos (And.intro hname heff)]

/-- The script's value for `o`, if it gave one, is in force. -/
def ForceInv (o : CURLoption) (hist : List Op) (st : St) : Prop :=
  ∀ v, scriptValue o hist = some v → InForce st o v

/-- A call of `easy_setopt` on some option: the value of `o` changes only if
    that option is `o`, and then to the new value. -/
theorem easySetopt_forceInv {o : CURLoption} (ho : o ∉ managedOptions) {hist : List Op}
    {name : CStr} {v : Value} {st st' : St} (hapart : ListsApart st) (h : ForceInv o hist st)
    (hstep : (st.easySetopt name v).state = some st') :
    ForceInv o (hist ++ [.easySetopt name v]) st' := by
  intro w hw
  rw [scriptValue_snoc] at hw
  -- if another option was set, the history of `o` has not moved
  have hother : ∀ o', curlOptionsFromString name = .found o' → o ≠ o' →
      scriptValue o hist = some w := by
    intro o' hname hne
    rw [setScript_of_not] at hw
    · exact hw
    · rintro ⟨hfound, -⟩
      rw [hname] at hfound
      exact hne (LookupResult.found.inj hfound).symm
  rcases easySetopt_cases hstep with ⟨hname, rfl⟩ | ⟨hname, rfl⟩ | ⟨hname, rfl⟩ |
    ⟨o', a, hname, hspecial, ha, -, rfl⟩ | ⟨hnone, rfl⟩
  · by_cases heq : o = .HTTPHEADER
    · subst heq
      rw [setScript_of_effective _ hname (Or.inl (by decide))] at hw
      obtain rfl := Option.some.inj hw
      exact appendHeader_inForce st v
    · exact (h w (hother _ hname heq)).appendHeader hapart heq v.string
  · have hfields : o ≠ .POSTFIELDS := by
      rintro rfl
      exact ho (by decide)
    have hsize : o ≠ .POSTFIELDSIZE := by
      rintro rfl
      exact ho (by decide)
    exact (h w (hother _ hname hfields)).setPostfields hfields hsize v.string
  · by_cases heq : o = .MAIL_RCPT
    · subst heq
      rw [setScript_of_effective _ hname (Or.inl (by decide))] at hw
      obtain rfl := Option.some.inj hw
      exact appendRecipient_inForce st v
    · exact (h w (hother _ hname heq)).appendRecipient hapart heq v.string
  · by_cases heq : o = o'
    · subst heq
      rw [setScript_of_effective _ hname (Or.inr (by simp [ha]))] at hw
      obtain rfl := Option.some.inj hw
      exact setopt_inForce st hspecial ha
    · exact (h w (hother _ hname heq)).setopt heq a
  · -- nothing was set, so the value is still the old one
    refine h w ?_
    rw [setScript_of_not] at hw
    · exact hw
    · rintro ⟨hfound, heff⟩
      obtain ⟨hspecial, harg⟩ := hnone o hfound
      rcases heff with hlist | hsome
      · simp only [listOptions, List.mem_cons, List.not_mem_nil, or_false] at hlist
        rcases hlist with rfl | rfl <;> exact hspecial (by decide)
      · exact hsome harg

theorem step_forceInv {win : Win32} {o : CURLoption} (ho : o ∉ managedOptions) {hist : List Op}
    {op : Op} {st st' : St} (hapart : ListsApart st) (h : ForceInv o hist st)
    (hstep : step win st op = some st') : ForceInv o (hist ++ [op]) st' := by
  cases hquiet : op.quiet with
  | true =>
      intro v hv
      rw [scriptValue_snoc, setScript_of_quiet hquiet] at hv
      exact (step_quiet hquiet hstep).inForce ho (h v hv)
  | false =>
    cases op with
    | easySetopt name v => exact easySetopt_forceInv ho hapart h hstep
    | setSourceData v =>
        obtain rfl := Option.some.inj hstep
        intro w hw
        rw [scriptValue_snoc] at hw
        exact (h w hw).of_eq rfl (fun _ => ⟨rfl, rfl⟩) (fun _ => ⟨rfl, rfl⟩)
    | easyCleanup =>
        -- the history starts anew, so there is nothing to keep in force
        intro w hw
        rw [scriptValue_snoc] at hw
        cases hw
    | mimeInit =>
        obtain rfl := Option.some.inj hstep
        intro w hw
        rw [scriptValue_snoc] at hw
        exact (h w hw).of_eq rfl (fun _ => ⟨rfl, rfl⟩) (fun _ => ⟨rfl, rfl⟩)
    | _ => cases hquiet

theorem run_forceInv {win : Win32} {junk : Junk} {p : Proc} {ops : List Op} {st : St}
    (h : run win junk p ops = some st) {o : CURLoption} (ho : o ∉ managedOptions) :
    ForceInv o ops st := by
  have hboth : ListsApart st ∧ ForceInv o ops st := by
    refine runOps_induct (I := fun hist st => ListsApart st ∧ ForceInv o hist st)
      ⟨construct_listsApart junk p, ?_⟩ ?_ ops (fun _ _ => trivial) st h
    · intro v hv
      cases hv
    · rintro hist op s t - ⟨hapart, hinv⟩ hstep
      exact ⟨step_listsApart hapart hstep, step_forceInv ho hapart hinv hstep⟩
  exact hboth.2

theorem performPoint_kept {win : Win32} {env : PerformEnv} {st : St} {f : Frame}
    (h : st.performPoint win env = .ok f) : Kept st f.st := by
  have hmoves : (st.performPoint win env).Leaves ((Frame.enter st).Reaches performOptions) _ :=
    st.performPoint_moves env
  rw [h] at hmoves
  exact (enter_kept st).trans (Moves.kept hmoves.2)

/-- At every request the handle holds, for every option the object does not
    manage itself, the value the script last gave it. -/
theorem inForce_along (win : Win32) (junk : Junk) (p : Proc) (ops : List Op) :
    Along (step win) (construct junk p) ops
      (AtRequest win fun hist _ _ f =>
        ∀ o ∉ managedOptions, ∀ v, scriptValue o hist = some v → InForce f.st o v) := by
  rintro hist op rest - st hrun env f - hpoint o ho v hv
  exact (performPoint_kept hpoint).inForce ho (run_forceInv hrun ho v hv)

/-! ## The options of the verification -/

/-- The options that `easy_perform` resets although a script may want them. -/
def verificationOptions : List CURLoption := [.SSL_VERIFYPEER, .SSL_VERIFYHOST]

/-- The managed options without these. -/
def managedButVerification : List CURLoption :=
  managedOptions.filter fun o => o ∉ verificationOptions

theorem notMem_managedOptions {o : CURLoption} (ho : o ∉ managedButVerification)
    (hv : o ∉ verificationOptions) : o ∉ managedOptions := fun hmem =>
  ho (List.mem_filter.mpr ⟨hmem, decide_eq_true hv⟩)

/-- `easy_perform` switches the verification off in front of every request. -/
theorem performPoint_verification {win : Win32} {env : PerformEnv} {st : St} {f : Frame}
    (h : st.performPoint win env = .ok f) {o : CURLoption} (ho : o ∈ verificationOptions) :
    f.st.opts o = some (.long 0) := by
  obtain ⟨g, r, -, -, rfl⟩ := St.performPoint_ok h
  simp only [verificationOptions, List.mem_cons, List.not_mem_nil, or_false] at ho
  rcases ho with rfl | rfl <;> simp [Frame.commonSetup]

theorem inForce_verification {st : St} {o : CURLoption} (ho : o ∈ verificationOptions) (v : Value) :
    InForce st o v ↔ st.opts o = v.scriptArg := by
  simp only [verificationOptions, List.mem_cons, List.not_mem_nil, or_false] at ho
  rcases ho with rfl | rfl <;> rfl

/-- Every option a script may set is in force at every request of a run, exactly if at
    each of them the script has not asked for the verification: its last value for either
    of the two options is the number 0, or it gave none. -/
theorem inForce_along_iff (win : Win32) (junk : Junk) (p : Proc) (ops : List Op) :
    Along (step win) (construct junk p) ops
        (AtRequest win fun hist _ _ f =>
          ∀ o ∉ managedButVerification, ∀ v, scriptValue o hist = some v → InForce f.st o v) ↔
      Along (step win) (construct junk p) ops
        (AtRequest win fun hist _ _ _ =>
          ∀ o ∈ verificationOptions, ∀ v, scriptValue o hist = some v →
            v.scriptArg = some (.long 0)) := by
  refine along_atRequest_congr (fun _ _ => trivial : ∀ op ∈ ops, True) ?_
  intro hist st env f _ hrun hpoint
  constructor
  · intro hforce o ho v hv
    have hnot : o ∉ managedButVerification := fun hmem =>
      of_decide_eq_true (List.mem_filter.mp hmem).2 ho
    have hopts := (inForce_verification ho v).mp (hforce o hnot v hv)
    rw [← hopts, performPoint_verification hpoint ho]
  · intro hzero o ho v hv
    by_cases hmem : o ∈ verificationOptions
    · rw [inForce_verification hmem, hzero o hmem v hv, performPoint_verification hpoint hmem]
    · exact inForce_along win junk p (hist ++ [.easyPerform env]) hist _ [] rfl st hrun env f rfl hpoint o
        (notMem_managedOptions ho hmem) v hv

/-- A script asks for the verification of the peer's certificate. -/
def verifyPeer : Op := .easySetopt (CStr.lit "SSL_VERIFYPEER") (Value.ofInt 1)

/-- `easy_perform` switches the verification off again. -/
theorem verifyPeer_not_inForce :
    (∃ st f, run Win32.ascii Junk.zero dllMain [verifyPeer] = some st ∧
      st.performPoint Win32.ascii .answered = .ok f ∧
      f.st.opts .SSL_VERIFYPEER = some (.long 0)) ∧
    ¬ Along (step Win32.ascii) (construct Junk.zero dllMain) [verifyPeer, .easyPerform .answered]
      (AtRequest Win32.ascii fun hist _ _ f =>
        ∀ o ∉ managedButVerification, ∀ v, scriptValue o hist = some v → InForce f.st o v) := by
  have hname : curlOptionsFromString (CStr.lit "SSL_VERIFYPEER") = .found .SSL_VERIFYPEER :=
    curlOptionsFromString_of_getElem? (show lookuptable[271]? = _ from rfl)
  have hrun : run Win32.ascii Junk.zero dllMain [verifyPeer] =
      some ((construct Junk.zero dllMain).setopt .SSL_VERIFYPEER (.long 1)) := by
    rw [run, verifyPeer, runOps_cons, step_easySetopt_found _ hname]
    rfl
  have hreset : ∃ f, ((construct Junk.zero dllMain).setopt .SSL_VERIFYPEER (.long 1)).performPoint
      Win32.ascii .answered = .ok f ∧ f.st.opts .SSL_VERIFYPEER = some (.long 0) := ⟨_, rfl, rfl⟩
  obtain ⟨f, hpoint, hzero⟩ := hreset
  refine ⟨⟨_, f, hrun, hpoint, hzero⟩, ?_⟩
  intro hforce
  have hset : scriptValue .SSL_VERIFYPEER [verifyPeer] = some (Value.ofInt 1) := by
    simp only [scriptValue, verifyPeer, List.foldl_cons, List.foldl_nil]
    exact setScript_of_effective none hname (Or.inr (by decide))
  have hone : f.st.opts .SSL_VERIFYPEER = (Value.ofInt 1).scriptArg :=
    hforce [verifyPeer] _ [] rfl _ hrun .answered f rfl hpoint .SSL_VERIFYPEER (by decide) _ hset
  rw [hzero] at hone
  exact absurd hone (by decide)

end Curl1C
