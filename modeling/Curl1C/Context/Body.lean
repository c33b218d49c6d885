/-
  Curl1C.Context.Body

  Which body a request carries.

  The text to send lives in three places: `Source.Data`, the member
  `PostFildsData`, and the options `POSTFIELDS`/`POSTFIELDSIZE` of the handle.
  `BodyHistory` is what the script did; `FreshBody` says that the request
  carries the last value supplied and nothing older; `Supplied` is the
  condition on the state before the request under which it does.

  Main result: `freshBody_along_iff`.
-/

import Curl1C.Context.Run

namespace Curl1C

open Lib

/-- The body the handle would post: `POSTFIELDSIZE` bytes of `POSTFIELDS`, all
    of them when no size is set. -/
def St.body (st : St) : List Byte :=
  match st.opts .POSTFIELDS, st.opts .POSTFIELDSIZE with
  | some (.str s), some (.long n) => if n < 0 then s.bytes else s.bytes.take n.toNat
  | some (.str s), none => s.bytes
  | _, _ => []

/-- The values a script supplied so far. -/
structure BodyHistory where
  /-- the last value written to `Source.Data` -/
  lastData : CStr
  /-- the last value written to `Source.Data` or passed as `POSTFIELDS` -/
  lastValue : CStr

/-- How one operation extends the history. -/
def BodyHistory.after (h : BodyHistory) : Op → BodyHistory
  | .setSourceData v => { lastData := v.string, lastValue := v.string }
  | .easySetopt name v =>
      if curlOptionsFromString name = .found .POSTFIELDS then { h with lastValue := v.string } else h
  | _ => h

/-- The history of the operations on an object, which starts with empty data. -/
def bodyHistory (ops : List Op) : BodyHistory :=
  ops.foldl BodyHistory.after { lastData := CStr.empty, lastValue := CStr.empty }

/-- Options other than `POSTFIELDS` that supply, resize or replace a body. -/
def otherBodyOptions : List CURLoption :=
  [.COPYPOSTFIELDS, .POSTFIELDSIZE, .POSTFIELDSIZE_LARGE, .HTTPPOST, .MIMEPOST, .MAIL_RCPT]

/-- The operation neither switches multipart or mail posting on nor supplies a
    body by other means than `Source.Data` and `POSTFIELDS`. -/
def PlainBodyOp : Op → Prop
  | .easySetopt name _ => ∀ o ∈ otherBodyOptions, curlOptionsFromString name ≠ .found o
  | .mimeInit => False
  | _ => True

/-- The calls the activation `f` has made since it was entered in `st`. -/
def callsSince (st : St) (f : Frame) : List Call := f.st.proc.log.drop st.proc.log.length

variable (win : Win32)

/-- The request entered in `st` and about to be sent from `f` carries the last
    value supplied: as UTF-8 text from a variable, as the name of the opened
    file from a file, and nothing else otherwise.  The body is the text that
    `POSTFIELDS` holds: `UPLOAD` and a `READDATA` that an earlier request from a file
    left in the handle are not looked at here, but in `callbackPairs_along_iff`. -/
def FreshBody (h : BodyHistory) (st : St) (f : Frame) : Prop :=
  match st.obj.pSrc.Type_ with
  | .ttVariable =>
      f.st.body = if h.lastValue = CStr.empty then [] else (ansiToUtf8 win h.lastValue).bytes
  | .ttFile => ∃ fd, f.fd = some fd ∧ Call.fopen h.lastData (some fd) ∈ callsSince st f
  | .ttMsg =>
      f.st.body = [] ∨ f.st.body = h.lastValue.bytes ∨
        f.st.body = (ansiToUtf8 win h.lastValue).bytes

/-- The state before the request does not make it carry an older body: an empty
    variable meets a handle without a body, a file name was not overwritten by
    another `POSTFIELDS` text, and a source of neither kind meets a handle
    whose body is the last value. -/
def Supplied (h : BodyHistory) (st : St) : Prop :=
  match st.obj.pSrc.Type_ with
  | .ttVariable => h.lastValue = CStr.empty → st.body = []
  | .ttFile => h.lastValue = h.lastData
  | .ttMsg =>
      st.body = [] ∨ st.body = h.lastValue.bytes ∨ st.body = (ansiToUtf8 win h.lastValue).bytes

/-! ## One request -/

section Request

variable {win} {env : PerformEnv} {st : St} {f : Frame}

theorem body_congr {s t : St} (hfields : s.opts .POSTFIELDS = t.opts .POSTFIELDS)
    (hsize : s.opts .POSTFIELDSIZE = t.opts .POSTFIELDSIZE) : s.body = t.body := by
  unfold St.body
  rw [hfields, hsize]

/-- Setting both options replaces the body. -/
theorem body_setopt (s : CStr) (st : St) :
    ((st.setopt .POSTFIELDS (.str s)).setopt .POSTFIELDSIZE (.long s.length)).body = s.bytes := by
  simp [St.body]

/-- Only a variable that is not empty replaces the body the handle holds. -/
theorem sendSetup_body {f g : Frame} (hsingle : f.st.obj.isMultipart = false)
    (hmail : f.st.obj.isPosting = false) (h : f.sendSetup win env = .ok g) :
    g.st.body = if f.st.obj.pSrc.Type_ = .ttVariable ∧ f.st.obj.pSrc.Data ≠ CStr.empty
      then (ansiToUtf8 win f.st.obj.pSrc.Data).bytes else f.st.body := by
  rcases Frame.sendSetup_ok h with ⟨hmulti, -⟩ | ⟨-, htype, rfl⟩ | ⟨-, htype, rfl⟩ | ⟨-, htype, rfl⟩
  · rw [hmulti] at hsingle
    cases hsingle
  · unfold Frame.sendVariable
    by_cases hempty : f.st.obj.pSrc.Data = CStr.empty
    · rw [if_pos ((CStr.isEmpty_iff _).mpr hempty), if_neg (fun hand => hand.2 hempty)]
    · rw [if_neg (mt (CStr.isEmpty_iff _).mp hempty)]
      dsimp only
      rw [if_pos hmail, if_pos ⟨htype, hempty⟩]
      exact body_setopt _ _
  · rw [if_neg (by simp [htype])]
    apply body_congr <;> simp [Frame.sendStream] <;> rfl
  · rw [if_neg (by simp [htype])]

theorem performPoint_body (hsingle : st.obj.isMultipart = false)
    (hmail : st.obj.isPosting = false) (h : st.performPoint win env = .ok f) :
    f.st.body = if st.obj.pSrc.Type_ = .ttVariable ∧ st.obj.pSrc.Data ≠ CStr.empty
      then (ansiToUtf8 win st.obj.pSrc.Data).bytes else st.body := by
  obtain ⟨g, hg, -, hopts⟩ := St.performPoint_send h
  rw [body_congr (hopts _ (by decide)) (hopts _ (by decide))]
  exact sendSetup_body hsingle hmail hg

/-- No call after the options for sending opens the stream `k` again. -/
theorem receive_fopen {g r : Frame} (h : g.recvSetup env = .ok r) {k : FileId}
    (hk : k < g.st.proc.nFile) :
    ∃ calls, r.statusSetup.commonSetup.st.proc.log = g.st.proc.log ++ calls ∧
      ∀ name, Call.fopen name (some k) ∉ calls := by
  have hcommon : ∃ calls, r.statusSetup.commonSetup.st.proc.log = r.st.proc.log ++ calls ∧
      ∀ name, Call.fopen name (some k) ∉ calls := by
    unfold Frame.commonSetup Frame.statusSetup
    split
    · exact ⟨_, by simp [St.setopt, Proc.curlEasySetopt]; rfl, by simp⟩
    · exact ⟨_, by simp [St.setopt, Proc.curlEasySetopt]; rfl, by simp⟩
  have hrecv : ∃ calls, r.st.proc.log = g.st.proc.log ++ calls ∧
      ∀ name, Call.fopen name (some k) ∉ calls := by
    have hne : k ≠ g.st.proc.nFile := Nat.ne_of_lt hk
    rcases Frame.recvSetup_ok h with ⟨-, rfl⟩ | ⟨-, -, rfl⟩ | ⟨-, -, rfl⟩ | ⟨-, rfl⟩
    · exact ⟨_, by simp [St.setopt, Proc.curlEasySetopt]; rfl, by simp⟩
    · refine ⟨_, by simp [St.setopt, Proc.curlEasySetopt, Frame.openDest, Proc.fopen]; rfl, ?_⟩
      simp [hne]
    · refine ⟨_, by simp [St.setopt, Proc.curlEasySetopt, Proc.fopen]; rfl, by simp⟩
    · exact ⟨[], by simp, by simp⟩
  obtain ⟨c, hc, hnotc⟩ := hcommon
  obtain ⟨d, hd, hnotd⟩ := hrecv
  refine ⟨d ++ c, by rw [hc, hd, List.append_assoc], ?_⟩
  intro name hmem
  exact (List.mem_append.mp hmem).elim (hnotd name) (hnotc name)

/-- A request from a file reads the stream it opened under the name that
    `pSrc->Data` holds, and under no other. -/
theorem performPoint_source (hsingle : st.obj.isMultipart = false)
    (hfile : st.obj.pSrc.Type_ = .ttFile) (h : st.performPoint win env = .ok f) :
    f.fd = some st.proc.nFile ∧
      ∀ name, Call.fopen name (some st.proc.nFile) ∈ callsSince st f ↔ name = st.obj.pSrc.Data := by
  obtain ⟨g, r, hg, hr, rfl⟩ := St.performPoint_ok h
  have hsource : g = (Frame.enter st).openSource.sendStream env st.proc.nFile := by
    rcases Frame.sendSetup_ok hg with ⟨hmulti, -⟩ | ⟨-, htype, -⟩ | ⟨-, -, hg⟩ | ⟨-, htype, -⟩
    · exact absurd (hsingle.symm.trans hmulti) (by decide)
    · exact absurd (hfile.symm.trans htype) (by decide)
    · exact hg
    · exact absurd (hfile.symm.trans htype) (by decide)
  have hn : st.proc.nFile < g.st.proc.nFile := by
    rw [hsource]
    exact Nat.lt_succ_self _
  obtain ⟨calls, hlog, hnot⟩ := receive_fopen hr hn
  refine ⟨?_, ?_⟩
  · rw [Frame.commonSetup_fd, Frame.recvSetup_fd hr, hsource]
    rfl
  · intro name
    have hsend : ∃ sets, g.st.proc.log = st.proc.log ++
        (Call.fopen st.obj.pSrc.Data (some st.proc.nFile) :: sets) ∧
        ∀ name, Call.fopen name (some st.proc.nFile) ∉ sets := by
      rw [hsource]
      refine ⟨_, by simp [Frame.sendStream, Frame.openSource, Frame.enter, St.setopt,
        Proc.curlEasySetopt, Proc.fopen, Proc.fstat]; rfl, by simp⟩
    obtain ⟨sets, hsets, hnotsets⟩ := hsend
    unfold callsSince
    rw [hlog, hsets, List.append_assoc, List.drop_left]
    simp [hnot name, hnotsets name]

/-- The request carries the last value exactly when the state before it lets it
    do so. -/
theorem freshBody_iff {hist : BodyHistory} (hsingle : st.obj.isMultipart = false)
    (hmail : st.obj.isPosting = false) (hdata : st.obj.pSrc.Data = hist.lastValue)
    (h : st.performPoint win env = .ok f) :
    FreshBody win hist st f ↔ Supplied win hist st := by
  have hbody := performPoint_body hsingle hmail h
  rw [hdata] at hbody
  unfold FreshBody Supplied
  cases htype : st.obj.pSrc.Type_ with
  | ttVariable =>
      by_cases hempty : hist.lastValue = CStr.empty
      · rw [if_neg (fun hand => hand.2 hempty)] at hbody
        simp [hbody, hempty]
      · rw [if_pos ⟨htype, hempty⟩] at hbody
        simp [hbody, hempty]
  | ttFile =>
      obtain ⟨hfd, hopened⟩ := performPoint_source hsingle htype h
      rw [← hdata]
      constructor
      · rintro ⟨fd, hfd', hmem⟩
        obtain rfl : st.proc.nFile = fd := Option.some.inj (hfd.symm.trans hfd')
        exact ((hopened _).mp hmem).symm
      · intro heq
        exact ⟨_, hfd, (hopened _).mpr heq.symm⟩
  | ttMsg =>
      rw [if_neg (by simp [htype])] at hbody
      rw [hbody]

end Request

/-! ## Every run -/

theorem bodyHistory_snoc (hist : List Op) (op : Op) :
    bodyHistory (hist ++ [op]) = (bodyHistory hist).after op := by
  simp [bodyHistory]

/-- What the state of the object has to do with the history. -/
structure BodyInv (hist : List Op) (st : St) : Prop where
  single : st.obj.isMultipart = false
  mail : st.obj.isPosting = false
  data : st.obj.pSrc.Data = (bodyHistory hist).lastValue

theorem BodyInv.of_eq {hist : List Op} {op : Op} {st st' : St} (hinv : BodyInv hist st)
    (hafter : (bodyHistory hist).after op = bodyHistory hist)
    (hsingle : st'.obj.isMultipart = st.obj.isMultipart)
    (hmail : st'.obj.isPosting = st.obj.isPosting)
    (hdata : st'.obj.pSrc.Data = st.obj.pSrc.Data) : BodyInv (hist ++ [op]) st' := by
  refine ⟨hsingle.trans hinv.single, hmail.trans hinv.mail, ?_⟩
  rw [bodyHistory_snoc, hafter, hdata, hinv.data]

theorem after_of_quiet {op : Op} (hquiet : op.quiet = true) (h : BodyHistory) :
    h.after op = h := by
  cases op <;> first | rfl | cases hquiet

theorem after_easySetopt {name : CStr} {v : Value} (h : BodyHistory)
    (hname : curlOptionsFromString name ≠ .found .POSTFIELDS) :
    h.after (.easySetopt name v) = h := by
  simp [BodyHistory.after, hname]

/-- Neither mode changes, and the text of the source changes with the last
    value of the history only. -/
theorem step_bodyInv {hist : List Op} {op : Op} {st st' : St} (hop : PlainBodyOp op)
    (hinv : BodyInv hist st) (hstep : step win st op = some st') : BodyInv (hist ++ [op]) st' := by
  cases hquiet : op.quiet with
  | true =>
      have hkept := step_quiet hquiet hstep
      exact hinv.of_eq (after_of_quiet hquiet _) hkept.isMultipart hkept.isPosting hkept.data
  | false =>
    cases op with
    | easySetopt name v =>
        rcases easySetopt_cases hstep with ⟨hname, rfl⟩ | ⟨hname, rfl⟩ | ⟨hname, rfl⟩ |
          ⟨o, a, hname, ho, -, -, rfl⟩ | ⟨hnone, rfl⟩
        · exact hinv.of_eq (after_easySetopt _ (by simp [hname])) rfl rfl rfl
        · refine ⟨hinv.single, hinv.mail, ?_⟩
          rw [bodyHistory_snoc]
          simp [BodyHistory.after, hname, St.setPostfields]
        · exact absurd hname (hop _ (by decide))
        · refine hinv.of_eq (after_easySetopt _ ?_) rfl rfl rfl
          rw [hname]
          rintro ⟨⟩
          exact ho (by decide)
        · refine hinv.of_eq (after_easySetopt _ ?_) rfl rfl rfl
          exact fun hname => (hnone _ hname).1 (by decide)
    | setSourceData v =>
        obtain rfl := Option.some.inj hstep
        refine ⟨hinv.single, hinv.mail, ?_⟩
        rw [bodyHistory_snoc]
        rfl
    | easyCleanup =>
        obtain rfl := Option.some.inj hstep
        exact hinv.of_eq rfl rfl rfl rfl
    | mimeInit => exact hop.elim
    | _ => cases hquiet

/-- A run posts plain bodies: neither mode is ever on, and the source holds the
    last value. -/
theorem run_bodyInv {junk : Junk} (hjunk : junk.isPosting = false) (p : Proc) :
    ∀ ops, (∀ op ∈ ops, PlainBodyOp op) → ∀ st, run win junk p ops = some st → BodyInv ops st :=
  runOps_induct ⟨rfl, hjunk, rfl⟩ (fun _ _ _ _ hop hinv hstep => step_bodyInv win hop hinv hstep)

/-- A run sends fresh bodies only, exactly when each of its requests starts from
    a state that supplies one. -/
theorem freshBody_along_iff (junk : Junk) (p : Proc) (ops : List Op)
    (hjunk : junk.isPosting = false) (hops : ∀ op ∈ ops, PlainBodyOp op) :
    Along (step win) (construct junk p) ops
        (AtRequest win fun hist st _ f => FreshBody win (bodyHistory hist) st f) ↔
      Along (step win) (construct junk p) ops
        (AtRequest win fun hist st _ _ => Supplied win (bodyHistory hist) st) := by
  refine along_atRequest_congr hops ?_
  intro hist st env f hhist hrun hpoint
  obtain ⟨hsingle, hmail, hdata⟩ := run_bodyInv win hjunk p hist hhist st hrun
  exact freshBody_iff hsingle hmail hdata hpoint

/-- A script that posts the text `A`. -/
def postOnce : List Op :=
  [.setSourceData (Value.ofString (CStr.lit "A")), .easyPerform .answered]

theorem freshBody_along_postOnce :
    Junk.zero.isPosting = false ∧ (∀ op ∈ postOnce, PlainBodyOp op) ∧
      Along (step Win32.ascii) (construct Junk.zero dllMain) postOnce
        (AtRequest Win32.ascii fun hist st _ f =>
          FreshBody Win32.ascii (bodyHistory hist) st f) := by
  have hops : ∀ op ∈ postOnce, PlainBodyOp op := by simp [postOnce, PlainBodyOp]
  refine ⟨rfl, hops, (freshBody_along_iff Win32.ascii Junk.zero dllMain postOnce rfl hops).mpr ?_⟩
  simp only [postOnce, along_cons]
  refine ⟨?_, ?_⟩
  · rintro env f ⟨⟩
  · rintro t ⟨⟩
    refine ⟨?_, fun _ _ => along_nil⟩
    -- the variable is not empty, so nothing is asked of the handle
    intro env f _ _ hempty
    exact absurd hempty (by decide)

/-- A script that posts `A`, empties the source and sends a second request. -/
def postThenEmpty : List Op :=
  postOnce ++ [.setSourceData (Value.ofString CStr.empty)]

/-- The second request has nothing to send but carries the body of the first:
    the branch for empty data leaves `POSTFIELDS` in the handle. -/
theorem stale_body_after_empty_source :
    (∀ op ∈ postThenEmpty ++ [.easyPerform .answered], PlainBodyOp op) ∧
    (∃ st f, run Win32.ascii Junk.zero dllMain postThenEmpty = some st ∧
      st.obj.pSrc = { Type_ := .ttVariable, Data := CStr.empty } ∧
      st.performPoint Win32.ascii .answered = .ok f ∧ f.st.body = [0x41]) ∧
    ¬ Along (step Win32.ascii) (construct Junk.zero dllMain)
        (postThenEmpty ++ [.easyPerform .answered])
        (AtRequest Win32.ascii fun hist st _ f =>
          FreshBody Win32.ascii (bodyHistory hist) st f) := by
  have hrun : ∃ st f, run Win32.ascii Junk.zero dllMain postThenEmpty = some st ∧
      st.obj.pSrc = { Type_ := .ttVariable, Data := CStr.empty } ∧
      st.performPoint Win32.ascii .answered = .ok f ∧ f.st.body = [0x41] :=
    ⟨_, _, rfl, rfl, rfl, by decide⟩
  refine ⟨by simp [postThenEmpty, postOnce, PlainBodyOp], hrun, ?_⟩
  intro hfresh
  obtain ⟨st, f, hst, hsrc, hpoint, hbody⟩ := hrun
  have hnow := hfresh postThenEmpty _ [] rfl st hst .answered f rfl hpoint
  simp only [FreshBody, hsrc, hbody] at hnow
  revert hnow
  decide

end Curl1C
