/-
  Curl1C.Context.Callbacks

  Which callback libcurl calls with which data.

  `easy_perform` gives libcurl pointers to its own locals (`wt`, `data`) and to
  streams it closes before it returns, while the handle keeps them.  A request
  that does not set a pair again finds what an earlier request left.  `ReadPair`
  and `WritePair` are the pairs that are safe to use; `ReadReady` and
  `WriteReady` say, of the state before the request, when it will use such
  pairs.

  Main result: `callbackPairs_along_iff`.
-/

import Curl1C.Context.Run

namespace Curl1C

open Lib

/-- The read callback and its data are libcurl's own, or `read_callback` with
    the `WriteThis` of this activation, or libcurl's `fread` with the stream
    this activation opened. -/
def ReadPair (f : Frame) : Prop :=
  (f.st.opts .READFUNCTION = none ∧ f.st.opts .READDATA = none) ∨
  (f.st.opts .READFUNCTION = some (.fn .readCallback) ∧ f.st.opts .READDATA = some (.wt f.call)) ∨
  (f.st.opts .READFUNCTION = none ∧ ∃ fd, f.fd = some fd ∧ f.st.opts .READDATA = some (.file fd))

/-- The write callback and its data are libcurl's own, or `curl_swrite` with
    the string of this activation, or `curl_fwrite` with the stream this
    activation opened. -/
def WritePair (f : Frame) : Prop :=
  (f.st.opts .WRITEFUNCTION = none ∧ f.st.opts .WRITEDATA = none) ∨
  (f.st.opts .WRITEFUNCTION = some (.fn .curlSwrite) ∧ f.st.opts .WRITEDATA = some (.data f.call)) ∨
  (f.st.opts .WRITEFUNCTION = some (.fn .curlFwrite) ∧
    ∃ fp, f.fp = some fp ∧ f.st.opts .WRITEDATA = some (.file fp))

/-- The next request mails a text, or reads a file through a handle without a
    read callback, or finds libcurl's default pair. -/
def ReadReady (st : St) : Prop :=
  (st.obj.isMultipart = false ∧ st.obj.pSrc.Type_ = .ttVariable ∧
    st.obj.pSrc.Data ≠ CStr.empty ∧ st.obj.isPosting = true) ∨
  (st.obj.isMultipart = false ∧ st.obj.pSrc.Type_ = .ttFile ∧ st.opts .READFUNCTION = none) ∨
  (¬ (st.obj.isMultipart = false ∧ st.obj.pSrc.Type_ = .ttFile) ∧
    st.opts .READFUNCTION = none ∧ st.opts .READDATA = none)

/-- The next request receives into a variable or into a file that can be
    created, or is multipart, or finds libcurl's default pair. -/
def WriteReady (st : St) (env : PerformEnv) : Prop :=
  match st.obj.pDest.Type_ with
  | .ttVariable => True
  | .ttFile => env.createsDest = true
  | .ttMsg =>
      st.obj.isMultipart = true ∨ (st.opts .WRITEFUNCTION = none ∧ st.opts .WRITEDATA = none)

/-! ## Pointers to locals are pointers into the past -/

/-- Whatever local a handle points to belongs to an activation that has
    started. -/
def CallsPast (st : St) : Prop :=
  ∀ o c, st.opts o = some (.wt c) ∨ st.opts o = some (.data c) → c < st.proc.nCall

theorem CallsPast.of_opts {st st' : St} (h : CallsPast st) (hopts : ∀ o, st'.opts o = st.opts o)
    (hn : st'.proc.nCall = st.proc.nCall) : CallsPast st' := by
  intro o c hc
  rw [hopts] at hc
  rw [hn]
  exact h o c hc

theorem CallsPast.setopt {st : St} (h : CallsPast st) {o : CURLoption} {v : OptVal}
    (hv : ∀ c, v = .wt c ∨ v = .data c → c < st.proc.nCall) : CallsPast (st.setopt o v) := by
  intro o' c hc
  rw [St.setopt_opts] at hc
  by_cases ho : o' = o
  · rw [if_pos ho, Option.some.injEq, Option.some.injEq] at hc
    exact hv c hc
  · rw [if_neg ho] at hc
    exact h o' c hc

/-- A value that is no pointer to a local. -/
theorem CallsPast.setopt_plain {st : St} (h : CallsPast st) (o : CURLoption) {v : OptVal}
    (hwt : ∀ c, v ≠ .wt c) (hdata : ∀ c, v ≠ .data c) : CallsPast (st.setopt o v) := by
  refine h.setopt ?_
  intro c hc
  exact hc.elim (fun heq => absurd heq (hwt c)) (fun heq => absurd heq (hdata c))

/-- The cache is assigned to a handle of an object. -/
theorem CallsPast.assignCurlCache {st : St} (h : CallsPast st) {p : Proc}
    (heasy : p.easy = st.proc.easy) (hn : p.nCall = st.proc.nCall) :
    CallsPast { st with proc := p.assignCurlCache st.obj.m_curl } := by
  intro o c hc
  show c < (p.assignCurlCache st.obj.m_curl).nCall
  rw [Proc.assignCurlCache_nCall, hn]
  change ((p.assignCurlCache st.obj.m_curl).easy st.obj.m_curl).opts o = _ ∨
    ((p.assignCurlCache st.obj.m_curl).easy st.obj.m_curl).opts o = _ at hc
  -- only `CURLOPT_SHARE` is new, and it holds a share
  by_cases ho : o = .SHARE
  · rw [ho, Proc.assignCurlCache_opts_share] at hc
    rcases hc with hc | hc <;> cases hc
  · rw [Proc.assignCurlCache_opts _ _ ho, heasy] at hc
    exact h o c hc

/-- A handle fresh from `curl_easy_init` points to nothing. -/
theorem callsPast_easyInit (p : Proc) (obj : CcURL) (hobj : obj.m_curl = p.nEasy) :
    CallsPast { proc := p.curlEasyInit, obj := obj } := by
  intro o c hc
  rw [St.easyInit_opts p obj hobj] at hc
  rcases hc with hc | hc <;> cases hc

theorem callsPast_construct (junk : Junk) (p : Proc) : CallsPast (construct junk p) := by
  unfold construct
  dsimp only
  refine CallsPast.setopt_plain ?_ _ (by simp) (by simp)
  refine CallsPast.setopt_plain ?_ _ (by simp) (by simp)
  refine CallsPast.setopt_plain ?_ _ (by simp) (by simp)
  refine CallsPast.setopt_plain ?_ _ (by simp) (by simp)
  refine CallsPast.setopt_plain ?_ _ (by simp) (by simp)
  refine CallsPast.setopt_plain ?_ _ (by simp) (by simp)
  -- the handle before the options: new, with the cache assigned
  refine CallsPast.of_opts ((callsPast_easyInit p _ rfl).assignCurlCache rfl rfl)
    (fun _ => rfl) rfl

theorem callsPast_easyCleanup (st : St) : CallsPast st.easyCleanup := by
  unfold St.easyCleanup
  dsimp only
  refine CallsPast.setopt_plain ?_ _ (by simp) (by simp)
  refine CallsPast.setopt_plain ?_ _ (by simp) (by simp)
  refine CallsPast.setopt_plain ?_ _ (by simp) (by simp)
  refine CallsPast.setopt_plain ?_ _ (by simp) (by simp)
  refine CallsPast.setopt_plain ?_ _ (by simp) (by simp)
  exact callsPast_easyInit _ _ rfl

theorem CallsPast.easySetopt {st st' : St} (h : CallsPast st) {name : CStr} {v : Value}
    (hstep : (st.easySetopt name v).state = some st') : CallsPast st' := by
  rcases easySetopt_cases hstep with ⟨-, rfl⟩ | ⟨-, rfl⟩ | ⟨-, rfl⟩ | ⟨o, a, -, -, ha, -, rfl⟩ |
    ⟨-, rfl⟩
  · refine CallsPast.setopt_plain ?_ _ (by simp) (by simp)
    exact h.of_opts (fun _ => rfl) rfl
  · refine CallsPast.setopt_plain (CallsPast.setopt_plain ?_ _ (by simp) (by simp)) _
      (by simp) (by simp)
    exact h.of_opts (fun _ => rfl) rfl
  · have hset : CallsPast ((St.mk (st.proc.curlSlistAppend st.obj.recipients v.string)
        { st.obj with recipients := some (st.proc.slistHead st.obj.recipients) }).setopt
          .MAIL_RCPT (.slist (st.proc.slistHead st.obj.recipients))) := by
      refine CallsPast.setopt_plain ?_ _ (by simp) (by simp)
      exact h.of_opts (fun _ => rfl) rfl
    exact hset.of_opts (fun _ => rfl) rfl
  · -- a script value is a number or a text
    unfold Value.scriptArg at ha
    split at ha
    · obtain rfl := Option.some.inj ha
      exact h.setopt_plain _ (by simp) (by simp)
    split at ha
    · obtain rfl := Option.some.inj ha
      exact h.setopt_plain _ (by simp) (by simp)
    · cases ha
  · exact h

theorem CallsPast.debug {st : St} (h : CallsPast st) (v : Value) : CallsPast (st.debug v) := by
  unfold St.debug
  split
  · refine CallsPast.setopt_plain (CallsPast.setopt_plain ?_ _ (by simp) (by simp)) _
      (by simp) (by simp)
    exact h.of_opts (fun _ => rfl) rfl
  split
  · refine CallsPast.setopt_plain (CallsPast.setopt_plain ?_ _ (by simp) (by simp)) _
      (by simp) (by simp)
    exact h.of_opts (fun _ => rfl) rfl
  · exact h

/-- The activation `call` points to its own locals, and it has started. -/
theorem Moves.callsPast {os : List CURLoption} {call : CallId} {st st' : St} (hmoves : Moves os call st st')
    (hn : st.proc.nCall = call + 1) (h : CallsPast st) :
    CallsPast st' ∧ st'.proc.nCall = call + 1 := by
  induction hmoves with
  | refl => exact ⟨h, hn⟩
  | tail _ hmove ih =>
      obtain ⟨hpast, hcall⟩ := ih
      cases hmove with
      | setopt o v ho hv =>
          refine ⟨hpast.setopt ?_, hcall⟩
          intro c hc
          rw [hcall, hv c hc]
          exact Nat.lt_succ_self call
      | _ => exact ⟨hpast.of_opts (fun _ => rfl) rfl, hcall⟩

theorem enter_callsPast {st : St} (h : CallsPast st) : CallsPast (Frame.enter st).st := by
  intro o c hc
  exact Nat.lt_succ_of_lt (h o c hc)

theorem step_callsPast {win : Win32} {op : Op} {st st' : St} (h : CallsPast st)
    (hstep : step win st op = some st') : CallsPast st' := by
  cases op with
  | easySetopt name v => exact h.easySetopt hstep
  | easyPerform env =>
      exact ((step_easyPerform_moves hstep).callsPast rfl (enter_callsPast h)).1
  | easyCleanup =>
      obtain rfl := Option.some.inj hstep
      exact callsPast_easyCleanup st
  | debug v =>
      obtain rfl := Option.some.inj hstep
      exact h.debug v
  | statusLine v =>
      obtain rfl := Option.some.inj hstep
      unfold St.statusLine
      split
      · exact h.of_opts (fun _ => rfl) rfl
      split
      · exact h.of_opts (fun _ => rfl) rfl
      · exact h
  | assignCache =>
      obtain rfl := Option.some.inj hstep
      exact h.assignCurlCache rfl rfl
  | useCache dns connect ssl cookie =>
      obtain rfl := Option.some.inj hstep
      exact h.assignCurlCache rfl rfl
  | _ =>
      obtain rfl := Option.some.inj hstep
      exact h.of_opts (fun _ => rfl) rfl

theorem run_callsPast {win : Win32} {junk : Junk} {p : Proc} {ops : List Op} {st : St}
    (h : run win junk p ops = some st) : CallsPast st := by
  refine runOps_invariant (callsPast_construct junk p) ?_ h
  intro _ _ _ hpast hstep
  exact step_callsPast hpast hstep

/-! ## One request -/

section Request

variable {win : Win32} {env : PerformEnv} {st : St} {f g : Frame}

theorem performPoint_call (h : st.performPoint win env = .ok f) : f.call = st.proc.nCall := by
  have hmoves : (st.performPoint win env).Leaves ((Frame.enter st).Reaches performOptions) _ :=
    st.performPoint_moves env
  rw [h] at hmoves
  exact hmoves.1

/-- A request that leaves the read options alone uses a safe pair only if
    libcurl's own is still there: an older `wt` is never the current one. -/
theorem readPair_iff_of_unset (hpast : CallsPast st) (hcall : f.call = st.proc.nCall)
    (hfd : f.fd = none) (hfn : f.st.opts .READFUNCTION = st.opts .READFUNCTION)
    (hdata : f.st.opts .READDATA = st.opts .READDATA) :
    ReadPair f ↔ st.opts .READFUNCTION = none ∧ st.opts .READDATA = none := by
  unfold ReadPair
  rw [hfn, hdata, hcall, hfd]
  constructor
  · rintro (h | ⟨-, hwt⟩ | ⟨-, fd, hnone, -⟩)
    · exact h
    · exact absurd (hpast _ _ (Or.inl hwt)) (Nat.lt_irrefl _)
    · cases hnone
  · intro h
    exact Or.inl h

/-- The stream of the activation is read safely only by libcurl's own function. -/
theorem readPair_iff_of_stream {fd : FileId} (hfd : f.fd = some fd)
    (hdata : f.st.opts .READDATA = some (.file fd)) :
    ReadPair f ↔ f.st.opts .READFUNCTION = none := by
  unfold ReadPair
  rw [hdata, hfd]
  constructor
  · rintro (⟨-, hnone⟩ | ⟨-, hwt⟩ | ⟨hnone, -⟩)
    · cases hnone
    · cases hwt
    · exact hnone
  · intro hnone
    exact Or.inr (Or.inr ⟨hnone, fd, rfl, rfl⟩)

theorem readReady_iff_of_file (hsingle : st.obj.isMultipart = false)
    (htype : st.obj.pSrc.Type_ = .ttFile) : ReadReady st ↔ st.opts .READFUNCTION = none := by
  simp [ReadReady, hsingle, htype]

/-- Without a text to mail, a variable is no reason to set the read options. -/
theorem readReady_iff_of_variable (htype : st.obj.pSrc.Type_ = .ttVariable)
    (hnot : ¬ (st.obj.pSrc.Data ≠ CStr.empty ∧ st.obj.isPosting = true)) :
    ReadReady st ↔ st.opts .READFUNCTION = none ∧ st.opts .READDATA = none := by
  unfold ReadReady
  constructor
  · rintro (⟨-, -, hmail⟩ | ⟨-, hfile, -⟩ | ⟨-, hnone⟩)
    · exact absurd hmail hnot
    · exact absurd (htype.symm.trans hfile) (by decide)
    · exact hnone
  · intro hnone
    exact Or.inr (Or.inr ⟨by simp [htype], hnone⟩)

/-- A request that leaves the write options alone uses a safe pair only if
    libcurl's own is still there. -/
theorem writePair_iff_of_unset (hpast : CallsPast st) (hcall : f.call = st.proc.nCall)
    (hfp : f.fp = none) (hfn : f.st.opts .WRITEFUNCTION = st.opts .WRITEFUNCTION)
    (hdata : f.st.opts .WRITEDATA = st.opts .WRITEDATA) :
    WritePair f ↔ st.opts .WRITEFUNCTION = none ∧ st.opts .WRITEDATA = none := by
  unfold WritePair
  rw [hfn, hdata, hcall, hfp]
  constructor
  · rintro (h | ⟨-, hstr⟩ | ⟨-, fp, hnone, -⟩)
    · exact h
    · exact absurd (hpast _ _ (Or.inr hstr)) (Nat.lt_irrefl _)
    · cases hnone
  · intro h
    exact Or.inl h

/-- What sending from a variable leaves in the read options. -/
theorem sendVariable_read (win : Win32) (f : Frame) :
    (f.st.obj.pSrc.Data ≠ CStr.empty ∧ f.st.obj.isPosting = true ∧
      (f.sendVariable win).st.opts .READFUNCTION = some (.fn .readCallback) ∧
      (f.sendVariable win).st.opts .READDATA = some (.wt f.call)) ∨
    (¬ (f.st.obj.pSrc.Data ≠ CStr.empty ∧ f.st.obj.isPosting = true) ∧
      (f.sendVariable win).st.opts .READFUNCTION = f.st.opts .READFUNCTION ∧
      (f.sendVariable win).st.opts .READDATA = f.st.opts .READDATA) := by
  unfold Frame.sendVariable
  by_cases hempty : f.st.obj.pSrc.Data = CStr.empty
  · rw [if_pos ((CStr.isEmpty_iff _).mpr hempty)]
    exact Or.inr ⟨fun hand => hand.1 hempty, rfl, rfl⟩
  · rw [if_neg (mt (CStr.isEmpty_iff _).mp hempty)]
    dsimp only
    cases hmail : f.st.obj.isPosting with
    | false =>
        refine Or.inr ⟨by simp, ?_, ?_⟩
        · simp
          rfl
        · simp
          rfl
    | true => exact Or.inl ⟨hempty, rfl, by simp, by simp⟩

theorem sendVariable_fd (f : Frame) : (f.sendVariable win).fd = f.fd := by
  unfold Frame.sendVariable
  split
  · rfl
  dsimp only
  split <;> rfl

/-- The read pair of a request is safe exactly when the state before it is
    ready for that. -/
theorem readPair_iff (hpast : CallsPast st) (h : st.performPoint win env = .ok f) :
    ReadPair f ↔ ReadReady st := by
  have hcall := performPoint_call h
  obtain ⟨g, hg, hfd, hopts⟩ := St.performPoint_send h
  have hfn := hopts .READFUNCTION (by decide)
  have hdata := hopts .READDATA (by decide)
  rcases Frame.sendSetup_ok hg with ⟨hmulti, rfl⟩ | ⟨hsingle, htype, rfl⟩ | ⟨hsingle, htype, rfl⟩ |
    ⟨hsingle, htype, rfl⟩
  · -- a multipart request leaves the read options alone
    rw [readPair_iff_of_unset hpast hcall hfd
      (hfn.trans (by simp [Frame.sendMultipart]; rfl))
      (hdata.trans (by simp [Frame.sendMultipart]; rfl))]
    have hmulti' : st.obj.isMultipart = true := hmulti
    simp [ReadReady, hmulti']
  · -- a mail with a text sets both read options, any other variable neither
    have htype' : st.obj.pSrc.Type_ = .ttVariable := htype
    have hsingle' : st.obj.isMultipart = false := hsingle
    rcases sendVariable_read win (Frame.enter st) with
      ⟨hne, hmail, hfn', hdata'⟩ | ⟨hnot, hfn', hdata'⟩
    · have hready : ReadReady st := Or.inl ⟨hsingle', htype', hne, hmail⟩
      refine iff_of_true (Or.inr (Or.inl ⟨hfn.trans hfn', ?_⟩)) hready
      rw [hdata, hdata', hcall]
      rfl
    · rw [readPair_iff_of_unset hpast hcall (hfd.trans (sendVariable_fd _)) (hfn.trans hfn')
        (hdata.trans hdata'), readReady_iff_of_variable htype' hnot]
  · -- the stream is this activation's own, so only the function matters
    have hfile : f.st.opts .READDATA = some (.file st.proc.nFile) := by
      rw [hdata]
      simp [Frame.sendStream]
      rfl
    have hsame : f.st.opts .READFUNCTION = st.opts .READFUNCTION := by
      rw [hfn]
      simp [Frame.sendStream]
      rfl
    rw [readPair_iff_of_stream hfd hfile, hsame]
    exact (readReady_iff_of_file hsingle htype).symm
  · -- no branch of the source sends for `ttMsg`
    have htype' : st.obj.pSrc.Type_ = .ttMsg := htype
    rw [readPair_iff_of_unset hpast hcall hfd hfn hdata]
    simp [ReadReady, htype']

/-- What sending leaves in the write options and in the destination. -/
theorem sendSetup_write (h : f.sendSetup win env = .ok g) :
    g.call = f.call ∧ g.fp = f.fp ∧ g.st.obj.pDest = f.st.obj.pDest ∧
    ((f.st.obj.isMultipart = true ∧ g.st.opts .WRITEFUNCTION = some (.fn .curlSwrite) ∧
        g.st.opts .WRITEDATA = some (.data f.call)) ∨
      (f.st.obj.isMultipart = false ∧ g.st.opts .WRITEFUNCTION = f.st.opts .WRITEFUNCTION ∧
        g.st.opts .WRITEDATA = f.st.opts .WRITEDATA)) := by
  rcases Frame.sendSetup_ok h with ⟨hmulti, rfl⟩ | ⟨hsingle, -, rfl⟩ | ⟨hsingle, -, rfl⟩ |
    ⟨hsingle, -, rfl⟩
  · refine ⟨rfl, rfl, rfl, Or.inl ⟨hmulti, ?_, ?_⟩⟩
    · simp [Frame.sendMultipart]
    · simp [Frame.sendMultipart]
  · unfold Frame.sendVariable
    split
    · exact ⟨rfl, rfl, rfl, Or.inr ⟨hsingle, rfl, rfl⟩⟩
    dsimp only
    split
    · refine ⟨rfl, rfl, rfl, Or.inr ⟨hsingle, ?_, ?_⟩⟩ <;> simp <;> rfl
    · refine ⟨rfl, rfl, rfl, Or.inr ⟨hsingle, ?_, ?_⟩⟩ <;> simp <;> rfl
  · refine ⟨rfl, rfl, rfl, Or.inr ⟨hsingle, ?_, ?_⟩⟩ <;> simp [Frame.sendStream] <;> rfl
  · exact ⟨rfl, rfl, rfl, Or.inr ⟨hsingle, rfl, rfl⟩⟩

/-- The write pair of a request is safe exactly when the state before it is
    ready for that. -/
theorem writePair_iff (hpast : CallsPast st) (h : st.performPoint win env = .ok f) :
    WritePair f ↔ WriteReady st env := by
  have hcall := performPoint_call h
  obtain ⟨g, r, hg, hr, rfl⟩ := St.performPoint_ok h
  obtain ⟨hgcall, hgfp, hgdest, hgwrite⟩ := sendSetup_write hg
  have hgcall' : g.call = st.proc.nCall := hgcall
  have hgdest' : g.st.obj.pDest = st.obj.pDest := hgdest
  have hfn := Frame.commonSetup_opts r (o := .WRITEFUNCTION) (by decide)
  have hdata := Frame.commonSetup_opts r (o := .WRITEDATA) (by decide)
  have hfp := Frame.commonSetup_fp r
  unfold WriteReady
  rw [← hgdest']
  rcases Frame.recvSetup_ok hr with ⟨htype, rfl⟩ | ⟨htype, hcreate, rfl⟩ | ⟨htype, hfail, rfl⟩ |
    ⟨htype, rfl⟩
  · rw [htype]
    refine iff_of_true (Or.inr (Or.inl ⟨hfn.trans (by simp), ?_⟩)) trivial
    rw [hdata, hcall, ← hgcall']
    simp
  · rw [htype]
    refine iff_of_true (Or.inr (Or.inr ⟨hfn.trans (by simp), g.st.proc.nFile, hfp, ?_⟩)) hcreate
    rw [hdata]
    simp
  · -- libcurl was given a NULL stream
    rw [htype]
    refine iff_of_false ?_ (by simp [hfail])
    rintro (⟨-, hnone⟩ | ⟨-, hstr⟩ | ⟨-, fp, -, hfile⟩)
    · rw [hdata] at hnone
      simp at hnone
    · rw [hdata] at hstr
      simp at hstr
    · rw [hdata] at hfile
      simp at hfile
  · -- nothing is set for receiving: what sending left, or what the handle held
    rw [htype]
    rcases hgwrite with ⟨hmulti, hgfn, hgdata⟩ | ⟨hsingle, hgfn, hgdata⟩
    · have hmulti' : st.obj.isMultipart = true := hmulti
      refine iff_of_true (Or.inr (Or.inl ⟨hfn.trans hgfn, ?_⟩)) (Or.inl hmulti')
      rw [hdata, hgdata, hcall]
      rfl
    · have hsingle' : st.obj.isMultipart = false := hsingle
      rw [writePair_iff_of_unset hpast hcall (hfp.trans hgfp) (hfn.trans hgfn)
        (hdata.trans hgdata)]
      simp [hsingle']

end Request

/-! ## Every run -/

/-- A run never pairs a callback with foreign or outdated data, exactly when
    each of its requests starts from a state that is ready for it. -/
theorem callbackPairs_along_iff (win : Win32) (junk : Junk) (p : Proc) (ops : List Op) :
    Along (step win) (construct junk p) ops
        (AtRequest win fun _ _ _ f => ReadPair f ∧ WritePair f) ↔
      Along (step win) (construct junk p) ops
        (AtRequest win fun _ st env _ => ReadReady st ∧ WriteReady st env) := by
  have hall : ∀ op ∈ ops, (fun _ : Op => True) op := fun _ _ => trivial
  refine along_atRequest_congr hall ?_
  intro hist st env f _ hrun hpoint
  have hpast := run_callsPast hrun
  rw [readPair_iff hpast hpoint, writePair_iff hpast hpoint]

/-- The options of the two pairs. -/
def callbackOptions : List CURLoption := [.READFUNCTION, .READDATA, .WRITEFUNCTION, .WRITEDATA]

/-- The operation sets none of them. -/
def LeavesCallbacks : Op → Prop
  | .easySetopt name _ => ∀ o ∈ callbackOptions, curlOptionsFromString name ≠ .found o
  | _ => True

/-- A script that mails a text and then sends a file. -/
def mailThenFile : List Op :=
  [.easySetopt (CStr.lit "MAIL_RCPT") (Value.ofString (CStr.lit "a@b")),
    .setSourceData (Value.ofString (CStr.lit "A")), .easyPerform .answered,
    .setSourceType (Value.ofInt 1), .setSourceData (Value.ofString (CStr.lit "f"))]

/-- The second request gives the `FILE` of its source to the `read_callback`
    that the first one left in the handle. -/
theorem file_read_by_readCallback :
    (∀ op ∈ mailThenFile ++ [.easyPerform .answered], LeavesCallbacks op) ∧
    (∃ st f, run Win32.ascii Junk.zero dllMain mailThenFile = some st ∧
      st.performPoint Win32.ascii .answered = .ok f ∧
      f.st.opts .READFUNCTION = some (.fn .readCallback) ∧
      f.st.opts .READDATA = some (.file 0)) ∧
    ¬ Along (step Win32.ascii) (construct Junk.zero dllMain)
        (mailThenFile ++ [.easyPerform .answered])
        (AtRequest Win32.ascii fun _ _ _ f => ReadPair f ∧ WritePair f) := by
  have hname : curlOptionsFromString (CStr.lit "MAIL_RCPT") = .found .MAIL_RCPT :=
    curlOptionsFromString_of_getElem? (show lookuptable[127]? = _ from rfl)
  have hrun : ∃ st f, run Win32.ascii Junk.zero dllMain mailThenFile = some st ∧
      st.performPoint Win32.ascii .answered = .ok f ∧
      f.st.opts .READFUNCTION = some (.fn .readCallback) ∧
      f.st.opts .READDATA = some (.file 0) := by
    have hfirst : run Win32.ascii Junk.zero dllMain mailThenFile =
        runOps (step Win32.ascii)
          ((construct Junk.zero dllMain).appendRecipient (CStr.lit "a@b")) mailThenFile.tail := by
      rw [run, mailThenFile, runOps_cons, step_easySetopt_found _ hname]
      rfl
    exact ⟨_, _, hfirst.trans rfl, rfl, rfl, rfl⟩
  refine ⟨?_, hrun, ?_⟩
  · simp [mailThenFile, LeavesCallbacks, hname, callbackOptions]
  intro hpairs
  obtain ⟨st, f, hst, hpoint, hfn, hdata⟩ := hrun
  obtain ⟨hread, -⟩ := hpairs mailThenFile _ [] rfl st hst .answered f rfl hpoint
  rcases hread with ⟨hnone, -⟩ | ⟨-, hwt⟩ | ⟨hnone, -⟩
  · rw [hfn] at hnone
    cases hnone
  · rw [hdata] at hwt
    cases hwt
  · rw [hfn] at hnone
    cases hnone

end Curl1C
