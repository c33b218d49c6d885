/-
  Curl1C.Context.Indeterminate

  The members the constructor of `CcURL` leaves unassigned: `isPosting` and
  `m_StatusLine` (`idInited` is never read).

  What a script and libcurl see of an operation is an `Observation`: the calls
  issued, with their arguments, and what the operation answers.  `isPosting`
  is first assigned by `easy_setopt("MAIL_RCPT", ..)`, `m_StatusLine` by
  `StatusLine(0)` or `StatusLine(1)`; `easy_perform` reads the first when it
  sends the text of a variable and the second before every transfer.

  Main result: `indifferent_iff`.
-/

import Curl1C.Context.Body
import Curl1C.Lib.Observe

namespace Curl1C

open Lib

/-! ## What is seen of an operation -/

/-- What an operation answers. -/
inductive Reply where
  /-- TRUE or FALSE -/
  | done (ok : Bool)
  /-- the result of `easy_perform` and the value it returns -/
  | code (ok : Bool) (responseCode : Int)
  /-- the result of `GetHeaders` and the rows of its table -/
  | rows (ok : Bool) (rows : List CStr)
  /-- a runtime error unwinds -/
  | raised
  | crashed
deriving DecidableEq

/-- What can be seen of the object between two operations: the calls made so
    far, the properties `Source` and `Dest`, and the handle that methods such
    as `ToURL` pass to libcurl. -/
structure Visible where
  calls : List Call
  source : CCurlValue
  dest : CCurlValue
  handle : HandleId
deriving DecidableEq

/-- What can be seen of one operation.  For a request it includes what is there
    when libcurl is asked to transfer, so nothing is lost if the transfer takes
    the process down. -/
structure Observation where
  atTransfer : Option (Visible × Option WriteThis)
  after : Option Visible
  reply : Reply
deriving DecidableEq

def St.visible (st : St) : Visible :=
  { calls := st.proc.log, source := st.obj.pSrc, dest := st.obj.pDest, handle := st.obj.m_curl }

variable (win : Win32)

/-- The object where the preparation of a request ends, by reaching the
    transfer or by unwinding. -/
def St.atTransfer (env : PerformEnv) (st : St) : Option (Visible × Option WriteThis) :=
  match st.performPoint win env with
  | .ok f => some (f.st.visible, f.wt)
  | .unwound st => some (st.visible, none)
  | .crashed => none

/-- What the operation answers. -/
def St.reply (st : St) : Op → Reply
  | .easySetopt name v => match st.easySetopt name v with
      | .ok _ => .done true
      | .unwound _ => .raised
      | .crashed => .crashed
  | .setSourceType v | .setDestType v => .done (decide (0 ≤ v.long ∧ v.long ≤ 2))
  | .easyPerform env => match st.easyPerform win env with
      | .ok (_, ok, code) => .code ok code
      | .unwound _ => .raised
      | .crashed => .crashed
  | .getHeaders => .rows st.getHeaders.1 st.getHeaders.2
  | .setSourceData _ | .setDestData _ | .easyCleanup | .debug _ | .statusLine _ | .assignCache
  | .useCache _ _ _ _ | .mimeInit | .addPart _ _ _ _ => .done true

/-- What is seen of the operation `op` on the object. -/
def observe (st : St) (op : Op) : Observation :=
  { atTransfer := match op with
      | .easyPerform env => st.atTransfer win env
      | _ => none
    after := (step win st op).map St.visible
    reply := st.reply win op }

/-- Whatever the memory of the new object holds, the operations `ops` on it
    look the same. -/
def Indifferent (p : Proc) (ops : List Op) : Prop :=
  ∀ junk junk', observations (step win) (observe win) (construct junk p) ops =
    observations (step win) (observe win) (construct junk' p) ops

/-! ## Where the members are assigned and read -/

/-- The operation assigns `isPosting`. -/
def Op.startsMail : Op → Bool
  | .easySetopt name _ => decide (curlOptionsFromString name = .found .MAIL_RCPT)
  | _ => false

/-- The operation assigns `m_StatusLine`. -/
def Op.setsStatusLine : Op → Bool
  | .statusLine v => decide (v.long = 1 ∨ v.long = 0)
  | _ => false

/-- A request of the object sends the text of a variable. -/
def St.SendsVariable (st : St) : Prop :=
  st.obj.isMultipart = false ∧ st.obj.pSrc.Type_ = .ttVariable ∧ st.obj.pSrc.Data ≠ CStr.empty

/-- The operation reads no member that nothing has assigned: a request that
    sends the text of a variable comes after a recipient, and one that gets to
    the transfer after `StatusLine`. -/
def Determined (hist : List Op) (st : St) (op : Op) : Prop :=
  ∀ env, op = .easyPerform env →
    (st.SendsVariable → hist.any Op.startsMail = true) ∧
    ((∃ f, st.performPoint win env = .ok f) → hist.any Op.setsStatusLine = true)

variable {win}

/-- The contents `junk` in the members that are not assigned yet. -/
def St.poke (mailed statused : Bool) (junk : Junk) (st : St) : St :=
  { st with obj := { st.obj with
      isPosting := if mailed then st.obj.isPosting else junk.isPosting
      m_StatusLine := if statused then st.obj.m_StatusLine else junk.m_StatusLine } }

/-- The same by the history of the object. -/
def pokeAfter (hist : List Op) (junk : Junk) (st : St) : St :=
  st.poke (hist.any Op.startsMail) (hist.any Op.setsStatusLine) junk

/-! ## A request moves along with the contents -/

namespace Outcome

variable {α β : Type}

/-- Change what a method goes on with by `g`, and the object an error leaves
    behind by `h`. -/
def map (g : α → β) (h : St → St) : Outcome α → Outcome β
  | ok a => ok (g a)
  | unwound st => unwound (h st)
  | crashed => crashed

theorem map_bind {γ δ : Type} {x : Outcome α} {g : α → β} {h : St → St} {k : α → Outcome γ}
    {k' : β → Outcome δ} {g' : γ → δ} (hk : ∀ a, x = ok a → k' (g a) = (k a).map g' h) :
    (x.map g h).bind k' = (x.bind k).map g' h := by
  cases x with
  | ok a => exact hk a rfl
  | unwound st => rfl
  | crashed => rfl

theorem map_state (x : Outcome St) (h : St → St) : (x.map h h).state = x.state.map h := by
  cases x with
  | ok a => rfl
  | unwound st => rfl
  | crashed => rfl

end Outcome

section Phases

variable (mailed statused : Bool) (junk : Junk)

def Frame.poke (f : Frame) : Frame := { f with st := f.st.poke mailed statused junk }

namespace Frame

variable {mailed} in
/-- Text is sent as a form or as a mail, by `isPosting`. -/
theorem sendVariable_poke (f : Frame)
    (hmail : f.st.obj.pSrc.Data ≠ CStr.empty → mailed = true) :
    (f.poke mailed statused junk).sendVariable win =
      (f.sendVariable win).poke mailed statused junk := by
  have hdata : (f.poke mailed statused junk).st.obj.pSrc.Data = f.st.obj.pSrc.Data := rfl
  unfold sendVariable
  rw [hdata]
  by_cases hempty : f.st.obj.pSrc.Data.isEmpty = true
  · rw [if_pos hempty, if_pos hempty]
  · have hassigned : mailed = true := hmail (by simpa using hempty)
    subst hassigned
    rw [if_neg hempty, if_neg hempty]
    dsimp only
    have hsame : (f.poke true statused junk).st.obj.isPosting = f.st.obj.isPosting := rfl
    rw [hsame]
    by_cases hposting : f.st.obj.isPosting = false
    · rw [if_pos hposting, if_pos hposting]
      rfl
    · rw [if_neg hposting, if_neg hposting]
      rfl

theorem sendFile_poke (env : PerformEnv) (f : Frame) :
    (f.poke mailed statused junk).sendFile env =
      (f.sendFile env).map (poke mailed statused junk) (St.poke mailed statused junk) := by
  unfold sendFile
  dsimp only
  cases env.opensSource with
  | false => cases env.unwinds .openSource <;> rfl
  | true => cases !env.statsSource && env.unwinds .statSource <;> rfl

variable {mailed} in
theorem sendSetup_poke (env : PerformEnv) (f : Frame)
    (hmail : f.st.SendsVariable → mailed = true) :
    (f.poke mailed statused junk).sendSetup win env =
      (f.sendSetup win env).map (poke mailed statused junk) (St.poke mailed statused junk) := by
  have hmode : (f.poke mailed statused junk).st.obj.isMultipart = f.st.obj.isMultipart := rfl
  have hsource : (f.poke mailed statused junk).st.obj.pSrc = f.st.obj.pSrc := rfl
  unfold sendSetup
  rw [hmode, hsource]
  by_cases hmulti : f.st.obj.isMultipart = true
  · rw [if_pos hmulti, if_pos hmulti]
    rfl
  · rw [if_neg hmulti, if_neg hmulti]
    cases htype : f.st.obj.pSrc.Type_ with
    | ttVariable =>
        refine congrArg Outcome.ok (sendVariable_poke statused junk f fun hdata => ?_)
        exact hmail ⟨by simpa using hmulti, htype, hdata⟩
    | ttFile => exact sendFile_poke mailed statused junk env f
    | ttMsg => rfl

theorem recvSetup_poke (env : PerformEnv) (f : Frame) :
    (f.poke mailed statused junk).recvSetup env =
      (f.recvSetup env).map (poke mailed statused junk) (St.poke mailed statused junk) := by
  have hdest : (f.poke mailed statused junk).st.obj.pDest = f.st.obj.pDest := rfl
  unfold recvSetup
  rw [hdest]
  cases f.st.obj.pDest.Type_ with
  | ttVariable => rfl
  | ttMsg => rfl
  | ttFile =>
      cases env.createsDest with
      | true => rfl
      | false => cases env.unwinds .createDest <;> rfl

theorem statusSetup_poke (f : Frame) :
    (f.poke mailed true junk).statusSetup = f.statusSetup.poke mailed true junk := by
  have hsame : (f.poke mailed true junk).st.obj.m_StatusLine = f.st.obj.m_StatusLine := rfl
  unfold statusSetup
  rw [hsame]
  by_cases hstatus : f.st.obj.m_StatusLine = 1
  · rw [if_pos hstatus, if_pos hstatus]
    rfl
  · rw [if_neg hstatus, if_neg hstatus]
    rfl

theorem transfer_poke (env : PerformEnv) (f : Frame) :
    (f.poke mailed statused junk).transfer env =
      (f.transfer env).map (fun r => (r.1.poke mailed statused junk, r.2))
        (St.poke mailed statused junk) := by
  unfold transfer
  dsimp only
  -- only the options of the handle decide where the response goes
  by_cases hlocal : f.st.opts .WRITEFUNCTION = some (.fn .curlSwrite) ∧
      f.st.opts .WRITEDATA = some (.data f.call)
  · refine (if_pos hlocal).trans ?_
    refine Eq.trans ?_ (congrArg (Outcome.map _ _) (if_pos hlocal)).symm
    cases runOps swriteStep [] env.chunks <;> rfl
  · refine (if_neg hlocal).trans ?_
    refine Eq.trans ?_ (congrArg (Outcome.map _ _) (if_neg hlocal)).symm
    rfl

theorem finish_poke (env : PerformEnv) (f : Frame) (data : List Byte) :
    (f.poke mailed statused junk).finish win env data =
      (f.finish win env data).map (fun r => (r.1.poke mailed statused junk, r.2))
        (St.poke mailed statused junk) := by
  -- the frame is taken apart so that every branch computes
  obtain ⟨⟨proc, obj⟩, call, fd, fp, wt⟩ := f
  obtain ⟨m_curl, m_mime, m_trace, headers, recipients, pSrc, ⟨destType, destData⟩, postData,
    isPosting, isMultipart, m_StatusLine⟩ := obj
  unfold finish
  cases env.succeeds with
  | false => cases env.unwinds .transfer <;> cases fd <;> cases fp <;> rfl
  | true => cases destType <;> cases fd <;> cases fp <;> rfl

end Frame

namespace St

variable {mailed statused}

/-- A request whose reads are all determined prepares the same transfer. -/
theorem performPoint_poke (env : PerformEnv) (st : St) (hmail : st.SendsVariable → mailed = true)
    (hstatus : (∃ f, st.performPoint win env = .ok f) → statused = true) :
    (st.poke mailed statused junk).performPoint win env =
      (st.performPoint win env).map (Frame.poke mailed statused junk)
        (poke mailed statused junk) := by
  have henter : Frame.enter (st.poke mailed statused junk) =
      (Frame.enter st).poke mailed statused junk := rfl
  unfold performPoint
  rw [henter, Frame.sendSetup_poke statused junk env (Frame.enter st) hmail]
  refine Outcome.map_bind fun f hf => ?_
  rw [Frame.recvSetup_poke]
  refine Outcome.map_bind fun g hg => ?_
  -- past the two phases that can fail, the transfer is reached
  have hassigned : statused = true := hstatus ⟨g.statusSetup.commonSetup, by
    simp only [performPoint, hf, Outcome.bind, hg]⟩
  subst hassigned
  rw [Frame.statusSetup_poke]
  rfl

theorem easyPerform_poke (env : PerformEnv) (st : St) (hmail : st.SendsVariable → mailed = true)
    (hstatus : (∃ f, st.performPoint win env = .ok f) → statused = true) :
    (st.poke mailed statused junk).easyPerform win env =
      (st.easyPerform win env).map (fun r => (r.1.poke mailed statused junk, r.2))
        (poke mailed statused junk) := by
  unfold easyPerform
  rw [performPoint_poke junk env st hmail hstatus]
  refine Outcome.map_bind fun f _ => ?_
  rw [Frame.transfer_poke]
  refine Outcome.map_bind fun r _ => ?_
  dsimp only
  rw [Frame.finish_poke]
  exact Outcome.map_bind fun s _ => rfl

end St

end Phases

/-! ## Every operation -/

section Steps

variable (hist : List Op) (junk : Junk)

/-- An operation that assigns neither member leaves the contents where they
    are. -/
theorem pokeAfter_snoc {op : Op} (hmail : op.startsMail = false)
    (hstatus : op.setsStatusLine = false) :
    pokeAfter (hist ++ [op]) junk = pokeAfter hist junk := by
  funext st
  simp [pokeAfter, hmail, hstatus]

/-- A request whose reads are determined leads to the same object, up to the
    contents of the members. -/
theorem step_request_poke (env : PerformEnv) (st : St)
    (hdet : Determined win hist st (.easyPerform env)) :
    step win (pokeAfter hist junk st) (.easyPerform env) =
      (step win st (.easyPerform env)).map (pokeAfter (hist ++ [.easyPerform env]) junk) := by
  obtain ⟨hmail, hstatus⟩ := hdet env rfl
  rw [pokeAfter_snoc hist junk rfl rfl]
  simp only [step, pokeAfter, st.easyPerform_poke junk env hmail hstatus]
  cases st.easyPerform win env <;> rfl

/-- Such a request prepares the same transfer. -/
theorem atTransfer_poke (env : PerformEnv) (st : St)
    (hdet : Determined win hist st (.easyPerform env)) :
    (pokeAfter hist junk st).atTransfer win env = st.atTransfer win env := by
  obtain ⟨hmail, hstatus⟩ := hdet env rfl
  simp only [St.atTransfer, pokeAfter, st.performPoint_poke junk env hmail hstatus]
  cases st.performPoint win env <;> rfl

/-- Such a request gives the same answer. -/
theorem reply_request_poke (env : PerformEnv) (st : St)
    (hdet : Determined win hist st (.easyPerform env)) :
    (pokeAfter hist junk st).reply win (.easyPerform env) = st.reply win (.easyPerform env) := by
  obtain ⟨hmail, hstatus⟩ := hdet env rfl
  simp only [St.reply, pokeAfter, st.easyPerform_poke junk env hmail hstatus]
  cases st.easyPerform win env <;> rfl

/-- `easy_setopt` on any option but the recipients leaves the contents where
    they are. -/
theorem easySetoptOption_poke (mailed statused : Bool) {o : CURLoption} (ho : o ≠ .MAIL_RCPT)
    (v : Value) (st : St) :
    (st.poke mailed statused junk).easySetoptOption o v =
      (st.easySetoptOption o v).map (St.poke mailed statused junk)
        (St.poke mailed statused junk) := by
  unfold St.easySetoptOption
  rw [if_neg ho, if_neg ho]
  split
  · rfl
  · split
    · rfl
    · unfold St.setoptScript
      split
      · split <;> rfl
      · split
        · split <;> rfl
        · rfl

/-- `easy_setopt` assigns `isPosting` for a recipient, and nothing of it
    depends on the members. -/
theorem easySetopt_poke (name : CStr) (v : Value) (st : St) :
    (pokeAfter hist junk st).easySetopt name v =
      (st.easySetopt name v).map (pokeAfter (hist ++ [.easySetopt name v]) junk)
        (pokeAfter (hist ++ [.easySetopt name v]) junk) := by
  by_cases hrcpt : curlOptionsFromString name = .found .MAIL_RCPT
  · have hsetopt : ∀ st : St, st.easySetopt name v = .ok (st.appendRecipient v.string) := by
      intro st
      simp only [St.easySetopt, hrcpt]
      rfl
    rw [hsetopt, hsetopt]
    simp only [Outcome.map, pokeAfter, List.any_append, List.any_cons, List.any_nil, Op.startsMail,
      Op.setsStatusLine, hrcpt, decide_true, Bool.or_false, Bool.or_true]
    rfl
  · have hmail : (Op.easySetopt name v).startsMail = false := by simp [Op.startsMail, hrcpt]
    rw [pokeAfter_snoc hist junk hmail rfl]
    unfold St.easySetopt
    cases hname : curlOptionsFromString name with
    | found o =>
        have ho : o ≠ .MAIL_RCPT := by
          rintro rfl
          exact hrcpt hname
        exact easySetoptOption_poke junk _ _ ho v st
    | strcmpNull => rfl
    | unknown => rfl

/-- `StatusLine(0)` and `StatusLine(1)` assign `m_StatusLine`; any other
    argument changes nothing. -/
theorem statusLine_poke (v : Value) (st : St) :
    (pokeAfter hist junk st).statusLine v =
      pokeAfter (hist ++ [.statusLine v]) junk (st.statusLine v) := by
  unfold St.statusLine
  by_cases hone : v.long = 1
  · rw [if_pos hone, if_pos hone]
    simp [pokeAfter, St.poke, Op.startsMail, Op.setsStatusLine, hone]
  · by_cases hzero : v.long = 0
    · rw [if_neg hone, if_neg hone, if_pos hzero, if_pos hzero]
      simp [pokeAfter, St.poke, Op.startsMail, Op.setsStatusLine, hzero]
    · rw [if_neg hone, if_neg hone, if_neg hzero, if_neg hzero]
      rw [pokeAfter_snoc hist junk rfl (by simp [Op.setsStatusLine, hone, hzero])]

theorem debug_poke (mailed statused : Bool) (v : Value) (st : St) :
    (st.poke mailed statused junk).debug v = (st.debug v).poke mailed statused junk := by
  unfold St.debug
  split
  · rfl
  · split <;> rfl

/-- An operation whose reads are determined leads to the same object, up to the
    contents of the members. -/
theorem step_poke (st : St) (op : Op) (hdet : Determined win hist st op) :
    step win (pokeAfter hist junk st) op =
      (step win st op).map (pokeAfter (hist ++ [op]) junk) := by
  cases op with
  | easyPerform env => exact step_request_poke hist junk env st hdet
  | easySetopt name v =>
      show ((pokeAfter hist junk st).easySetopt name v).state = _
      rw [easySetopt_poke, Outcome.map_state]
      rfl
  | statusLine v => exact congrArg some (statusLine_poke hist junk v st)
  | debug v =>
      rw [pokeAfter_snoc hist junk rfl rfl]
      exact congrArg some (debug_poke junk _ _ v st)
  | setSourceType v | setSourceData v | setDestType v | setDestData v | easyCleanup | assignCache
  | useCache dns connect ssl cookie | mimeInit | addPart name filename type data | getHeaders =>
      rw [pokeAfter_snoc hist junk rfl rfl]
      rfl

/-- An operation whose reads are determined looks the same. -/
theorem observe_poke (st : St) (op : Op) (hdet : Determined win hist st op) :
    observe win (pokeAfter hist junk st) op = observe win st op := by
  have hafter : (step win (pokeAfter hist junk st) op).map St.visible =
      (step win st op).map St.visible := by
    rw [step_poke hist junk st op hdet, Option.map_map]
    rfl
  cases op with
  | easyPerform env =>
      simp only [observe, hafter, atTransfer_poke hist junk env st hdet,
        reply_request_poke hist junk env st hdet]
  | easySetopt name v =>
      have hreply : (pokeAfter hist junk st).reply win (.easySetopt name v) =
          st.reply win (.easySetopt name v) := by
        simp only [St.reply, easySetopt_poke]
        cases st.easySetopt name v <;> rfl
      simp only [observe, hafter, hreply]
  | setSourceType v | setSourceData v | setDestType v | setDestData v | easyCleanup | assignCache
  | useCache dns connect ssl cookie | mimeInit | addPart name filename type data | getHeaders
  | statusLine v | debug v =>
      simp only [observe, hafter]
      rfl

end Steps

/-! ## Reads that show -/

/-- A request only adds calls. -/
theorem log_respects (os : List CURLoption) : Respects os fun s t => s.proc.log <+: t.proc.log where
  refl _ := List.prefix_rfl
  trans hst htu := hst.trans htu
  setopt _ _ := List.prefix_append _ _
  other h := by
    cases h with
    | setopt o v ho hv => cases ho
    | request n c hc => exact List.prefix_append _ _
    | _ => exact List.prefix_rfl

theorem Moves.log_isPrefix {os : List CURLoption} {call : CallId} {st st' : St}
    (h : Moves os call st st') : st.proc.log <+: st'.proc.log :=
  (log_respects os).moves h

/-- The option through which the text of a variable is sent. -/
def sendOption (isPosting : Bool) : CURLoption := if isPosting then .READFUNCTION else .POSTFIELDS

variable (win) in
theorem sendVariable_call (f : Frame) (hdata : f.st.obj.pSrc.Data ≠ CStr.empty) :
    ∃ v, f.st.proc.log ++ [.easySetopt f.st.obj.m_curl (sendOption f.st.obj.isPosting) v] <+:
      (f.sendVariable win).st.proc.log := by
  have hempty : ¬ f.st.obj.pSrc.Data.isEmpty = true := by simpa using hdata
  unfold Frame.sendVariable
  rw [if_neg hempty]
  dsimp only
  cases hposting : f.st.obj.isPosting with
  | false => exact ⟨_, List.prefix_append _ _⟩
  | true => exact ⟨_, (List.prefix_append _ _).trans (List.prefix_append _ _)⟩

theorem recvSetup_ne_crashed (env : PerformEnv) (f : Frame) : f.recvSetup env ≠ .crashed := by
  unfold Frame.recvSetup
  split
  · simp
  · dsimp only
    split
    · simp
    · split <;> simp
  · simp

variable (win) in
/-- The calls of a request that sends the text of a variable show `isPosting`. -/
theorem atTransfer_of_sendsVariable (env : PerformEnv) {st : St} (hsend : st.SendsVariable) :
    ∃ shown wt v, st.atTransfer win env = some (shown, wt) ∧
      st.proc.log ++ [.easySetopt st.obj.m_curl (sendOption st.obj.isPosting) v] <+:
        shown.calls := by
  obtain ⟨hmulti, htype, hdata⟩ := hsend
  obtain ⟨v, hcall⟩ := sendVariable_call win (Frame.enter st) hdata
  have hsetup : (Frame.enter st).sendSetup win env = .ok ((Frame.enter st).sendVariable win) := by
    have hmulti' : (Frame.enter st).st.obj.isMultipart = false := hmulti
    have htype' : (Frame.enter st).st.obj.pSrc.Type_ = .ttVariable := htype
    simp [Frame.sendSetup, hmulti', htype']
  generalize (Frame.enter st).sendVariable win = f at hcall hsetup
  have hrecv := f.recvSetup_moves env
  unfold St.atTransfer St.performPoint
  rw [hsetup]
  simp only [Outcome.bind]
  cases hg : f.recvSetup env with
  | ok g =>
      rw [hg] at hrecv
      have hlog := (hrecv.trans (g.statusSetup_moves.trans g.statusSetup.commonSetup_moves)).2
      exact ⟨_, _, v, rfl, hcall.trans hlog.log_isPrefix⟩
  | unwound st' =>
      rw [hg] at hrecv
      exact ⟨_, _, v, rfl, hcall.trans (Moves.log_isPrefix hrecv)⟩
  | crashed => exact absurd hg (recvSetup_ne_crashed env f)

/-- Two lists of calls that part after `log` are different. -/
theorem ne_of_calls_part {log calls calls' : List Call} {c c' : Call} (hne : c ≠ c')
    (h : log ++ [c] <+: calls) (h' : log ++ [c'] <+: calls') : calls ≠ calls' := by
  rintro rfl
  have hlast := List.prefix_of_prefix_length_le h h' (by simp)
  have heq := hlast.eq_of_length (by simp)
  exact hne (by simpa using heq)

/-- Two contents for which a request calls libcurl with different options at
    the same point show. -/
theorem observe_ne_of_option {hist : List Op} {st : St} {env : PerformEnv} (log : List Call)
    (h : HandleId) (option : Junk → CURLoption)
    (hshown : ∀ junk, ∃ shown wt v, (pokeAfter hist junk st).atTransfer win env =
      some (shown, wt) ∧ log ++ [.easySetopt h (option junk) v] <+: shown.calls)
    {junk junk' : Junk} (hne : option junk ≠ option junk') :
    observe win (pokeAfter hist junk st) (.easyPerform env) ≠
      observe win (pokeAfter hist junk' st) (.easyPerform env) := by
  intro hsame
  obtain ⟨shown, wt, v, heq, hcalls⟩ := hshown junk
  obtain ⟨shown', wt', v', heq', hcalls'⟩ := hshown junk'
  have htransfer := congrArg Observation.atTransfer hsame
  simp only [observe, heq, heq', Option.some.injEq, Prod.mk.injEq] at htransfer
  refine ne_of_calls_part ?_ hcalls hcalls' (congrArg Visible.calls htransfer.1)
  simp [hne]

/-- A request that sends the text of a variable before any recipient shows what
    `isPosting` held. -/
theorem shows_isPosting {hist : List Op} {st : St} {env : PerformEnv} (hsend : st.SendsVariable)
    (hmail : ¬ hist.any Op.startsMail = true) :
    ∃ junk junk', observe win (pokeAfter hist junk st) (.easyPerform env) ≠
      observe win (pokeAfter hist junk' st) (.easyPerform env) := by
  have hnone : hist.any Op.startsMail = false := by simpa using hmail
  have hread : ∀ junk, (pokeAfter hist junk st).obj.isPosting = junk.isPosting := by
    intro junk
    simp [pokeAfter, St.poke, hnone]
  refine ⟨{ Junk.zero with isPosting := false }, { Junk.zero with isPosting := true },
    observe_ne_of_option st.proc.log st.obj.m_curl (fun junk => sendOption junk.isPosting)
      (fun junk => ?_) (by simp [sendOption])⟩
  have hsend' : (pokeAfter hist junk st).SendsVariable := hsend
  have hcalls := atTransfer_of_sendsVariable win env hsend'
  rwa [hread] at hcalls

/-- The option with which the status line is switched on, or off. -/
def statusOption (m_StatusLine : Int) : CURLoption :=
  if m_StatusLine = 1 then .XFERINFODATA else .NOPROGRESS

theorem statusSetup_call (f : Frame) :
    ∃ v, f.st.proc.log ++
      [.easySetopt f.st.obj.m_curl (statusOption f.st.obj.m_StatusLine) v] <+:
        f.statusSetup.commonSetup.st.proc.log := by
  have hcommon := f.statusSetup.commonSetup_moves.2.log_isPrefix
  unfold statusOption
  by_cases hstatus : f.st.obj.m_StatusLine = 1
  · have hsetup : f.statusSetup = ((f.setopt .XFERINFODATA (.prog f.call)).setopt .XFERINFOFUNCTION
        (.fn .progressFunction)).setopt .NOPROGRESS (.long 0) := if_pos hstatus
    rw [if_pos hstatus]
    rw [hsetup] at hcommon ⊢
    exact ⟨_, ((List.prefix_append _ _).trans (List.prefix_append _ _)).trans hcommon⟩
  · have hsetup : f.statusSetup = f.setopt .NOPROGRESS (.long 1) := if_neg hstatus
    rw [if_neg hstatus]
    rw [hsetup] at hcommon ⊢
    exact ⟨_, hcommon⟩

/-- A request that gets to the transfer before any `StatusLine` shows what
    `m_StatusLine` held. -/
theorem shows_statusLine {hist : List Op} {st : St} {env : PerformEnv} {f : Frame}
    (hmail : st.SendsVariable → hist.any Op.startsMail = true)
    (hpoint : st.performPoint win env = .ok f) (hstatus : ¬ hist.any Op.setsStatusLine = true) :
    ∃ junk junk', observe win (pokeAfter hist junk st) (.easyPerform env) ≠
      observe win (pokeAfter hist junk' st) (.easyPerform env) := by
  have hnone : hist.any Op.setsStatusLine = false := by simpa using hstatus
  obtain ⟨g, r, hsend, hrecv, -⟩ := St.performPoint_ok hpoint
  refine ⟨{ Junk.zero with m_StatusLine := 0 }, { Junk.zero with m_StatusLine := 1 },
    observe_ne_of_option r.st.proc.log r.st.obj.m_curl
      (fun junk => statusOption junk.m_StatusLine) (fun junk => ?_) (by simp [statusOption])⟩
  -- the phases before the status line do not see it
  let r' := r.poke (hist.any Op.startsMail) (hist.any Op.setsStatusLine) junk
  have hpoint' : (pokeAfter hist junk st).performPoint win env =
      .ok r'.statusSetup.commonSetup := by
    have hsend' : (Frame.enter (pokeAfter hist junk st)).sendSetup win env =
        ((Frame.enter st).sendSetup win env).map _ _ :=
      Frame.sendSetup_poke _ junk env (Frame.enter st) hmail
    have hrecv' := Frame.recvSetup_poke (hist.any Op.startsMail) (hist.any Op.setsStatusLine) junk
      env g
    rw [hrecv] at hrecv'
    simp only [St.performPoint, hsend', hsend, Outcome.map, Outcome.bind, hrecv', r']
  have hread : r'.st.obj.m_StatusLine = junk.m_StatusLine := by
    simp [r', Frame.poke, St.poke, hnone]
  obtain ⟨v, hcall⟩ := statusSetup_call r'
  rw [hread] at hcall
  refine ⟨r'.statusSetup.commonSetup.st.visible, r'.statusSetup.commonSetup.wt, v, ?_, hcall⟩
  simp only [St.atTransfer, hpoint']

/-! ## The result -/

variable (win)

/-- What the constructor leaves unassigned does not show exactly when every
    request that sends the text of a variable comes after a recipient, and
    every request that gets to the transfer after `StatusLine`. -/
theorem indifferent_iff (p : Proc) (ops : List Op) :
    Indifferent win p ops ↔
      Along (step win) (construct Junk.zero p) ops (Determined win) := by
  have hkeep : ∀ hist st op, Determined win hist st op → ∀ junk,
      observe win (pokeAfter hist junk st) op = observe win st op ∧
      step win (pokeAfter hist junk st) op =
        (step win st op).map (pokeAfter (hist ++ [op]) junk) := by
    intro hist st op hdet junk
    exact ⟨observe_poke hist junk st op hdet, step_poke hist junk st op hdet⟩
  have hshow : ∀ hist st op, ¬ Determined win hist st op → ∃ junk junk',
      observe win (pokeAfter hist junk st) op ≠ observe win (pokeAfter hist junk' st) op := by
    intro hist st op hnot
    simp only [Determined, not_forall] at hnot
    obtain ⟨env, rfl, hnot⟩ := hnot
    by_cases hmail : st.SendsVariable → hist.any Op.startsMail = true
    · obtain ⟨⟨f, hpoint⟩, hstatus⟩ := Classical.not_imp.mp (not_and.mp hnot hmail)
      exact shows_statusLine hmail hpoint hstatus
    · obtain ⟨hsend, hnone⟩ := Classical.not_imp.mp hmail
      exact shows_isPosting hsend hnone
  exact observations_determined_iff hkeep hshow ops (construct Junk.zero p)

/-- The object that posts `A` as soon as it is constructed, with what its memory
    held in `isPosting`. -/
def postsOver (isPosting : Bool) : Option St :=
  run Win32.ascii { Junk.zero with isPosting := isPosting } dllMain postOnce

/-- Over memory that holds TRUE in `isPosting` the text goes out as a mail
    through `read_callback`, over any other as the body of a form. -/
theorem posting_depends_on_memory :
    ((postsOver true).bind fun st => st.opts .READFUNCTION) = some (.fn .readCallback) ∧
    ((postsOver true).bind fun st => st.opts .POSTFIELDS) = none ∧
    ((postsOver false).bind fun st => st.opts .READFUNCTION) = none ∧
    ((postsOver false).bind fun st => st.opts .POSTFIELDS) = some (.str (CStr.lit "A")) ∧
    ¬ Indifferent Win32.ascii dllMain postOnce := by
  refine ⟨by decide, by decide, by decide, by decide, ?_⟩
  intro hsame
  have hcalls := hsame Junk.zero { Junk.zero with isPosting := true }
  revert hcalls
  decide

end Curl1C
