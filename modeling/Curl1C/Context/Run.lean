/-
  Curl1C.Context.Run

  Histories of one `CcURL` object: the operations a script can perform on it,
  one step, and runs from the constructor.  A run has no state when an
  operation took the process down.

  The second half is what later modules use instead of unfolding the methods:
  how `setopt` moves the options of the handle, and the inversion lemmas of
  `easy_perform` (`sendSetup_ok`, `recvSetup_ok`) that say once what each phase
  can do.  The phases are sequences of single effects (`Moves`), so a relation that
  each effect respects holds across any of them (`Respects.moves`).
-/

import Mathlib.Logic.Relation
import Curl1C.Context.Perform

namespace Curl1C

open Lib

/-- The script's operations on a `CcURL` object. -/
inductive Op where
  | easySetopt (name : CStr) (v : Value)
  | setSourceType (v : Value)
  | setSourceData (v : Value)
  | setDestType (v : Value)
  | setDestData (v : Value)
  | easyPerform (env : PerformEnv)
  | easyCleanup
  | debug (v : Value)
  | statusLine (v : Value)
  | assignCache
  | useCache (dns connect ssl cookie : Value)
  | mimeInit
  | addPart (name filename type data : CStr)
  | getHeaders

variable (win : Win32)

/-- One operation. -/
def step (st : St) (op : Op) : Option St :=
  match op with
  | .easySetopt name v => (st.easySetopt name v).state
  | .setSourceType v => some { st with obj := { st.obj with pSrc := st.obj.pSrc.setType v } }
  | .setSourceData v => some { st with obj := { st.obj with pSrc := st.obj.pSrc.setData v } }
  | .setDestType v => some { st with obj := { st.obj with pDest := st.obj.pDest.setType v } }
  | .setDestData v => some { st with obj := { st.obj with pDest := st.obj.pDest.setData v } }
  | .easyPerform env => ((st.easyPerform win env).bind fun r => .ok r.1).state
  | .easyCleanup => some st.easyCleanup
  | .debug v => some (st.debug v)
  | .statusLine v => some (st.statusLine v)
  | .assignCache => some st.assignCache
  | .useCache dns connect ssl cookie => some (st.useCache dns connect ssl cookie)
  | .mimeInit => some st.mimeInit
  | .addPart name filename type data => some (st.addPart name filename type data)
  | .getHeaders => some st

/-- The object after the operations `ops` on a new object. -/
def run (junk : Junk) (p : Proc) (ops : List Op) : Option St :=
  runOps (step win) (construct junk p) ops

/-- `P` of the history, the state before and the activation, at every
    `curl_easy_perform` the operation reaches. -/
def AtRequest (P : List Op → St → PerformEnv → Frame → Prop) (hist : List Op) (st : St) (op : Op) :
    Prop :=
  ∀ env f, op = .easyPerform env → st.performPoint win env = .ok f → P hist st env f

/-- Two properties of requests that agree wherever an allowed run gets hold
    along the same allowed runs. -/
theorem along_atRequest_congr {win : Win32} {junk : Junk} {p : Proc} {allowed : Op → Prop}
    {P Q : List Op → St → PerformEnv → Frame → Prop} {ops : List Op}
    (hall : ∀ op ∈ ops, allowed op)
    (h : ∀ hist st env f, (∀ op ∈ hist, allowed op) → run win junk p hist = some st →
      st.performPoint win env = .ok f → (P hist st env f ↔ Q hist st env f)) :
    Along (step win) (construct junk p) ops (AtRequest win P) ↔
      Along (step win) (construct junk p) ops (AtRequest win Q) := by
  refine along_congr hall ?_
  intro hist st op hhist hrun
  constructor
  · intro hP env f hop hpoint
    exact (h hist st env f hhist hrun hpoint).mp (hP env f hop hpoint)
  · intro hQ env f hop hpoint
    exact (h hist st env f hhist hrun hpoint).mpr (hQ env f hop hpoint)

/-! ## What `easy_setopt` can do -/

/-- The argument the last branch of `easy_setopt` makes of a script value, if
    it is a number or a string. -/
def Value.scriptArg (v : Value) : Option OptVal :=
  if v.typeCode = 1 then some (.long v.long)
  else if v.typeCode = 2 then some (.str v.string)
  else none

/-- The options with a branch of their own in `easy_setopt`. -/
def specialOptions : List CURLoption := [.HTTPHEADER, .POSTFIELDS, .MAIL_RCPT]

theorem step_easySetopt_found {name : CStr} {o : CURLoption}
    (hname : curlOptionsFromString name = .found o) (v : Value) (st : St) :
    step win st (.easySetopt name v) = (st.easySetoptOption o v).state := by
  simp only [step, St.easySetopt, hname]

/-- An option without a branch of its own takes a number or a string as it is
    and ignores every other value. -/
theorem easySetoptOption_of_notMem {o : CURLoption} (ho : o ∉ specialOptions) (v : Value) (st : St) :
    st.easySetoptOption o v = v.scriptArg.elim (.ok st) fun a => st.setoptScript o a := by
  simp only [specialOptions, List.mem_cons, List.not_mem_nil, or_false, not_or] at ho
  obtain ⟨hheader, hpost, hrcpt⟩ := ho
  rw [St.easySetoptOption, if_neg hheader, if_neg hpost, if_neg hrcpt, Value.scriptArg]
  by_cases hnum : v.typeCode = 1
  · rw [if_pos hnum, if_pos hnum]
    rfl
  rw [if_neg hnum, if_neg hnum]
  by_cases hstr : v.typeCode = 2
  · rw [if_pos hstr, if_pos hstr]
    rfl
  · rw [if_neg hstr, if_neg hstr]
    rfl

/-- What one `easy_setopt` can have done when it comes back. -/
theorem easySetopt_cases {name : CStr} {v : Value} {st st' : St}
    (h : (st.easySetopt name v).state = some st') :
    (curlOptionsFromString name = .found .HTTPHEADER ∧ st' = st.appendHeader v.string) ∨
    (curlOptionsFromString name = .found .POSTFIELDS ∧ st' = st.setPostfields v.string) ∨
    (curlOptionsFromString name = .found .MAIL_RCPT ∧ st' = st.appendRecipient v.string) ∨
    (∃ o a, curlOptionsFromString name = .found o ∧ o ∉ specialOptions ∧
      v.scriptArg = some a ∧ St.wildShare o a = false ∧ st' = st.setopt o a) ∨
    ((∀ o, curlOptionsFromString name = .found o → o ∉ specialOptions ∧ v.scriptArg = none) ∧
      st' = st) := by
  unfold St.easySetopt at h
  split at h
  case h_2 => cases h
  case h_3 hname =>
    refine Or.inr (Or.inr (Or.inr (Or.inr ⟨?_, (Option.some.inj h).symm⟩)))
    intro o ho
    rw [hname] at ho
    cases ho
  case h_1 o hname =>
    by_cases hspecial : o ∈ specialOptions
    · simp only [specialOptions, List.mem_cons, List.not_mem_nil, or_false] at hspecial
      rcases hspecial with rfl | rfl | rfl
      · exact Or.inl ⟨hname, (Option.some.inj h).symm⟩
      · exact Or.inr (Or.inl ⟨hname, (Option.some.inj h).symm⟩)
      · exact Or.inr (Or.inr (Or.inl ⟨hname, (Option.some.inj h).symm⟩))
    rw [easySetoptOption_of_notMem hspecial] at h
    refine Or.inr (Or.inr (Or.inr ?_))
    cases harg : v.scriptArg with
    | none =>
        rw [harg] at h
        refine Or.inr ⟨?_, (Option.some.inj h).symm⟩
        intro o' ho'
        obtain rfl : o = o' := LookupResult.found.inj (hname.symm.trans ho')
        exact ⟨hspecial, rfl⟩
    | some a =>
        rw [harg, Option.elim_some, St.setoptScript] at h
        -- the value goes to libcurl unless the pointer it stands for is wild
        split at h
        case isTrue => cases h
        case isFalse hwild =>
          exact Or.inl ⟨o, a, hname, hspecial, rfl, by simpa using hwild,
            (Option.some.inj h).symm⟩

/-! ## What a part of `easy_perform` can do -/

/-- The options `easy_perform` sets. -/
def performOptions : List CURLoption :=
  [.POSTFIELDS, .POSTFIELDSIZE, .MIMEPOST, .WRITEDATA, .WRITEFUNCTION, .READDATA, .READFUNCTION,
    .UPLOAD, .INFILESIZE_LARGE, .XFERINFODATA, .XFERINFOFUNCTION, .NOPROGRESS,
    .SSL_VERIFYPEER, .SSL_VERIFYHOST, .VERBOSE]

/-- The options that are set for sending, from each kind of source. -/
def multipartOptions : List CURLoption :=
  [.POSTFIELDS, .POSTFIELDSIZE, .MIMEPOST, .WRITEDATA, .WRITEFUNCTION]

def variableOptions : List CURLoption :=
  [.POSTFIELDS, .POSTFIELDSIZE, .READFUNCTION, .READDATA, .UPLOAD]

def fileOptions : List CURLoption := [.UPLOAD, .READDATA, .INFILESIZE_LARGE]

/-- The options set after those for sending. -/
def receiveOptions : List CURLoption :=
  [.WRITEDATA, .WRITEFUNCTION, .XFERINFODATA, .XFERINFOFUNCTION, .NOPROGRESS,
    .SSL_VERIFYPEER, .SSL_VERIFYHOST, .VERBOSE]

/-- The value points to no locals but those of the activation `call`. -/
def OptVal.OwnedBy (call : CallId) (v : OptVal) : Prop := ∀ c, v = .wt c ∨ v = .data c → c = call

/-- The calls `easy_perform` makes beside `curl_easy_setopt`. -/
def Call.ofRequest : Call → Bool
  | .easyPerform _ | .easyGetinfo _ | .fopen _ _ | .fstat _ | .fclose _ => true
  | _ => false

/-- One elementary effect of the activation `call`, or of a method that has no locals,
    that sets no options but `os`. -/
inductive Move (os : List CURLoption) (call : CallId) : St → St → Prop where
  | setopt (st : St) (o : CURLoption) (v : OptVal) (ho : o ∈ os) (hv : v.OwnedBy call) :
      Move os call st (st.setopt o v)
  | request (st : St) (n : Nat) (c : Call) (h : c.ofRequest = true) :
      Move os call st { st with proc := { st.proc with nFile := n, log := st.proc.log ++ [c] } }
  | postData (st : St) (s : CStr) :
      Move os call st { st with obj := { st.obj with PostFildsData := s } }
  | destData (st : St) (s : CStr) :
      Move os call st { st with obj := { st.obj with pDest := { st.obj.pDest with Data := s } } }
  | trace (st : St) (b : Bool) : Move os call st { st with obj := { st.obj with m_trace := b } }
  | statusLine (st : St) (n : Int) :
      Move os call st { st with obj := { st.obj with m_StatusLine := n } }

/-- Any number of such effects. -/
abbrev Moves (os : List CURLoption) (call : CallId) : St → St → Prop :=
  Relation.ReflTransGen (Move os call)

theorem Move.mono {os os' : List CURLoption} (hos : os ⊆ os') {call : CallId} {st st' : St}
    (h : Move os call st st') : Move os' call st st' := by
  cases h with
  | setopt o v ho hv => exact .setopt st o v (hos ho) hv
  | request n c hc => exact .request st n c hc
  | postData s => exact .postData st s
  | destData s => exact .destData st s
  | trace b => exact .trace st b
  | statusLine n => exact .statusLine st n

theorem Moves.mono {os os' : List CURLoption} (hos : os ⊆ os') {call : CallId} {st st' : St}
    (h : Moves os call st st') : Moves os' call st st' :=
  Relation.ReflTransGen.mono (fun _ _ => Move.mono hos) _ _ h

/-- A relation between the state before and after that every effect respects, as long as
    no options are set but `os`. -/
structure Respects (os : List CURLoption) (R : St → St → Prop) : Prop where
  refl : ∀ st, R st st
  trans : ∀ {s t u : St}, R s t → R t u → R s u
  setopt : ∀ {st : St} {o : CURLoption} (v : OptVal), o ∈ os → R st (st.setopt o v)
  other : ∀ {call : CallId} {st st' : St}, Move [] call st st' → R st st'

theorem Respects.move {os : List CURLoption} {R : St → St → Prop} (hR : Respects os R) {call : CallId}
    {st st' : St} (h : Move os call st st') : R st st' := by
  have hother : ∀ {st' : St}, Move [] call st st' → R st st' := hR.other
  cases h with
  | setopt o v ho hv => exact hR.setopt v ho
  | request n c hc => exact hother (.request st n c hc)
  | postData s => exact hother (.postData st s)
  | destData s => exact hother (.destData st s)
  | trace b => exact hother (.trace st b)
  | statusLine n => exact hother (.statusLine st n)

/-- What each effect respects, any number of them respects. -/
theorem Respects.moves {os : List CURLoption} {R : St → St → Prop} (hR : Respects os R) {call : CallId}
    {st st' : St} (h : Moves os call st st') : R st st' := by
  induction h with
  | refl => exact hR.refl st
  | tail _ hmove ih => exact hR.trans ih (hR.move hmove)

namespace Outcome

/-- `P` holds of what a method goes on with, `Q` of the object an error leaves
    behind. -/
def Leaves {α : Type} (P : α → Prop) (Q : St → Prop) : Outcome α → Prop
  | ok a => P a
  | unwound st => Q st
  | crashed => True

theorem Leaves.bind {α β : Type} {P : α → Prop} {P' : β → Prop} {Q : St → Prop}
    {x : Outcome α} {f : α → Outcome β} (hx : x.Leaves P Q)
    (hf : ∀ a, P a → (f a).Leaves P' Q) : (x.bind f).Leaves P' Q := by
  cases x with
  | ok a => exact hf a hx
  | unwound st => exact hx
  | crashed => trivial

theorem Leaves.imp {α : Type} {P P' : α → Prop} {Q Q' : St → Prop} {x : Outcome α}
    (hx : x.Leaves P Q) (hP : ∀ a, P a → P' a) (hQ : ∀ st, Q st → Q' st) : x.Leaves P' Q' := by
  cases x with
  | ok a => exact hP a hx
  | unwound st => exact hQ st hx
  | crashed => trivial

theorem Leaves.of_state {P : St → Prop} {x : Outcome St} {st : St} (hx : x.Leaves P P)
    (h : x.state = some st) : P st := by
  cases x with
  | ok a =>
      obtain rfl := Option.some.inj h
      exact hx
  | unwound a =>
      obtain rfl := Option.some.inj h
      exact hx
  | crashed => cases h

end Outcome

section Effects

variable {os : List CURLoption} {call : CallId} {s st : St}

theorem moves_setopt {o : CURLoption} {v : OptVal} (h : Moves os call s st) (ho : o ∈ os)
    (hv : v.OwnedBy call) : Moves os call s (st.setopt o v) :=
  h.tail (.setopt st o v ho hv)

theorem moves_fopen (h : Moves os call s st) (name : CStr) (opens : Bool) :
    Moves os call s { st with proc := st.proc.fopen name opens } :=
  h.tail (.request st _ _ rfl)

/-- A call that only shows in the log. -/
theorem moves_log (h : Moves os call s st) {c : Call} (hc : c.ofRequest = true) :
    Moves os call s { st with proc := { st.proc with log := st.proc.log ++ [c] } } :=
  h.tail (.request st st.proc.nFile c hc)

end Effects

namespace Frame

variable {win}

/-- `f'` is the same activation as `f`, some effects later. -/
def Reaches (os : List CURLoption) (f f' : Frame) : Prop := f'.call = f.call ∧ Moves os f.call f.st f'.st

section Reaches

variable {os os' : List CURLoption} {f g h : Frame}

theorem Reaches.refl (f : Frame) : f.Reaches os f := ⟨rfl, .refl⟩

theorem Reaches.mono (hos : os ⊆ os') (hfg : f.Reaches os g) : f.Reaches os' g := ⟨hfg.1, hfg.2.mono hos⟩

theorem Reaches.trans (hfg : f.Reaches os g) (hgh : g.Reaches os h) : f.Reaches os h := by
  obtain ⟨hcall, hmoves⟩ := hfg
  obtain ⟨hcall', hmoves'⟩ := hgh
  rw [hcall] at hcall' hmoves'
  exact ⟨hcall', hmoves.trans hmoves'⟩

theorem Reaches.moves (hfg : f.Reaches os g) {st : St} (h : Moves os g.call g.st st) :
    Moves os f.call f.st st := by
  obtain ⟨hcall, hmoves⟩ := hfg
  rw [hcall] at h
  exact hmoves.trans h

end Reaches

theorem sendMultipart_moves (f : Frame) : f.Reaches multipartOptions f.sendMultipart := by
  refine ⟨rfl, ?_⟩
  refine moves_setopt (moves_setopt (moves_setopt (moves_setopt (moves_setopt .refl ?_ ?_) ?_ ?_) ?_ ?_)
    ?_ ?_) ?_ ?_ <;> simp [multipartOptions, OptVal.OwnedBy]

theorem sendVariable_moves (f : Frame) : f.Reaches variableOptions (f.sendVariable win) := by
  unfold sendVariable
  split
  · exact .refl f
  · have hpost : Moves variableOptions f.call f.st { f.st with
        obj := { f.st.obj with PostFildsData := ansiToUtf8 win f.st.obj.pSrc.Data } } :=
      .single (.postData f.st _)
    dsimp only
    split
    · refine ⟨rfl, moves_setopt (moves_setopt hpost ?_ ?_) ?_ ?_⟩ <;>
        simp [variableOptions, OptVal.OwnedBy]
    · refine ⟨rfl, moves_setopt (moves_setopt (moves_setopt hpost ?_ ?_) ?_ ?_) ?_ ?_⟩ <;>
        simp [variableOptions, OptVal.OwnedBy]

theorem sendFile_moves (env : PerformEnv) (f : Frame) :
    (f.sendFile env).Leaves (f.Reaches fileOptions) (Moves fileOptions f.call f.st) := by
  -- `fopen` is an effect whether or not the file opens
  have hfopen : Moves fileOptions f.call f.st
      { f.st with proc := f.st.proc.fopen f.st.obj.pSrc.Data env.opensSource } :=
    moves_fopen .refl _ _
  unfold sendFile
  dsimp only
  by_cases hopen : env.opensSource = true
  · rw [if_pos hopen]
    have hfstat : Moves fileOptions f.call f.st { f.st with
        proc := (f.st.proc.fopen f.st.obj.pSrc.Data env.opensSource).fstat f.st.proc.nFile } :=
      moves_log hfopen rfl
    split
    · exact hfstat
    · refine ⟨rfl, moves_setopt (moves_setopt (moves_setopt hfstat ?_ ?_) ?_ ?_) ?_ ?_⟩ <;>
        simp [fileOptions, OptVal.OwnedBy]
  · rw [if_neg hopen]
    split
    · exact hfopen
    · trivial

theorem sendSetup_moves (env : PerformEnv) (f : Frame) :
    (f.sendSetup win env).Leaves (f.Reaches performOptions) (Moves performOptions f.call f.st) := by
  unfold sendSetup
  split
  · exact f.sendMultipart_moves.mono (by decide)
  · split
    · exact f.sendVariable_moves.mono (by decide)
    · exact (f.sendFile_moves env).imp (fun _ hg => hg.mono (by decide)) (fun _ hst => hst.mono (by decide))
    · exact .refl f

theorem recvSetup_moves (env : PerformEnv) (f : Frame) :
    (f.recvSetup env).Leaves (f.Reaches receiveOptions) (Moves receiveOptions f.call f.st) := by
  have hfopen : Moves receiveOptions f.call f.st
      { f.st with proc := f.st.proc.fopen f.st.obj.pDest.Data env.createsDest } :=
    moves_fopen .refl _ _
  unfold recvSetup
  split
  · refine ⟨rfl, moves_setopt (moves_setopt .refl ?_ ?_) ?_ ?_⟩ <;>
      simp [receiveOptions, OptVal.OwnedBy]
  · dsimp only
    by_cases hcreate : env.createsDest = true
    · rw [if_pos hcreate]
      refine ⟨rfl, moves_setopt (moves_setopt hfopen ?_ ?_) ?_ ?_⟩ <;>
        simp [receiveOptions, OptVal.OwnedBy]
    · rw [if_neg hcreate]
      split
      · exact hfopen
      · refine ⟨rfl, moves_setopt (moves_setopt hfopen ?_ ?_) ?_ ?_⟩ <;>
          simp [receiveOptions, OptVal.OwnedBy]
  · exact .refl f

theorem statusSetup_moves (f : Frame) : f.Reaches receiveOptions f.statusSetup := by
  unfold statusSetup
  split
  · refine ⟨rfl, moves_setopt (moves_setopt (moves_setopt .refl ?_ ?_) ?_ ?_) ?_ ?_⟩ <;>
      simp [receiveOptions, OptVal.OwnedBy]
  · refine ⟨rfl, moves_setopt .refl ?_ ?_⟩ <;> simp [receiveOptions, OptVal.OwnedBy]

theorem commonSetup_moves (f : Frame) : f.Reaches receiveOptions f.commonSetup := by
  refine ⟨rfl, moves_setopt (moves_setopt (moves_setopt .refl ?_ ?_) ?_ ?_) ?_ ?_⟩ <;>
    simp [receiveOptions, OptVal.OwnedBy]

theorem closeIfOpen_moves {os : List CURLoption} (s : Option FileId) (f : Frame) :
    f.Reaches os (f.closeIfOpen s) := by
  cases s with
  | none => exact .refl f
  | some id => exact ⟨rfl, moves_log .refl rfl⟩

theorem transfer_moves (env : PerformEnv) (f : Frame) :
    (f.transfer env).Leaves (fun r => f.Reaches receiveOptions r.1) (Moves receiveOptions f.call f.st) := by
  have hlog : Moves receiveOptions f.call f.st
      { f.st with proc := f.st.proc.curlEasyPerform f.st.obj.m_curl } :=
    moves_log .refl rfl
  unfold transfer
  dsimp only
  split
  · split
    · exact ⟨rfl, hlog⟩
    · trivial
  · exact ⟨rfl, hlog⟩

theorem finish_moves (env : PerformEnv) (f : Frame) (data : List Byte) :
    (f.finish win env data).Leaves (fun r => Moves receiveOptions f.call f.st r.1)
      (Moves receiveOptions f.call f.st) := by
  have hinfo : Moves receiveOptions f.call f.st
      { f.st with proc := f.st.proc.curlEasyGetinfo f.st.obj.m_curl } :=
    moves_log .refl rfl
  unfold finish
  dsimp only
  -- both streams are closed in the frame after `curl_easy_getinfo`
  generalize hg : ({ f with st := { f.st with proc := f.st.proc.curlEasyGetinfo f.st.obj.m_curl } } :
    Frame) = g
  have hfg : f.Reaches receiveOptions g := by
    subst hg
    exact ⟨rfl, hinfo⟩
  obtain ⟨-, hclosed⟩ := (hfg.trans (g.closeIfOpen_moves f.fp)).trans
    ((g.closeIfOpen f.fp).closeIfOpen_moves f.fd)
  split
  · split
    · exact hclosed
    · exact hclosed
  · split
    · exact hclosed.tail (.destData _ _)
    · split
      · trivial
      · exact moves_log hclosed rfl
    · exact hclosed

end Frame

namespace St

variable {win}

/-- What the options for sending lead to, the rest of a request keeps, if its effects do. -/
theorem performPoint_leaves {env : PerformEnv} {st : St} {P : Frame → Prop} {Q : St → Prop}
    (hsend : ((Frame.enter st).sendSetup win env).Leaves P Q)
    (hreach : ∀ f g : Frame, P f → f.Reaches receiveOptions g → P g)
    (hmoves : ∀ (f : Frame) (s : St), P f → Moves receiveOptions f.call f.st s → Q s) :
    (st.performPoint win env).Leaves P Q := by
  -- one `bind` per phase; an error leaves what the phases before it reached
  refine hsend.bind ?_
  intro f hf
  refine ((f.recvSetup_moves env).imp (fun g hg => hreach f g hf hg) (fun s => hmoves f s hf)).bind ?_
  intro g hg
  exact hreach g _ hg (g.statusSetup_moves.trans g.statusSetup.commonSetup_moves)

theorem easyPerform_leaves {env : PerformEnv} {st : St} {P : Frame → Prop} {Q : St → Prop}
    (hsend : ((Frame.enter st).sendSetup win env).Leaves P Q)
    (hreach : ∀ f g : Frame, P f → f.Reaches receiveOptions g → P g)
    (hmoves : ∀ (f : Frame) (s : St), P f → Moves receiveOptions f.call f.st s → Q s) :
    (st.easyPerform win env).Leaves (fun r => Q r.1) Q := by
  refine (performPoint_leaves hsend hreach hmoves).bind ?_
  intro f hf
  refine ((f.transfer_moves env).imp (fun r hr => hreach f r.1 hf hr) (fun s => hmoves f s hf)).bind ?_
  rintro ⟨g, data⟩ hg
  refine ((g.finish_moves env data).imp (fun r => hmoves g r.1 hg) (fun s => hmoves g s hg)).bind ?_
  rintro ⟨st', ok⟩ hst'
  exact hst'

theorem performPoint_moves (env : PerformEnv) (st : St) :
    (st.performPoint win env).Leaves ((Frame.enter st).Reaches performOptions)
      (Moves performOptions st.proc.nCall (Frame.enter st).st) :=
  performPoint_leaves (Frame.sendSetup_moves env (Frame.enter st))
    (fun _ _ hf hfg => hf.trans (hfg.mono (by decide)))
    (fun _ _ hf hfs => hf.moves (hfs.mono (by decide)))

end St

/-- The object `easy_perform` leaves behind, by return or by unwinding, has what holds
    after the options for sending and is kept by effects that set other options. -/
theorem step_easyPerform_leaves {win : Win32} {env : PerformEnv} {st st' : St} {P : St → Prop}
    (hsend : ((Frame.enter st).sendSetup win env).Leaves (fun f => P f.st) P)
    (hmoves : ∀ {call : CallId} {s t : St}, Moves receiveOptions call s t → P s → P t)
    (h : step win st (.easyPerform env) = some st') : P st' := by
  refine Outcome.Leaves.of_state ?_ h
  refine (St.easyPerform_leaves hsend (fun f g hf hfg => hmoves hfg.2 hf)
    (fun f s hf hfs => hmoves hfs hf)).bind ?_
  intro r hr
  exact hr

/-- That object comes from the entry by effects of the activation. -/
theorem step_easyPerform_moves {win : Win32} {env : PerformEnv} {st st' : St}
    (h : step win st (.easyPerform env) = some st') :
    Moves performOptions st.proc.nCall (Frame.enter st).st st' := by
  refine Outcome.Leaves.of_state ?_ h
  refine (St.easyPerform_leaves (Frame.sendSetup_moves env (Frame.enter st))
    (fun _ _ hf hfg => hf.trans (hfg.mono (by decide)))
    (fun _ _ hf hfs => hf.moves (hfs.mono (by decide)))).bind ?_
  intro r hr
  exact hr

theorem debug_moves (call : CallId) (v : Value) (st : St) :
    Moves [.DEBUGFUNCTION, .VERBOSE] call st (st.debug v) := by
  unfold St.debug
  split
  · refine moves_setopt (moves_setopt (.single (.trace st true)) ?_ ?_) ?_ ?_ <;>
      simp [OptVal.OwnedBy]
  split
  · refine moves_setopt (moves_setopt (.single (.trace st false)) ?_ ?_) ?_ ?_ <;>
      simp [OptVal.OwnedBy]
  · exact .refl

theorem statusLine_moves (call : CallId) (v : Value) (st : St) : Moves [] call st (st.statusLine v) := by
  unfold St.statusLine
  split
  · exact .single (.statusLine st 1)
  split
  · exact .single (.statusLine st 0)
  · exact .refl

/-! ## What most operations keep -/

/-- The options the object sets by itself. -/
def managedOptions : List CURLoption := .SHARE :: .DEBUGFUNCTION :: performOptions

/-- `st'` has the request of `st`: its lists, its modes, the text of its source,
    and every option the object does not manage. -/
structure Kept (st st' : St) : Prop where
  m_curl : st'.obj.m_curl = st.obj.m_curl
  m_mime : st'.obj.m_mime = st.obj.m_mime
  headers : st'.obj.headers = st.obj.headers
  recipients : st'.obj.recipients = st.obj.recipients
  data : st'.obj.pSrc.Data = st.obj.pSrc.Data
  isPosting : st'.obj.isPosting = st.obj.isPosting
  isMultipart : st'.obj.isMultipart = st.obj.isMultipart
  slist : st'.proc.slist = st.proc.slist
  nSlist : st'.proc.nSlist = st.proc.nSlist
  opts : ∀ o ∉ managedOptions, st'.opts o = st.opts o

theorem Kept.refl (st : St) : Kept st st :=
  ⟨rfl, rfl, rfl, rfl, rfl, rfl, rfl, rfl, rfl, fun _ _ => rfl⟩

theorem Kept.trans {s t u : St} (hst : Kept s t) (htu : Kept t u) : Kept s u where
  m_curl := htu.m_curl.trans hst.m_curl
  m_mime := htu.m_mime.trans hst.m_mime
  headers := htu.headers.trans hst.headers
  recipients := htu.recipients.trans hst.recipients
  data := htu.data.trans hst.data
  isPosting := htu.isPosting.trans hst.isPosting
  isMultipart := htu.isMultipart.trans hst.isMultipart
  slist := htu.slist.trans hst.slist
  nSlist := htu.nSlist.trans hst.nSlist
  opts o ho := (htu.opts o ho).trans (hst.opts o ho)

theorem Kept.setopt {st : St} {o : CURLoption} (ho : o ∈ managedOptions) (v : OptVal) :
    Kept st (st.setopt o v) := by
  refine ⟨rfl, rfl, rfl, rfl, rfl, rfl, rfl, rfl, rfl, ?_⟩
  intro o' ho'
  have hne : o' ≠ o := fun heq => ho' (heq ▸ ho)
  rw [St.setopt_opts, if_neg hne]

theorem Kept.respects {os : List CURLoption} (hos : os ⊆ managedOptions) : Respects os Kept where
  refl := Kept.refl
  trans := Kept.trans
  setopt v ho := Kept.setopt (hos ho) v
  other h := by
    cases h with
    | setopt o v ho hv => cases ho
    | _ => exact ⟨rfl, rfl, rfl, rfl, rfl, rfl, rfl, rfl, rfl, fun _ _ => rfl⟩

theorem Moves.kept {call : CallId} {st st' : St} (h : Moves performOptions call st st') : Kept st st' :=
  (Kept.respects (by decide)).moves h

theorem enter_kept (st : St) : Kept st (Frame.enter st).st :=
  ⟨rfl, rfl, rfl, rfl, rfl, rfl, rfl, rfl, rfl, fun _ _ => rfl⟩

theorem setType_Data (v : Value) (c : CCurlValue) : (c.setType v).Data = c.Data := by
  unfold CCurlValue.setType
  split
  · rfl
  split
  · rfl
  split <;> rfl

theorem debug_kept (v : Value) (st : St) : Kept st (st.debug v) :=
  (Kept.respects (by decide)).moves (debug_moves 0 v st)

theorem statusLine_kept (v : Value) (st : St) : Kept st (st.statusLine v) :=
  (Kept.respects (by decide)).moves (statusLine_moves 0 v st)

/-- Setting the cache flags and assigning the cache. -/
theorem assignCurlCache_kept (st : St) {p : Proc} (heasy : p.easy = st.proc.easy)
    (hslist : p.slist = st.proc.slist) (hnSlist : p.nSlist = st.proc.nSlist) :
    Kept st { st with proc := p.assignCurlCache st.obj.m_curl } := by
  refine ⟨rfl, rfl, rfl, rfl, rfl, rfl, rfl, ?_, ?_, ?_⟩
  · exact (Proc.assignCurlCache_slist _ p).trans hslist
  · exact (Proc.assignCurlCache_nSlist _ p).trans hnSlist
  · intro o ho
    have hshare : o ≠ .SHARE := by
      rintro rfl
      exact ho (by decide)
    show ((p.assignCurlCache st.obj.m_curl).easy st.obj.m_curl).opts o = _
    rw [Proc.assignCurlCache_opts _ _ hshare, heasy]
    rfl

/-- The operation is none of those that write the request itself. -/
def Op.quiet : Op → Bool
  | .easySetopt _ _ | .setSourceData _ | .easyCleanup | .mimeInit => false
  | _ => true

/-- A quiet operation keeps the request. -/
theorem step_quiet {win : Win32} {st st' : St} {op : Op} (hquiet : op.quiet = true)
    (h : step win st op = some st') : Kept st st' := by
  cases op with
  | easySetopt name v => cases hquiet
  | setSourceData v => cases hquiet
  | easyCleanup => cases hquiet
  | mimeInit => cases hquiet
  | setSourceType v =>
      obtain rfl := Option.some.inj h
      exact ⟨rfl, rfl, rfl, rfl, setType_Data v _, rfl, rfl, rfl, rfl, fun _ _ => rfl⟩
  | easyPerform env => exact (enter_kept st).trans (Moves.kept (step_easyPerform_moves h))
  | debug v =>
      obtain rfl := Option.some.inj h
      exact debug_kept v st
  | statusLine v =>
      obtain rfl := Option.some.inj h
      exact statusLine_kept v st
  | assignCache =>
      obtain rfl := Option.some.inj h
      exact assignCurlCache_kept st rfl rfl rfl
  | useCache dns connect ssl cookie =>
      obtain rfl := Option.some.inj h
      exact assignCurlCache_kept st rfl rfl rfl
  | _ =>
      obtain rfl := Option.some.inj h
      exact ⟨rfl, rfl, rfl, rfl, rfl, rfl, rfl, rfl, rfl, fun _ _ => rfl⟩

/-! ## Reaching `curl_easy_perform` -/

section Reaching

variable {win : Win32} {env : PerformEnv}

/-- The stream `fd` has been opened for sending. -/
def Frame.openSource (f : Frame) : Frame :=
  { f with
    fd := some f.st.proc.nFile
    st := { f.st with
      proc := (f.st.proc.fopen f.st.obj.pSrc.Data true).fstat f.st.proc.nFile } }

/-- The stream `fp` has been opened for receiving. -/
def Frame.openDest (f : Frame) : Frame :=
  { f with
    fp := some f.st.proc.nFile
    st := { f.st with proc := f.st.proc.fopen f.st.obj.pDest.Data true } }

/-- What sending can lead to without an error. -/
theorem Frame.sendSetup_ok {f g : Frame} (h : f.sendSetup win env = .ok g) :
    (f.st.obj.isMultipart = true ∧ g = f.sendMultipart) ∨
    (f.st.obj.isMultipart = false ∧ f.st.obj.pSrc.Type_ = .ttVariable ∧ g = f.sendVariable win) ∨
    (f.st.obj.isMultipart = false ∧ f.st.obj.pSrc.Type_ = .ttFile ∧
      g = f.openSource.sendStream env f.st.proc.nFile) ∨
    (f.st.obj.isMultipart = false ∧ f.st.obj.pSrc.Type_ = .ttMsg ∧ g = f) := by
  unfold Frame.sendSetup at h
  split at h
  case isTrue hmulti =>
    exact Or.inl ⟨hmulti, (Outcome.ok.inj h).symm⟩
  case isFalse hmulti =>
    have hsingle : f.st.obj.isMultipart = false := by simpa using hmulti
    split at h
    case h_1 htype =>
      exact Or.inr (Or.inl ⟨hsingle, htype, (Outcome.ok.inj h).symm⟩)
    case h_2 htype =>
      refine Or.inr (Or.inr (Or.inl ⟨hsingle, htype, ?_⟩))
      unfold Frame.sendFile at h
      by_cases hopen : env.opensSource = true
      · simp only [hopen, if_true] at h
        split at h
        · cases h
        · exact (Outcome.ok.inj h).symm
      · have hfail : env.opensSource = false := by simpa using hopen
        simp only [hfail, Bool.false_eq_true, if_false] at h
        split at h
        · cases h
        · cases h
    case h_3 htype =>
      exact Or.inr (Or.inr (Or.inr ⟨hsingle, htype, (Outcome.ok.inj h).symm⟩))

/-- What receiving can lead to without an error that unwinds. -/
theorem Frame.recvSetup_ok {f g : Frame} (h : f.recvSetup env = .ok g) :
    (f.st.obj.pDest.Type_ = .ttVariable ∧
      g = (f.setopt .WRITEDATA (.data f.call)).setopt .WRITEFUNCTION (.fn .curlSwrite)) ∨
    (f.st.obj.pDest.Type_ = .ttFile ∧ env.createsDest = true ∧
      g = (f.openDest.setopt .WRITEDATA (.file f.st.proc.nFile)).setopt .WRITEFUNCTION
        (.fn .curlFwrite)) ∨
    (f.st.obj.pDest.Type_ = .ttFile ∧ env.createsDest = false ∧
      g = (({ f with st := { f.st with
          proc := f.st.proc.fopen f.st.obj.pDest.Data false } } : Frame).setopt
        .WRITEDATA .null).setopt .WRITEFUNCTION (.fn .curlFwrite)) ∨
    (f.st.obj.pDest.Type_ = .ttMsg ∧ g = f) := by
  unfold Frame.recvSetup at h
  split at h
  case h_1 htype =>
    exact Or.inl ⟨htype, (Outcome.ok.inj h).symm⟩
  case h_2 htype =>
    by_cases hcreate : env.createsDest = true
    · simp only [hcreate, if_true] at h
      exact Or.inr (Or.inl ⟨htype, hcreate, (Outcome.ok.inj h).symm⟩)
    · have hfail : env.createsDest = false := by simpa using hcreate
      simp only [hfail, Bool.false_eq_true, if_false] at h
      split at h
      · cases h
      · exact Or.inr (Or.inr (Or.inl ⟨htype, hfail, (Outcome.ok.inj h).symm⟩))
  case h_3 htype =>
    exact Or.inr (Or.inr (Or.inr ⟨htype, (Outcome.ok.inj h).symm⟩))

/-- The phases an activation that reaches `curl_easy_perform` went through. -/
theorem St.performPoint_ok {st : St} {f : Frame} (h : st.performPoint win env = .ok f) :
    ∃ g r, (Frame.enter st).sendSetup win env = .ok g ∧ g.recvSetup env = .ok r ∧
      f = r.statusSetup.commonSetup := by
  unfold St.performPoint at h
  rw [Outcome.bind_eq_ok] at h
  obtain ⟨g, hg, h⟩ := h
  rw [Outcome.bind_eq_ok] at h
  obtain ⟨r, hr, h⟩ := h
  exact ⟨g, r, hg, hr, (Outcome.ok.inj h).symm⟩

/-- From the options for sending to the request. -/
theorem St.performPoint_reaches {st : St} {f : Frame} (h : st.performPoint win env = .ok f) :
    ∃ g, (Frame.enter st).sendSetup win env = .ok g ∧ g.Reaches receiveOptions f := by
  obtain ⟨g, r, hg, hr, rfl⟩ := St.performPoint_ok h
  have hrecv := g.recvSetup_moves env
  rw [hr] at hrecv
  exact ⟨g, hg, hrecv.trans (r.statusSetup_moves.trans r.statusSetup.commonSetup_moves)⟩

theorem Frame.recvSetup_opts {g r : Frame} (h : g.recvSetup env = .ok r) {o : CURLoption}
    (ho : o ∉ receiveOptions) : r.st.opts o = g.st.opts o := by
  simp only [receiveOptions, List.mem_cons, not_or] at ho
  rcases Frame.recvSetup_ok h with ⟨-, rfl⟩ | ⟨-, -, rfl⟩ | ⟨-, -, rfl⟩ | ⟨-, rfl⟩
  · simp [ho]
  · simp [ho]
    rfl
  · simp [ho]
    rfl
  · rfl

theorem Frame.recvSetup_fd {g r : Frame} (h : g.recvSetup env = .ok r) : r.fd = g.fd := by
  rcases Frame.recvSetup_ok h with ⟨-, rfl⟩ | ⟨-, -, rfl⟩ | ⟨-, -, rfl⟩ | ⟨-, rfl⟩ <;> rfl

/-- The options of the status line and of every request touch nothing else. -/
theorem Frame.commonSetup_opts (f : Frame) {o : CURLoption}
    (ho : o ∉ [CURLoption.XFERINFODATA, .XFERINFOFUNCTION, .NOPROGRESS, .SSL_VERIFYPEER,
      .SSL_VERIFYHOST, .VERBOSE]) : f.statusSetup.commonSetup.st.opts o = f.st.opts o := by
  simp only [List.mem_cons, not_or] at ho
  unfold Frame.commonSetup Frame.statusSetup
  split <;> simp [ho]

theorem Frame.commonSetup_fp (f : Frame) : f.statusSetup.commonSetup.fp = f.fp := by
  unfold Frame.commonSetup Frame.statusSetup
  split <;> rfl

theorem Frame.commonSetup_fd (f : Frame) : f.statusSetup.commonSetup.fd = f.fd := by
  unfold Frame.commonSetup Frame.statusSetup
  split <;> rfl

/-- Once the options for sending are set they stay until the request. -/
theorem St.performPoint_send {st : St} {f : Frame} (h : st.performPoint win env = .ok f) :
    ∃ g, (Frame.enter st).sendSetup win env = .ok g ∧ f.fd = g.fd ∧
      ∀ o ∉ receiveOptions, f.st.opts o = g.st.opts o := by
  obtain ⟨g, r, hg, hr, rfl⟩ := St.performPoint_ok h
  refine ⟨g, hg, ?_, ?_⟩
  · rw [Frame.commonSetup_fd, Frame.recvSetup_fd hr]
  · intro o ho
    rw [Frame.commonSetup_opts _ ?_, Frame.recvSetup_opts hr ho]
    intro hmem
    exact ho (List.mem_cons_of_mem _ (List.mem_cons_of_mem _ hmem))

end Reaching

end Curl1C
