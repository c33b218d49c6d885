/-
  Curl1C.Context.Posting

  Which requests carry the form of a `CcURL` object.

  `easy_perform` gives `m_mime` to the handle on every multipart request.  libcurl
  accepts it as long as it belongs to no other handle.  `easy_cleanup` replaces
  the handle but neither frees the old one nor the form, so a form that was given
  to a handle once is refused by all later ones: `Lost` says of a history that
  this has happened.

  Main result: `form_posted_along`.
-/

import Mathlib.Data.List.Basic
import Curl1C.Context.Run
import Curl1C.Curl.Request

namespace Curl1C

open Lib

/-! ## The handles of a process -/

/-- The handles after the calls made so far. -/
def Proc.handles (p : Proc) : Handles := Handles.ofLog p.log

namespace Proc

variable (p : Proc) (h : HandleId)

theorem handles_of_log {p q : Proc} (calls : List Call) (hlog : q.log = p.log ++ calls) :
    q.handles = calls.foldl Handles.call p.handles := by
  rw [handles, hlog, Handles.ofLog_append]
  rfl

@[simp] theorem curlSlistAppend_handles (l : Option SlistId) (s : CStr) :
    (p.curlSlistAppend l s).handles = p.handles :=
  handles_of_log [.slistAppend l s] rfl

@[simp] theorem curlSlistFreeAll_handles (l : Option SlistId) :
    (p.curlSlistFreeAll l).handles = p.handles :=
  handles_of_log [.slistFreeAll l] rfl

@[simp] theorem curlMimeAddpart_handles (m : MimeId) (part : MimePart) :
    (p.curlMimeAddpart m part).handles = p.handles :=
  handles_of_log [.mimeAddpart m] rfl

@[simp] theorem curlMimeInit_handles :
    (p.curlMimeInit h).handles = p.handles.setParent p.nMime none :=
  handles_of_log [.mimeInit h p.nMime] rfl

@[simp] theorem curlEasyInit_handles :
    p.curlEasyInit.handles = p.handles.modify p.nEasy fun _ => .init :=
  handles_of_log [.easyInit p.nEasy] rfl

/-- Calls on shares do not touch the handles. -/
theorem applyCacheFlags_handles : p.renewCurlShare.applyCacheFlags.handles = p.handles := by
  have hrenew : p.renewCurlShare.handles = p.handles := by
    unfold renewCurlShare
    split
    · exact handles_of_log [.shareCleanup p.CurlShare, .shareInit p.nShare] (List.append_assoc _ _ _)
    · rfl
  have hset : ∀ (q : Proc) s o d, (curlShareSetopt s o d q).handles = q.handles := fun q s o d =>
    handles_of_log [.shareSetopt s o d] rfl
  simp only [applyCacheFlags, hset, hrenew]

@[simp] theorem assignCurlCache_handles : (p.assignCurlCache h).handles = p.handles := by
  have hset : (p.assignCurlCache h).handles =
      p.renewCurlShare.applyCacheFlags.handles.vsetopt h .SHARE
        (.share p.renewCurlShare.applyCacheFlags.CurlShare) :=
    handles_of_log [.easySetopt h .SHARE (.share p.renewCurlShare.applyCacheFlags.CurlShare)] rfl
  rw [hset, Handles.vsetopt_of_notMem (by decide), applyCacheFlags_handles]

@[simp] theorem assignCurlCache_nEasy : (p.assignCurlCache h).nEasy = p.nEasy :=
  applyCacheFlags_keeps p Proc.nEasy (fun _ _ _ _ => rfl) (fun _ _ _ _ => rfl)

end Proc

namespace St

variable (st : St)

/-- The handles after the calls made so far. -/
def handles : Handles := st.proc.handles

/-- What the object's handle is set to send. -/
def set : UserDefined := st.handles.set st.obj.m_curl

/-- The request the object's handle would send. -/
def httpreq : HttpReq := st.set.httpreq

@[simp] theorem setopt_handles (o : CURLoption) (v : OptVal) :
    (st.setopt o v).handles = st.handles.vsetopt st.obj.m_curl o v :=
  Proc.handles_of_log [.easySetopt st.obj.m_curl o v] rfl

end St

/-! ## What leaves the form alone -/

/-- `st'` has the handles of `st`. -/
structure Silent (st st' : St) : Prop where
  m_curl : st'.obj.m_curl = st.obj.m_curl
  m_mime : st'.obj.m_mime = st.obj.m_mime
  isMultipart : st'.obj.isMultipart = st.obj.isMultipart
  nEasy : st'.proc.nEasy = st.proc.nEasy
  handles : st'.handles = st.handles

/-- `st'` may send another request than `st`, but the form belongs to the same
    handle. -/
structure FormKept (st st' : St) : Prop where
  m_curl : st'.obj.m_curl = st.obj.m_curl
  m_mime : st'.obj.m_mime = st.obj.m_mime
  isMultipart : st'.obj.isMultipart = st.obj.isMultipart
  nEasy : st'.proc.nEasy = st.proc.nEasy
  parent : st'.handles.parent = st.handles.parent
  mimepost : ∀ h, (st'.handles.set h).mimepost = (st.handles.set h).mimepost

theorem Silent.refl (st : St) : Silent st st := ⟨rfl, rfl, rfl, rfl, rfl⟩

theorem Silent.trans {s t u : St} (hst : Silent s t) (htu : Silent t u) : Silent s u where
  m_curl := htu.m_curl.trans hst.m_curl
  m_mime := htu.m_mime.trans hst.m_mime
  isMultipart := htu.isMultipart.trans hst.isMultipart
  nEasy := htu.nEasy.trans hst.nEasy
  handles := htu.handles.trans hst.handles

theorem Silent.formKept {st st' : St} (h : Silent st st') : FormKept st st' :=
  ⟨h.m_curl, h.m_mime, h.isMultipart, h.nEasy, by rw [h.handles], fun _ => by rw [h.handles]⟩

theorem FormKept.trans {s t u : St} (hst : FormKept s t) (htu : FormKept t u) : FormKept s u where
  m_curl := htu.m_curl.trans hst.m_curl
  m_mime := htu.m_mime.trans hst.m_mime
  isMultipart := htu.isMultipart.trans hst.isMultipart
  nEasy := htu.nEasy.trans hst.nEasy
  parent := htu.parent.trans hst.parent
  mimepost h := (htu.mimepost h).trans (hst.mimepost h)

theorem Silent.setopt {st : St} {o : CURLoption} (ho : o ∉ Handles.requestOptions) (v : OptVal) :
    Silent st (st.setopt o v) :=
  ⟨rfl, rfl, rfl, rfl, by rw [St.setopt_handles, Handles.vsetopt_of_notMem ho]⟩

theorem FormKept.setopt {st : St} {o : CURLoption} (ho : o ≠ .MIMEPOST) (v : OptVal) :
    FormKept st (st.setopt o v) := by
  refine ⟨rfl, rfl, rfl, rfl, ?_, ?_⟩
  · rw [St.setopt_handles, (Handles.vsetopt_forms ho v).1]
  · rw [St.setopt_handles]
    exact (Handles.vsetopt_forms ho v).2

theorem Silent.respects {os : List CURLoption} (hos : ∀ o ∈ os, o ∉ Handles.requestOptions) :
    Respects os Silent where
  refl := Silent.refl
  trans := Silent.trans
  setopt v ho := Silent.setopt (hos _ ho) v
  other h := by
    cases h with
    | setopt o v ho hv => cases ho
    | request n c hc =>
        have hcall : ∀ s : Handles, s.call c = s := by
          intro s
          cases c <;> first | rfl | cases hc
        exact ⟨rfl, rfl, rfl, rfl, (Proc.handles_of_log [c] rfl).trans (hcall _)⟩
    | _ => exact ⟨rfl, rfl, rfl, rfl, rfl⟩

theorem FormKept.respects {os : List CURLoption} (hos : .MIMEPOST ∉ os) : Respects os FormKept where
  refl st := (Silent.refl st).formKept
  trans := FormKept.trans
  setopt v ho := FormKept.setopt (fun heq => hos (heq ▸ ho)) v
  other h := ((Silent.respects (List.forall_mem_nil _)).move h).formKept

/-- After the options for sending nothing concerns the handles. -/
theorem Moves.silent {call : CallId} {st st' : St} (h : Moves receiveOptions call st st') : Silent st st' :=
  (Silent.respects (by decide)).moves h

/-! ## The phases of `easy_perform` -/

namespace Frame

variable {win : Win32}

/-- What the options for sending have to do with the form: a multipart request
    offers it to the handle, every other one leaves it alone. -/
def Sent (f : Frame) (st : St) : Prop :=
  if f.st.obj.isMultipart then Silent f.sendMultipart.st st else FormKept f.st st

theorem Sent.silent {f : Frame} {st st' : St} (h : f.Sent st) (hs : Silent st st') : f.Sent st' := by
  unfold Sent at h ⊢
  by_cases hmulti : f.st.obj.isMultipart = true
  · rw [if_pos hmulti] at h ⊢
    exact h.trans hs
  · rw [if_neg hmulti] at h ⊢
    exact h.trans hs.formKept

theorem sendSetup_sent (env : PerformEnv) (f : Frame) :
    (f.sendSetup win env).Leaves (fun g => f.Sent g.st) f.Sent := by
  unfold sendSetup Sent
  split
  · exact Silent.refl _
  · split
    · exact (FormKept.respects (by decide)).moves f.sendVariable_moves.2
    · exact (f.sendFile_moves env).imp (fun _ hg => (FormKept.respects (by decide)).moves hg.2)
        (fun _ hst => (FormKept.respects (by decide)).moves hst)
    · exact (Silent.refl _).formKept

end Frame

/-- Up to the request, only the options for sending concern the form. -/
theorem St.performPoint_silent {win : Win32} {env : PerformEnv} {st : St} {f : Frame}
    (h : st.performPoint win env = .ok f) :
    ∃ g, (Frame.enter st).sendSetup win env = .ok g ∧ Silent g.st f.st := by
  obtain ⟨g, hg, hreach⟩ := St.performPoint_reaches h
  exact ⟨g, hg, hreach.2.silent⟩

theorem step_easyPerform_sent {win : Win32} {env : PerformEnv} {st st' : St}
    (h : step win st (.easyPerform env) = some st') : (Frame.enter st).Sent st' :=
  step_easyPerform_leaves (Frame.sendSetup_sent env (Frame.enter st)) (fun hst hs => hs.silent hst.silent) h

/-! ## The other operations -/

/-- The script does not set the form of the handle by itself. -/
def Op.LeavesForm : Op → Prop
  | .easySetopt name _ => curlOptionsFromString name ≠ .found .MIMEPOST
  | _ => True

/-- The operations that do more to the form than adding parts to it. -/
def Op.concernsForm : Op → Bool
  | .easyPerform _ | .easyCleanup | .mimeInit => true
  | _ => false

theorem easySetopt_formKept {name : CStr} {v : Value} {st st' : St}
    (hname : curlOptionsFromString name ≠ .found .MIMEPOST)
    (h : (st.easySetopt name v).state = some st') : FormKept st st' := by
  rcases easySetopt_cases h with ⟨-, rfl⟩ | ⟨-, rfl⟩ | ⟨-, rfl⟩ | ⟨o, a, ho, -, -, -, rfl⟩ | ⟨-, rfl⟩
  · have happend : Silent st ⟨st.proc.curlSlistAppend st.obj.headers v.string,
        { st.obj with headers := some (st.proc.slistHead st.obj.headers) }⟩ :=
      ⟨rfl, rfl, rfl, rfl, Proc.curlSlistAppend_handles _ _ _⟩
    exact happend.formKept.trans (FormKept.setopt (o := .HTTPHEADER) (by decide) _)
  · have hdata : FormKept st { st with
        obj := { st.obj with pSrc := { st.obj.pSrc with Data := v.string } } } :=
      ⟨rfl, rfl, rfl, rfl, rfl, fun _ => rfl⟩
    exact hdata.trans ((FormKept.setopt (o := .POSTFIELDS) (by decide) _).trans
      (FormKept.setopt (o := .POSTFIELDSIZE) (by decide) _))
  · have happend : Silent st ⟨st.proc.curlSlistAppend st.obj.recipients v.string,
        { st.obj with recipients := some (st.proc.slistHead st.obj.recipients) }⟩ :=
      ⟨rfl, rfl, rfl, rfl, Proc.curlSlistAppend_handles _ _ _⟩
    exact (happend.formKept.trans (FormKept.setopt (o := .MAIL_RCPT) (by decide) _)).trans
      ⟨rfl, rfl, rfl, rfl, rfl, fun _ => rfl⟩
  · refine FormKept.setopt ?_ a
    rintro rfl
    exact hname ho
  · exact (Silent.refl _).formKept

theorem step_formKept {win : Win32} {st st' : St} {op : Op} (hop : op.LeavesForm)
    (hquiet : op.concernsForm = false) (h : step win st op = some st') : FormKept st st' := by
  cases op with
  | easyPerform env => cases hquiet
  | easyCleanup => cases hquiet
  | mimeInit => cases hquiet
  | easySetopt name v => exact easySetopt_formKept hop h
  | debug v =>
      obtain rfl := Option.some.inj h
      exact (FormKept.respects (by decide)).moves (debug_moves 0 v st)
  | statusLine v =>
      obtain rfl := Option.some.inj h
      exact (FormKept.respects (by decide)).moves (statusLine_moves 0 v st)
  | assignCache =>
      obtain rfl := Option.some.inj h
      exact Silent.formKept ⟨rfl, rfl, rfl, Proc.assignCurlCache_nEasy _ _,
        Proc.assignCurlCache_handles _ _⟩
  | useCache dns connect ssl cookie =>
      obtain rfl := Option.some.inj h
      exact Silent.formKept ⟨rfl, rfl, rfl, Proc.assignCurlCache_nEasy _ _,
        Proc.assignCurlCache_handles _ _⟩
  | addPart name filename type data =>
      obtain rfl := Option.some.inj h
      exact Silent.formKept ⟨rfl, rfl, rfl, rfl, Proc.curlMimeAddpart_handles _ _ _⟩
  | _ =>
      obtain rfl := Option.some.inj h
      exact Silent.formKept ⟨rfl, rfl, rfl, rfl, rfl⟩

/-! ## The history of the form -/

/-- A subsequence of a history with one more operation either is one already, or
    ends with this operation. -/
theorem snoc_sublist_snoc {α : Type*} {l hist : List α} {a b : α} :
    (l ++ [b]).Sublist (hist ++ [a]) ↔ (l ++ [b]).Sublist hist ∨ b = a ∧ l.Sublist hist := by
  rw [← List.reverse_sublist, List.reverse_append, List.reverse_append]
  show (b :: l.reverse).Sublist (a :: hist.reverse) ↔ _
  rw [List.cons_sublist_cons', ← List.reverse_concat, List.reverse_sublist, List.reverse_sublist]

/-- A multipart request was made. -/
def Posted (hist : List Op) : Prop := ∃ env, [.mimeInit, .easyPerform env].Sublist hist

/-- The handle was replaced after a multipart request. -/
def Lost (hist : List Op) : Prop := ∃ env, [.mimeInit, .easyPerform env, .easyCleanup].Sublist hist

theorem posted_snoc {hist : List Op} {op : Op} :
    Posted (hist ++ [op]) ↔ Posted hist ∨ (∃ env, op = .easyPerform env) ∧ .mimeInit ∈ hist := by
  have hsnoc : ∀ env, [Op.mimeInit, .easyPerform env].Sublist (hist ++ [op]) ↔
      [Op.mimeInit, .easyPerform env].Sublist hist ∨
        Op.easyPerform env = op ∧ [Op.mimeInit].Sublist hist := fun env =>
    snoc_sublist_snoc (l := [Op.mimeInit])
  simp only [Posted, hsnoc, exists_or, List.singleton_sublist, exists_and_right, eq_comm]

theorem lost_snoc {hist : List Op} {op : Op} :
    Lost (hist ++ [op]) ↔ Lost hist ∨ op = .easyCleanup ∧ Posted hist := by
  have hsnoc : ∀ env, [Op.mimeInit, .easyPerform env, .easyCleanup].Sublist (hist ++ [op]) ↔
      [Op.mimeInit, .easyPerform env, .easyCleanup].Sublist hist ∨
        Op.easyCleanup = op ∧ [Op.mimeInit, .easyPerform env].Sublist hist := fun env =>
    snoc_sublist_snoc (l := [Op.mimeInit, Op.easyPerform env])
  simp only [Posted, Lost, hsnoc, exists_or, exists_and_left, eq_comm]

theorem Lost.posted {hist : List Op} (h : Lost hist) : Posted hist := by
  obtain ⟨env, h⟩ := h
  exact ⟨env, List.Sublist.trans (by simp) h⟩

/-- Which handle the form belongs to. -/
inductive FormStage (hist : List Op) (st : St) : Prop where
  | unused (hposted : ¬ Posted hist) (hparent : st.handles.parent st.obj.m_mime = none)
  | attached (hposted : Posted hist) (hlost : ¬ Lost hist)
      (hparent : st.handles.parent st.obj.m_mime = some st.obj.m_curl)
  | lost (hlost : Lost hist) (h : HandleId) (hold : h < st.obj.m_curl)
      (hparent : st.handles.parent st.obj.m_mime = some h)

/-- What the handles have to do with the history. -/
structure FormInv (hist : List Op) (st : St) : Prop where
  multipart : st.obj.isMultipart = true ↔ .mimeInit ∈ hist
  live : st.obj.m_curl < st.proc.nEasy
  mimepost : st.set.mimepost =
    if st.handles.parent st.obj.m_mime = some st.obj.m_curl then some st.obj.m_mime else none
  stage : FormStage hist st

section Inv

variable {win : Win32} {hist : List Op} {op : Op} {st st' : St}

/-- What leaves the form alone keeps the invariant, if it adds nothing to what the
    history says of the form. -/
theorem FormInv.of_kept (hinv : FormInv hist st) (hk : FormKept st st')
    (hmulti : .mimeInit ∈ hist ++ [op] ↔ .mimeInit ∈ hist) (hp : Posted (hist ++ [op]) ↔ Posted hist)
    (hl : Lost (hist ++ [op]) ↔ Lost hist) : FormInv (hist ++ [op]) st' := by
  refine ⟨?_, ?_, ?_, ?_⟩
  · rw [hk.isMultipart, hmulti]
    exact hinv.multipart
  · rw [hk.m_curl, hk.nEasy]
    exact hinv.live
  · rw [St.set, hk.mimepost, hk.parent, hk.m_curl, hk.m_mime]
    exact hinv.mimepost
  · have hparent : st'.handles.parent st'.obj.m_mime = st.handles.parent st.obj.m_mime := by
      rw [hk.parent, hk.m_mime]
    cases hinv.stage with
    | unused hposted hnone => exact .unused (mt hp.mp hposted) (hparent.trans hnone)
    | attached hposted hlost hsome =>
        exact .attached (hp.mpr hposted) (mt hl.mp hlost) (by rw [hparent, hsome, hk.m_curl])
    | lost hlost h hold hsome => exact .lost (hl.mpr hlost) h (hk.m_curl ▸ hold) (hparent.trans hsome)

theorem Frame.sendMultipart_handles (f : Frame) :
    f.sendMultipart.st.handles =
      (f.st.handles.modify f.st.obj.m_curl fun set => { set with method := .POST }).setMimepost
        f.st.obj.m_curl (.mime f.st.obj.m_mime) := by
  unfold Frame.sendMultipart
  simp only [Frame.setopt_st, St.setopt_handles, St.setopt_obj]
  rw [Handles.vsetopt_of_notMem (o := .WRITEFUNCTION) (by decide),
    Handles.vsetopt_of_notMem (o := .WRITEDATA) (by decide),
    Handles.vsetopt_of_notMem (o := .POSTFIELDSIZE) (by decide)]
  rfl

/-- A multipart request gets the form to the handle unless it is lost. -/
theorem FormInv.offer (hinv : FormInv hist st) :
    (¬ Lost hist →
      (Frame.enter st).sendMultipart.st.set =
          { st.set with method := .POST_MIME, opt_no_body := false, mimepost := some st.obj.m_mime } ∧
        (Frame.enter st).sendMultipart.st.handles.parent st.obj.m_mime = some st.obj.m_curl) ∧
    (Lost hist → (Frame.enter st).sendMultipart.st.handles =
      st.handles.modify st.obj.m_curl fun set => { set with method := .POST }) := by
  have hsend : (Frame.enter st).sendMultipart.st.handles =
      (st.handles.modify st.obj.m_curl fun set => { set with method := .POST }).setMimepost
        st.obj.m_curl (.mime st.obj.m_mime) := (Frame.enter st).sendMultipart_handles
  have hcontent : ((st.handles.modify st.obj.m_curl fun set => { set with method := .POST }).set
      st.obj.m_curl).mimepost = st.set.mimepost := by
    rw [Handles.modify_set_self]
    rfl
  have haccept : (st.handles.parent st.obj.m_mime = none ∧ st.set.mimepost = none ∨
      st.handles.parent st.obj.m_mime = some st.obj.m_curl ∧ st.set.mimepost = some st.obj.m_mime) →
      (Frame.enter st).sendMultipart.st.set =
          { st.set with method := .POST_MIME, opt_no_body := false, mimepost := some st.obj.m_mime } ∧
        (Frame.enter st).sendMultipart.st.handles.parent st.obj.m_mime = some st.obj.m_curl := by
    intro hfree
    obtain ⟨hparent, hset, -⟩ := Handles.setMimepost_accepts (m := st.obj.m_mime)
      (h := st.obj.m_curl)
      (s := st.handles.modify st.obj.m_curl fun set => { set with method := .POST })
      (by rw [hcontent]; exact hfree)
    rw [← hsend] at hparent hset
    rw [Handles.modify_set_self] at hset
    exact ⟨hset, by rw [hparent, Function.update_self]⟩
  have hmimepost := hinv.mimepost
  cases hinv.stage with
  | unused hposted hnone =>
      refine ⟨fun _ => haccept (Or.inl ⟨hnone, ?_⟩), fun hlost => absurd hlost.posted hposted⟩
      simpa [hnone] using hmimepost
  | attached hposted hlost hsome =>
      refine ⟨fun _ => haccept (Or.inr ⟨hsome, ?_⟩), fun hlost' => absurd hlost' hlost⟩
      simpa [hsome] using hmimepost
  | lost hlost h hold hsome =>
      refine ⟨fun hnot => absurd hlost hnot, fun _ => hsend.trans ?_⟩
      refine Handles.setMimepost_refuses hsome ?_
      rw [hcontent, hmimepost, hsome, if_neg]
      exact fun heq => absurd (Option.some.inj heq) (Nat.ne_of_lt hold)

/-- A handle that came after the form was lost has no form. -/
theorem FormInv.mimepost_of_lost (hinv : FormInv hist st) (hlost : Lost hist) : st.set.mimepost = none := by
  have hmimepost := hinv.mimepost
  cases hinv.stage with
  | unused hposted hnone => exact absurd hlost.posted hposted
  | attached hposted hnot hsome => exact absurd hlost hnot
  | lost _ h hold hsome =>
      rw [hmimepost, hsome, if_neg]
      exact fun heq => absurd (Option.some.inj heq) (Nat.ne_of_lt hold)

theorem FormInv.easyPerform {env : PerformEnv} (hinv : FormInv hist st)
    (h : step win st (.easyPerform env) = some st') : FormInv (hist ++ [.easyPerform env]) st' := by
  have hsent := step_easyPerform_sent h
  have hl : Lost (hist ++ [.easyPerform env]) ↔ Lost hist := by simp [lost_snoc]
  have hmem : .mimeInit ∈ hist ++ [.easyPerform env] ↔ .mimeInit ∈ hist := by simp
  unfold Frame.Sent at hsent
  by_cases hmulti : st.obj.isMultipart = true
  · have hmime : .mimeInit ∈ hist := hinv.multipart.mp hmulti
    have hposted : Posted (hist ++ [.easyPerform env]) := posted_snoc.mpr (Or.inr ⟨⟨env, rfl⟩, hmime⟩)
    rw [if_pos (show (Frame.enter st).st.obj.isMultipart = true from hmulti)] at hsent
    obtain ⟨haccept, hrefuse⟩ := hinv.offer
    by_cases hlost : Lost hist
    · refine hinv.of_kept ?_ hmem (iff_of_true hposted hlost.posted) hl
      refine FormKept.trans (t := (Frame.enter st).sendMultipart.st) ⟨rfl, rfl, rfl, rfl, ?_, ?_⟩
        hsent.formKept
      · rw [hrefuse hlost, Handles.modify_parent]
      · rw [hrefuse hlost]
        exact Handles.modify_mimepost fun _ => rfl
    · obtain ⟨hset, hparent⟩ := haccept hlost
      have hset' : st'.set = (Frame.enter st).sendMultipart.st.set := by
        rw [St.set, hsent.handles, hsent.m_curl]
        rfl
      have hparent' : st'.handles.parent st'.obj.m_mime = some st'.obj.m_curl := by
        rw [hsent.handles, hsent.m_mime, hsent.m_curl]
        exact hparent
      refine ⟨?_, ?_, ?_, .attached hposted (mt hl.mp hlost) hparent'⟩
      · rw [hsent.isMultipart, hmem]
        exact hinv.multipart
      · rw [hsent.m_curl, hsent.nEasy]
        exact hinv.live
      · rw [hset', hset, if_pos hparent', hsent.m_mime]
        rfl
  · have hnot : .mimeInit ∉ hist := mt hinv.multipart.mpr hmulti
    rw [if_neg (show ¬ (Frame.enter st).st.obj.isMultipart = true from hmulti)] at hsent
    refine hinv.of_kept ?_ hmem ?_ hl
    · exact FormKept.trans (t := (Frame.enter st).st) ⟨rfl, rfl, rfl, rfl, rfl, fun _ => rfl⟩ hsent
    · rw [posted_snoc]
      exact or_iff_left fun hand => hnot hand.2

theorem easyCleanup_handles (st : St) :
    st.easyCleanup.handles = st.handles.modify st.proc.nEasy fun _ => .init := by
  unfold St.easyCleanup
  simp only [St.setopt_handles, St.setopt_obj]
  rw [Handles.vsetopt_of_notMem (o := .VERBOSE) (by decide),
    Handles.vsetopt_of_notMem (o := .TRANSFER_ENCODING) (by decide),
    Handles.vsetopt_of_notMem (o := .ACCEPT_ENCODING) (by decide),
    Handles.vsetopt_of_notMem (o := .SSL_VERIFYHOST) (by decide),
    Handles.vsetopt_of_notMem (o := .SSL_VERIFYPEER) (by decide)]
  show Proc.handles (Proc.curlEasyInit _) = _
  simp only [Proc.curlEasyInit_handles, Proc.curlSlistFreeAll_handles]
  rfl

theorem FormInv.easyCleanup (hinv : FormInv hist st) :
    FormInv (hist ++ [.easyCleanup]) st.easyCleanup := by
  have hp : Posted (hist ++ [.easyCleanup]) ↔ Posted hist := by simp [posted_snoc]
  have hcurl : st.easyCleanup.obj.m_curl = st.proc.nEasy := rfl
  have hparent : st.easyCleanup.handles.parent st.easyCleanup.obj.m_mime =
      st.handles.parent st.obj.m_mime := by
    rw [easyCleanup_handles, Handles.modify_parent]
    rfl
  have hlive := hinv.live
  refine ⟨?_, Nat.lt_succ_self _, ?_, ?_⟩
  · have hmem : .mimeInit ∈ hist ++ [.easyCleanup] ↔ .mimeInit ∈ hist := by simp
    rw [hmem]
    exact hinv.multipart
  · -- the new handle has no form, and no form has the new handle
    have hnew : st.easyCleanup.set.mimepost = none := by
      rw [St.set, hcurl, easyCleanup_handles, Handles.modify_set_self]
      rfl
    rw [hnew, hparent, hcurl, if_neg]
    cases hinv.stage with
    | unused hposted hnone => simp [hnone]
    | attached hposted hlost hsome => simp [hsome, Nat.ne_of_lt hlive]
    | lost hlost h hold hsome => simp [hsome, Nat.ne_of_lt (Nat.lt_trans hold hlive)]
  · cases hinv.stage with
    | unused hposted hnone => exact .unused (mt hp.mp hposted) (hparent.trans hnone)
    | attached hposted hlost hsome =>
        exact .lost (lost_snoc.mpr (Or.inr ⟨rfl, hposted⟩)) _ hlive (hparent.trans hsome)
    | lost hlost h hold hsome =>
        exact .lost (lost_snoc.mpr (Or.inl hlost)) h (Nat.lt_trans hold hlive) (hparent.trans hsome)

theorem FormInv.mimeInit (hinv : FormInv hist st) : FormInv (hist ++ [.mimeInit]) st.mimeInit := by
  have hp : Posted (hist ++ [.mimeInit]) ↔ Posted hist := by simp [posted_snoc]
  have hl : Lost (hist ++ [.mimeInit]) ↔ Lost hist := by simp [lost_snoc]
  refine ⟨iff_of_true rfl (by simp), hinv.live, hinv.mimepost, ?_⟩
  cases hinv.stage with
  | unused hposted hnone => exact .unused (mt hp.mp hposted) hnone
  | attached hposted hlost hsome => exact .attached (hp.mpr hposted) (mt hl.mp hlost) hsome
  | lost hlost h hold hsome => exact .lost (hl.mpr hlost) h hold hsome

theorem step_formInv (hop : op.LeavesForm) (hinv : FormInv hist st)
    (h : step win st op = some st') : FormInv (hist ++ [op]) st' := by
  cases hquiet : op.concernsForm with
  | false =>
      obtain ⟨hmime, hperform, hcleanup⟩ : Op.mimeInit ≠ op ∧ (∀ env, op ≠ .easyPerform env) ∧
          op ≠ .easyCleanup := by
        refine ⟨?_, ?_, ?_⟩
        · rintro rfl
          cases hquiet
        · rintro env rfl
          cases hquiet
        · rintro rfl
          cases hquiet
      refine hinv.of_kept (step_formKept hop hquiet h) ?_ ?_ ?_
      · simp [hmime]
      · simp [posted_snoc, hperform]
      · simp [lost_snoc, hcleanup]
  | true =>
    cases op with
    | easyPerform env => exact hinv.easyPerform h
    | easyCleanup =>
        obtain rfl := Option.some.inj h
        exact hinv.easyCleanup
    | mimeInit =>
        obtain rfl := Option.some.inj h
        exact hinv.mimeInit
    | _ => cases hquiet

/-- A new object has a form that was given to no handle. -/
theorem formInv_construct (junk : Junk) (p : Proc) : FormInv [] (construct junk p) := by
  have hhandles : (construct junk p).handles =
      (p.handles.modify p.nEasy fun _ => .init).setParent (construct junk p).obj.m_mime none := by
    unfold construct
    simp only [St.setopt_handles, St.setopt_obj]
    rw [Handles.vsetopt_of_notMem (o := .FOLLOWLOCATION) (by decide),
      Handles.vsetopt_of_notMem (o := .VERBOSE) (by decide),
      Handles.vsetopt_of_notMem (o := .TRANSFER_ENCODING) (by decide),
      Handles.vsetopt_of_notMem (o := .ACCEPT_ENCODING) (by decide),
      Handles.vsetopt_of_notMem (o := .SSL_VERIFYHOST) (by decide),
      Handles.vsetopt_of_notMem (o := .SSL_VERIFYPEER) (by decide)]
    show Proc.handles (Proc.curlMimeInit _ _) = _
    simp only [Proc.curlMimeInit_handles, Proc.curlSlistAppend_handles, Proc.assignCurlCache_handles,
      Proc.curlEasyInit_handles]
  have hparent : (construct junk p).handles.parent (construct junk p).obj.m_mime = none := by
    rw [hhandles, Handles.setParent_parent, Function.update_self]
  have hnone : ¬ Posted [] := fun ⟨_, hsub⟩ => by simp at hsub
  refine ⟨by simp [construct], ?_, ?_, .unused hnone hparent⟩
  · show p.nEasy < (Proc.assignCurlCache p.nEasy p.curlEasyInit).nEasy
    rw [Proc.assignCurlCache_nEasy]
    exact Nat.lt_succ_self _
  · rw [hparent, if_neg (by simp), St.set, hhandles, Handles.setParent_set]
    show ((p.handles.modify p.nEasy fun _ => .init).set p.nEasy).mimepost = none
    rw [Handles.modify_set_self]
    rfl

theorem run_formInv (win : Win32) (junk : Junk) (p : Proc) :
    ∀ ops, (∀ op ∈ ops, op.LeavesForm) → ∀ st, run win junk p ops = some st → FormInv ops st :=
  runOps_induct (formInv_construct junk p) fun _ _ _ _ hop hinv hstep => step_formInv hop hinv hstep

end Inv

section Request

variable {win : Win32} {junk : Junk} {p : Proc} {hist : List Op} {st : St} {env : PerformEnv} {f : Frame}

/-- The options for sending decide what a multipart request is. -/
theorem performPoint_multipart (hmulti : st.obj.isMultipart = true)
    (hpoint : st.performPoint win env = .ok f) :
    f.st.set = (Frame.enter st).sendMultipart.st.set ∧ f.st.obj.m_mime = st.obj.m_mime := by
  obtain ⟨g, hg, hsilent⟩ := St.performPoint_silent hpoint
  have hmulti' : (Frame.enter st).st.obj.isMultipart = true := hmulti
  rw [Frame.sendSetup, if_pos hmulti'] at hg
  obtain rfl := Outcome.ok.inj hg
  refine ⟨?_, hsilent.m_mime⟩
  rw [St.set, hsilent.handles, hsilent.m_curl]
  rfl

/-- A form that is not lost is posted. -/
theorem FormInv.posts (hinv : FormInv hist st) (hpoint : st.performPoint win env = .ok f)
    (hmulti : st.obj.isMultipart = true) (hlost : ¬ Lost hist) :
    f.st.httpreq = .POST_MIME ∧ f.st.set.mimepost = some f.st.obj.m_mime := by
  obtain ⟨hset, hmime⟩ := performPoint_multipart hmulti hpoint
  obtain ⟨hform, -⟩ := hinv.offer.1 hlost
  rw [St.httpreq, hset, hform, hmime]
  exact ⟨rfl, rfl⟩

/-- In place of a form that is lost an ordinary body is posted, or nothing. -/
theorem FormInv.posts_body (hinv : FormInv hist st) (hpoint : st.performPoint win env = .ok f)
    (hmulti : st.obj.isMultipart = true) (hlost : Lost hist) :
    f.st.set.mimepost = none ∧ f.st.httpreq = if f.st.set.opt_no_body then .HEAD else .POST := by
  obtain ⟨hset, -⟩ := performPoint_multipart hmulti hpoint
  have hrefused : f.st.set = { st.set with method := .POST } := by
    rw [hset, St.set, hinv.offer.2 hlost]
    exact Handles.modify_set_self _
  have hmethod : f.st.set.method = .POST := by rw [hrefused]
  constructor
  · rw [hrefused]
    exact hinv.mimepost_of_lost hlost
  · rw [← hmethod]
    exact (Handles.allSane_ofLog f.st.proc.log f.st.obj.m_curl).httpreq_eq

end Request

/-- A multipart request posts the form of the object exactly when the handle was
    not replaced after an earlier multipart request.  Otherwise libcurl refuses
    the form, and an ordinary body is posted in its place, or nothing at all. -/
theorem form_posted_along (win : Win32) (junk : Junk) (p : Proc) (ops : List Op)
    (hops : ∀ op ∈ ops, op.LeavesForm) :
    Along (step win) (construct junk p) ops (AtRequest win fun hist st _ f =>
      st.obj.isMultipart = true →
        (f.st.httpreq = .POST_MIME ∧ f.st.set.mimepost = some f.st.obj.m_mime ↔ ¬ Lost hist) ∧
          (Lost hist → f.st.set.mimepost = none ∧
            f.st.httpreq = if f.st.set.opt_no_body then .HEAD else .POST)) := by
  rintro hist op rest rfl st hrun env f rfl hpoint hmulti
  have hinv := run_formInv win junk p hist (fun op hop => hops op (by simp [hop])) st hrun
  refine ⟨⟨?_, fun hlost => hinv.posts hpoint hmulti hlost⟩,
    fun hlost => hinv.posts_body hpoint hmulti hlost⟩
  rintro ⟨-, hform⟩ hlost
  rw [(hinv.posts_body hpoint hmulti hlost).1] at hform
  cases hform

/-- A script that posts the form, replaces the handle and wants to post the form
    again. -/
def postAfterCleanup : List Op := [.mimeInit, .easyPerform .answered, .easyCleanup, .easyPerform .answered]

theorem form_posted_along_postAfterCleanup :
    Along (step Win32.ascii) (construct Junk.zero dllMain) postAfterCleanup
      (AtRequest Win32.ascii fun hist st _ f =>
        st.obj.isMultipart = true →
          (f.st.httpreq = .POST_MIME ∧ f.st.set.mimepost = some f.st.obj.m_mime ↔ ¬ Lost hist) ∧
            (Lost hist → f.st.set.mimepost = none ∧
              f.st.httpreq = if f.st.set.opt_no_body then .HEAD else .POST)) :=
  form_posted_along Win32.ascii Junk.zero dllMain postAfterCleanup
    (by simp [postAfterCleanup, Op.LeavesForm])

example : ∃ st f, run Win32.ascii Junk.zero dllMain (postAfterCleanup.take 3) = some st ∧
    st.obj.isMultipart = true ∧ st.performPoint Win32.ascii .answered = .ok f ∧
    f.st.httpreq = .POST ∧ f.st.set.mimepost = none :=
  ⟨_, _, rfl, rfl, rfl, by decide, by decide⟩

end Curl1C
