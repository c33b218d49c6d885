/-
  Curl1C.Mime.Resend

  When a form cannot be sent again.

  A part without data and file has no seek function in libcurl, and neither has a
  file whose size is not known.  Once such a part was read, rewinding the form
  fails, and with it every further request: `Stuck` is the state of the form then.
  A form of known size is not read behind its last byte, so what counts is that all
  of its text was delivered, and not that its end was met.

  Main result: `form_not_resent`.
-/

import Curl1C.Mime.Form

namespace Curl1C.Mime

open Lib Dyn

variable {fs : FileSys} {b : Boundary} {args : List PartCall} {form form' : Form}

/-- A part that was read and cannot be read again. -/
def StuckPart (p : Leaf) : Prop :=
  p.state.state.toNat > p.targetstate.toNat ∧ (Mimepart.seek noSeek p.content).2 = false

/-- A form with such a part, in a state in which libcurl rewinds its parts. -/
structure Stuck (form : Form) : Prop where
  tok : Mimestate.BODY.toNat < form.state.state.toNat
  part : ∃ mime datasize, form.content = .MULTIPART mime datasize ∧ mime.state.state ≠ .BEGIN ∧
    ∃ p ∈ mime.parts, StuckPart p

/-! ## A stuck form stays stuck -/

theorem StuckPart.kept {p q : Leaf} (h : StuckPart p) (hpq : p.Kept q) : StuckPart q := by
  have hstate := hpq.state_eq
  obtain ⟨hdrs, st, -, rfl⟩ := hpq
  exact ⟨hstate ▸ h.1, h.2⟩

theorem StuckPart.rewind {p : Leaf} (h : StuckPart p) :
    (leafRewind p).2 = false ∧ StuckPart (leafRewind p).1 := by
  obtain ⟨hgt, hseek⟩ := h
  have hrun : leafRewind p = _ := Mimepart.mimePartRewind_of_gt hgt
  have hagain : (Mimepart.seek noSeek (Mimepart.seek noSeek p.content).1).2 = false := by
    match hc : p.content with
    | .NONE => rfl
    | .DATA data => rw [hc] at hseek; cases hseek
    | .FILE name none fp => rfl
    | .FILE name (some d) fp => rw [hc] at hseek; cases hseek
    | .MULTIPART arg datasize => exact arg.elim
  rw [hrun, hseek]
  exact ⟨rfl, hgt, hagain⟩

/-- A part that is prepared with the others is still there. -/
theorem exists_kept {p : Leaf} {parts parts' : List Leaf}
    (hkept : List.Forall₂ Mimepart.Kept parts parts') (hp : p ∈ parts) :
    ∃ q ∈ parts', p.Kept q := by
  induction hkept with
  | nil => cases hp
  | cons hpq _ ih =>
      rcases List.mem_cons.mp hp with rfl | hp
      · exact ⟨_, List.mem_cons_self, hpq⟩
      · obtain ⟨q, hq, hkept⟩ := ih hp
        exact ⟨q, List.mem_cons_of_mem _ hq, hkept⟩

theorem Stuck.addPart (h : Stuck form) (a : PartCall) : Stuck (form.addPart fs a) := by
  obtain ⟨mime, datasize, hc, hbegin, p, hp, hstuck⟩ := h.part
  -- a new part comes behind the one that cannot be read again
  cases halloc : a.allocated with
  | true =>
      rw [Form.addPart_of_allocated hc halloc]
      exact ⟨h.tok, _, _, rfl, hbegin, p, List.mem_append_left _ hp, hstuck⟩
  | false =>
      rw [Form.addPart_of_not_allocated halloc]
      exact h

theorem Stuck.prepares (h : Stuck form) (hp : Prepares form form') : Stuck form' := by
  obtain ⟨mime, datasize, parts, hdrs, st, hc, hkept, hst, rfl⟩ := hp
  obtain ⟨mime', datasize', hc', hbegin, p, hp, hstuck⟩ := h.part
  obtain ⟨rfl, rfl⟩ := Content.MULTIPART.inj (hc.symm.trans hc')
  obtain ⟨q, hq, hpq⟩ := exists_kept hkept hp
  exact ⟨hst ▸ h.tok, _, _, rfl, hbegin, q, hq, hstuck.kept hpq⟩

theorem Stuck.rewind (h : Stuck form) (hbody : form.bodyOnly = true) :
    form.rewind.2 = false ∧ Stuck form.rewind.1 := by
  obtain ⟨mime, datasize, hc, hbegin, p, hp, hstuck⟩ := h.part
  have htarget : form.targetstate = .BODY := by rw [Mimepart.targetstate, hbody]; rfl
  have hrun : form.rewind = _ := Mimepart.mimePartRewind_of_gt (by rw [htarget]; exact h.tok)
  -- the rewind of one part fails, and so the multipart stays where it is
  have hall : (mime.parts.all fun part => (leafRewind part).2) = false := by
    rw [List.all_eq_false]
    exact ⟨p, hp, by simp [hstuck.rewind.1]⟩
  have hseek : CurlMime.mimeSubpartsSeek leafRewind mime =
      ({ mime with parts := mime.parts.map fun part => (leafRewind part).1 }, false) := by
    simp [CurlMime.mimeSubpartsSeek, hbegin, hall]
  have hcontent : Mimepart.seek (CurlMime.mimeSubpartsSeek leafRewind) form.content =
      (.MULTIPART { mime with parts := mime.parts.map fun part => (leafRewind part).1 } datasize,
        false) := by
    rw [hc, Mimepart.seek, hseek]
  rw [hrun, hcontent]
  exact ⟨rfl, h.tok, _, _, rfl, hbegin, _, List.mem_map_of_mem hp, hstuck.rewind.2⟩

/-- What was read of a form that was sent. -/
def FormReply.delivered : FormReply → Option (List Byte)
  | .sent _ _ blocks => some (blocks.map Fetch.values).flatten
  | _ => none

/-- Whether a reply says that the form was sent. -/
def FormReply.isSent (r : FormReply) : Bool := r.delivered.isSome

/-- No request on a stuck form is sent. -/
theorem Stuck.step (hfs : fs.Stable) (hh : Holds fs b args form) (h : Stuck form) {op : FormOp}
    (hroomy : op.Roomy) {r : FormReply} (hstep : formStep fs form op = some (form', r)) :
    Holds fs b (op.after args) form' ∧ Stuck form' ∧ r.isSent = false := by
  cases op with
  | addPart a =>
      obtain ⟨rfl, rfl⟩ := Prod.mk.inj (Option.some.inj hstep)
      exact ⟨hh.addPart hfs hroomy, h.addPart a, rfl⟩
  | request env =>
      obtain ⟨form₁, hbody, hp, -⟩ | ⟨ready, hp, -, -, hbody⟩ := hh.httpBody env
      · rw [formStep, hbody] at hstep
        obtain ⟨rfl, rfl⟩ := Prod.mk.inj (Option.some.inj hstep)
        exact ⟨hh.prepares hp, h.prepares hp, rfl⟩
      · have hready := hh.prepares hp
        have hbodyOnly : ready.bodyOnly = true := by
          obtain ⟨_, _, _, _, _, _, _, _, rfl⟩ := hp
          rfl
        obtain ⟨hfail, hstuck⟩ := (h.prepares hp).rewind hbodyOnly
        obtain ⟨hsound, hfixed⟩ := (formLevel_rewinds fs).seek_sound ready hready.sound
        rw [formStep, hbody, Form.rewound, hfail] at hstep
        obtain ⟨rfl, rfl⟩ := Prod.mk.inj (Option.some.inj hstep)
        exact ⟨hready.of_fixed hsound hfixed, hstuck, rfl⟩

/-- Nor is any later one. -/
theorem Stuck.run (hfs : fs.Stable) (hh : Holds fs b args form) (h : Stuck form) {ops : List FormOp}
    (hroomy : ∀ op ∈ ops, op.Roomy) :
    ∃ form' rs, replyRun (formStep fs) form ops = some (form', rs) ∧ ∀ r ∈ rs, r.isSent = false := by
  have hnext : ∀ args form op, FormOp.Roomy op → Holds fs b args form ∧ Stuck form →
      ∃ form' r, formStep fs form op = some (form', r) ∧
        (Holds fs b (op.after args) form' ∧ Stuck form') ∧ r.isSent = false := by
    rintro args form op hop ⟨hh, h⟩
    obtain ⟨form', r, hstep, -⟩ := hh.step hfs hop
    obtain ⟨hh', h', hnot⟩ := h.step hfs hh hop hstep
    exact ⟨form', r, hstep, ⟨hh', h'⟩, hnot⟩
  obtain ⟨form', rs, hrun, -, hanswered⟩ := answers_run ⟨hh, h⟩ hnext hroomy
  exact ⟨form', rs, hrun, hanswered.forall fun _ _ _ hnot => hnot⟩

/-! ## How a form gets stuck -/

/-- A part of which everything was read is behind its headers. -/
theorem read_of_rest_done {p : Leaf} (hbody : p.bodyOnly = false)
    (hrest : (leafLevel fs).rest p = .done) : p.state.state.toNat > p.targetstate.toNat := by
  have htarget : p.targetstate = .BEGIN := by rw [Mimepart.targetstate, hbody]; rfl
  rw [htarget]
  by_contra hle
  have hbegin : p.state.state = .BEGIN := by
    revert hle
    cases p.state.state <;> simp [Mimestate.toNat]
  -- the empty line behind the headers is still to come
  have hin : p.state.state.inHeader = true := by rw [hbegin]; rfl
  have hpending := (Stream.prepend_eq_done_iff.mp ((Mimepart.rest_of_inHeader hin).symm.trans hrest)).1
  simp [Mimepart.pending, hbegin, hbody, Mimepart.headers, crlf] at hpending

theorem seek_eq_seekable (p : Leaf) :
    (Mimepart.seek noSeek p.content).2 = ((leafLevel fs).fixed p).seekable := by
  show (Mimepart.seek noSeek p.content).2 = (p.content.fixed fs Level.none).seekable
  match p.content with
  | .NONE => rfl
  | .DATA data => rfl
  | .FILE name none fp => rfl
  | .FILE name (some d) fp => rfl
  | .MULTIPART arg datasize => exact arg.elim

theorem mime_inv {mime : CurlMime Leaf} {datasize : Option Nat}
    (hc : form.content = .MULTIPART mime datasize) (hinv : (formLevel fs).Inv form) :
    mime.Inv (leafLevel fs) := by
  have hsound : form.content.Sound fs (mimeLevel fs).Inv := hinv.sound
  rw [hc] at hsound
  exact hsound

/-- The multipart of a form that was read to its end was read to its end, and the
    form is behind its headers. -/
theorem mime_rest_done {mime : CurlMime Leaf} {datasize : Option Nat}
    (hc : form.content = .MULTIPART mime datasize) (hinv : (formLevel fs).Inv form)
    (hrest : (formLevel fs).rest form = .done) :
    (mimeLevel fs).rest mime = .done ∧ Mimestate.BODY.toNat < form.state.state.toNat := by
  have hcontent : ∀ offset, form.content.rest fs (mimeLevel fs) offset = (mimeLevel fs).rest mime := by
    rw [hc]
    exact fun _ => rfl
  cases hinv.stage with
  | unread htok hok hplaced hfresh =>
      -- a multipart of which nothing was read has its first boundary in front
      have hdone := (Stream.prepend_eq_done_iff.mp
        ((Mimepart.rest_of_inHeader htok).symm.trans hrest)).2
      rw [hcontent] at hdone
      rw [hc] at hfresh
      exact absurd hfresh.tok (CurlMime.passed_of_done (mime_inv hc hinv) hdone).1
  | reading htok hok hplaced =>
      have hdone := (Mimepart.rest_of_ok htok hok).symm.trans hrest
      rw [hcontent] at hdone
      exact ⟨hdone, by rw [htok]; decide⟩
  | failed htok hstatus =>
      exact absurd ((Mimepart.rest_of_error htok hstatus).symm.trans hrest) (by simp [Stream.broken, Stream.done])
  | ended htok hsub =>
      refine ⟨hsub mime datasize hc, ?_⟩
      rcases htok with htok | ⟨htok, -⟩ <;> rw [htok] <;> decide

/-- A form that was read to its end is stuck if it has a part that cannot be read
    again. -/
theorem Holds.stuck (h : Holds fs b args form) (hinv : (formLevel fs).Inv form)
    (hrest : (formLevel fs).rest form = .done) {a : PartCall} (ha : a ∈ args)
    (hseek : a.seekable fs = false) : Stuck form := by
  obtain ⟨mime, datasize, hc, -, hparts⟩ := h.multipart
  obtain ⟨hdone, htok⟩ := mime_rest_done hc hinv hrest
  have hmime := mime_inv hc hinv
  obtain ⟨hbegin, hpassed⟩ := CurlMime.passed_of_done hmime hdone
  have hmem : (a.part fs).bare ∈ mime.parts.map Mimepart.bare := by
    rw [hparts]
    exact List.mem_map_of_mem ha
  obtain ⟨p, hp, hbare⟩ := List.mem_map.mp hmem
  refine ⟨htok, mime, datasize, hc, hbegin, p, hp, read_of_rest_done ?_ (hmime.passed p (hpassed ▸ hp)), ?_⟩
  · have hbody : p.bare.bodyOnly = (a.part fs).bare.bodyOnly := congrArg Mimepart.bodyOnly hbare
    rw [PartCall.part_eq] at hbody
    exact hbody
  · rw [@seek_eq_seekable fs, (@bare_congr fs p (a.part fs) hbare).2.1, PartCall.part_seekable, hseek]

/-- A request for which the whole text of the form was read leaves it stuck. -/
theorem Holds.sent_stuck (h : Holds fs b args form) {env : RequestEnv}
    (hroomy : (FormOp.request env).Roomy) {r : FormReply}
    (hstep : formStep fs form (.request env) = some (form', r)) {bytes : List Byte}
    (hsent : r.delivered = some bytes) (hall : formText fs b env args = .ofList bytes) {a : PartCall}
    (ha : a ∈ args) (hseek : a.seekable fs = false) : Stuck form' := by
  have hL := formLevel_rewinds fs
  obtain ⟨form₁, hbody, -, -⟩ | ⟨ready, hp, -, htext, hbody⟩ := h.httpBody env
  · rw [formStep, hbody] at hstep
    obtain ⟨-, rfl⟩ := Prod.mk.inj (Option.some.inj hstep)
    cases hsent
  · have hready := h.prepares hp
    cases hok : ready.rewind.2 with
    | false =>
        rw [formStep, hbody, Form.rewound, hok] at hstep
        obtain ⟨-, rfl⟩ := Prod.mk.inj (Option.some.inj hstep)
        cases hsent
    | true =>
        obtain ⟨form₁, blocks₁, hpulls, hinv, hfixed, -, hleft⟩ := hready.pulls hok hroomy
        simp only [formStep, hbody, Form.rewound, hok, if_true, Option.bind_some, hpulls,
          Option.map_some, Option.some.injEq, Prod.mk.injEq] at hstep
        obtain ⟨rfl, rfl⟩ := hstep
        obtain rfl := Option.some.inj hsent
        have hrest : (formLevel fs).rest form₁ = .done := by
          rw [htext, hall] at hleft
          obtain ⟨hvalues, hending⟩ := Stream.ext_iff.mp hleft
          exact Stream.ext (List.self_eq_append_right.mp hvalues) hending.symm
        exact (hready.of_fixed (hL.inv_sound _ hinv) hfixed).stuck hinv hrest ha hseek

/-- Once all bytes of a form with a part that is neither data nor a file of known size
    were read for a request, no later request sends it: whatever is added and tried
    then, each request is given up. -/
theorem form_not_resent (fs : FileSys) (hfs : fs.Stable) (b : Boundary) (ops ops' : List FormOp)
    (env : RequestEnv) (hroomy : ∀ op ∈ ops ++ .request env :: ops', op.Roomy)
    (hpart : ∃ a ∈ ops.foldl FormOp.after [], a.seekable fs = false) :
    ∃ form rs r rs', rs.length = ops.length ∧
      replyRun (formStep fs) (Form.new b) (ops ++ .request env :: ops') = some (form, rs ++ r :: rs') ∧
      (∀ bytes, r.delivered = some bytes → formText fs b env (ops.foldl FormOp.after []) = .ofList bytes →
        ∀ r' ∈ rs', r'.isSent = false) := by
  obtain ⟨a, ha, hseek⟩ := hpart
  obtain ⟨hfirst, hreq, hlater⟩ : (∀ op ∈ ops, op.Roomy) ∧ (FormOp.request env).Roomy ∧
      ∀ op ∈ ops', op.Roomy := by
    rw [List.forall_mem_append, List.forall_mem_cons] at hroomy
    exact hroomy
  obtain ⟨form, rs, hrun, hholds, hanswered⟩ := (holds_new fs b).run hfs hfirst
  obtain ⟨form', r, hstep, hholds', -⟩ := hholds.step hfs hreq
  -- the reply decides whether the form is stuck from here on
  by_cases hsent : ∃ bytes, r.delivered = some bytes ∧
      formText fs b env (ops.foldl FormOp.after []) = .ofList bytes
  · obtain ⟨bytes, hsent, hall⟩ := hsent
    have hstuck : Stuck form' := hholds.sent_stuck hreq hstep hsent hall ha hseek
    obtain ⟨form'', rs', hrun', hnot⟩ := hstuck.run hfs hholds' hlater
    exact ⟨form'', rs, r, rs', hanswered.length_eq, replyRun_append hrun (replyRun_cons hstep hrun'),
      fun _ _ _ => hnot⟩
  · obtain ⟨form'', rs', hrun', -⟩ := hholds'.run hfs hlater
    exact ⟨form'', rs, r, rs', hanswered.length_eq, replyRun_append hrun (replyRun_cons hstep hrun'),
      fun bytes hr hall => absurd ⟨bytes, hr, hall⟩ hsent⟩

theorem form_not_resent_named :
    ∃ form rs r rs', rs.length = 1 ∧
      replyRun (formStep FileSys.bare) (Form.new Boundary.dashes)
          ([.addPart PartArgs.named.granted] ++ .request RequestEnv.plain :: [.request RequestEnv.plain]) =
        some (form, rs ++ r :: rs') ∧
      r.delivered = some (formText FileSys.bare Boundary.dashes RequestEnv.plain [PartArgs.named.granted]).values ∧
      ∀ r' ∈ rs', r'.isSent = false := by
  obtain ⟨form, rs, r, rs', hlen, hrun, hnot⟩ := form_not_resent FileSys.bare
    (by simp [FileSys.Stable, FileSys.bare]) Boundary.dashes [.addPart PartArgs.named.granted]
    [.request RequestEnv.plain] RequestEnv.plain (by simp [FormOp.Roomy, PartCall.named_granted, RequestEnv.plain])
    ⟨PartArgs.named.granted, by simp [FormOp.after, PartCall.addTo_granted], by decide⟩
  have hdelivered : (replyRun (formStep FileSys.bare) (Form.new Boundary.dashes)
      ([.addPart PartArgs.named.granted] ++ .request RequestEnv.plain :: [.request RequestEnv.plain])).map
        (fun p => (p.2.map FormReply.delivered)[1]?) =
      some (some (some (formText FileSys.bare Boundary.dashes RequestEnv.plain
        [PartArgs.named.granted]).values)) := by
    decide +kernel
  have hsent : r.delivered =
      some (formText FileSys.bare Boundary.dashes RequestEnv.plain [PartArgs.named.granted]).values := by
    rw [hrun, Option.map_some, Option.some.injEq, List.map_append, List.map_cons,
      List.getElem?_append_right (by simp [hlen])] at hdelivered
    simpa [hlen] using hdelivered
  exact ⟨form, rs, r, rs', hlen, hrun, hsent, hnot _ hsent (by decide +kernel)⟩

end Curl1C.Mime
