/-
  Curl1C.Lib.Refine

  Refinement of a specification by a partial program, over whole runs.

  A program step may fail to come back (`none`); a step of the specification
  always has a next state and a reply.  If every allowed step of the program
  comes back with the reply of the specification and keeps a relation between
  the states, so does every run (`refines_run`); if they do so whenever they
  come back, so does every run that comes back (`refines_of_run`).  What is
  allowed is said of the states of the specification.
-/

import Mathlib.Data.List.Induction

namespace Curl1C.Lib

variable {σ τ α ρ : Type*}

/-- The state and the replies of a program after some operations. -/
def replyRun (step : σ → α → Option (σ × ρ)) (s : σ) (ops : List α) : Option (σ × List ρ) :=
  ops.foldlM (fun p a => (step p.1 a).map fun q => (q.1, p.2 ++ [q.2])) (s, [])

/-- The state and the replies of a specification after some operations. -/
def specRun (spec : τ → α → τ × ρ) (t : τ) (ops : List α) : τ × List ρ :=
  ops.foldl (fun p a => ((spec p.1 a).1, p.2 ++ [(spec p.1 a).2])) (t, [])

theorem specRun_snoc (spec : τ → α → τ × ρ) (t : τ) (ops : List α) (a : α) :
    specRun spec t (ops ++ [a]) = ((spec (specRun spec t ops).1 a).1,
      (specRun spec t ops).2 ++ [(spec (specRun spec t ops).1 a).2]) := by
  rw [specRun, List.foldl_append]
  rfl

theorem replyRun_snoc {step : σ → α → Option (σ × ρ)} {s s' s'' : σ} {rs : List ρ} {r : ρ}
    {ops : List α} {a : α} (hrun : replyRun step s ops = some (s', rs))
    (hstep : step s' a = some (s'', r)) :
    replyRun step s (ops ++ [a]) = some (s'', rs ++ [r]) := by
  rw [replyRun] at hrun
  simp [replyRun, List.foldlM_append, hrun, hstep]

theorem replyRun_snoc_some {step : σ → α → Option (σ × ρ)} {s s'' : σ} {rs : List ρ}
    {ops : List α} {a : α} (hrun : replyRun step s (ops ++ [a]) = some (s'', rs)) :
    ∃ s' rs' r, replyRun step s ops = some (s', rs') ∧ step s' a = some (s'', r) ∧
      rs = rs' ++ [r] := by
  rw [replyRun, List.foldlM_append, Option.bind_eq_bind, Option.bind_eq_some_iff] at hrun
  obtain ⟨⟨s', rs'⟩, hprefix, hlast⟩ := hrun
  rw [List.foldlM_cons, Option.bind_eq_bind, Option.bind_eq_some_iff] at hlast
  obtain ⟨p, hmap, hend⟩ := hlast
  obtain ⟨⟨t, r⟩, hstep, rfl⟩ := Option.map_eq_some_iff.mp hmap
  cases hend
  exact ⟨s', rs', r, hprefix, hstep, rfl⟩

/-- A run that goes on. -/
theorem replyRun_append {step : σ → α → Option (σ × ρ)} {s s' s'' : σ} {rs rs' : List ρ}
    {ops ops' : List α} (hrun : replyRun step s ops = some (s', rs))
    (hrun' : replyRun step s' ops' = some (s'', rs')) :
    replyRun step s (ops ++ ops') = some (s'', rs ++ rs') := by
  induction ops' using List.reverseRecOn generalizing s'' rs' with
  | nil =>
      cases hrun'
      simpa using hrun
  | append_singleton ops' a ih =>
      obtain ⟨u, us, r, hprefix, hnext, rfl⟩ := replyRun_snoc_some hrun'
      rw [← List.append_assoc, ← List.append_assoc]
      exact replyRun_snoc (ih hprefix) hnext

theorem replyRun_cons {step : σ → α → Option (σ × ρ)} {s s' s'' : σ} {r : ρ} {rs : List ρ} {a : α}
    {ops : List α} (hstep : step s a = some (s', r)) (hrun : replyRun step s' ops = some (s'', rs)) :
    replyRun step s (a :: ops) = some (s'', r :: rs) :=
  replyRun_append (@replyRun_snoc _ _ _ step s s s' [] r [] a rfl hstep) hrun

/-- What holds at each position of a run holds of every operation and the run
    before it. -/
theorem forall_snoc_of_take {P : List α → α → Prop} {ops : List α}
    (h : ∀ i : Fin ops.length, P (ops.take i) (ops.get i)) (pre : List α) (a : α)
    (hpre : pre ++ [a] <+: ops) : P pre a := by
  obtain ⟨rest, rfl⟩ := hpre
  have hat := h ⟨pre.length, by simp⟩
  simpa using hat

/-- A program whose allowed steps refine the specification refines it over
    every run that only takes allowed steps. -/
theorem refines_run {step : σ → α → Option (σ × ρ)} {spec : τ → α → τ × ρ} {R : σ → τ → Prop}
    {s : σ} {t : τ} (allowed : τ → α → Prop) (hinit : R s t)
    (hstep : ∀ s t a, R s t → allowed t a →
      ∃ s', step s a = some (s', (spec t a).2) ∧ R s' (spec t a).1) :
    ∀ ops, (∀ pre a, pre ++ [a] <+: ops → allowed (specRun spec t pre).1 a) →
      ∃ s', replyRun step s ops = some (s', (specRun spec t ops).2) ∧
        R s' (specRun spec t ops).1 := by
  intro ops
  induction ops using List.reverseRecOn with
  | nil => exact fun _ => ⟨s, rfl, hinit⟩
  | append_singleton ops a ih =>
      intro hallowed
      obtain ⟨u, hrun, hR⟩ := ih fun pre b hpre =>
        hallowed pre b (hpre.trans (List.prefix_append ops [a]))
      obtain ⟨u', hnext, hR'⟩ := hstep u _ a hR (hallowed ops a (List.prefix_refl _))
      rw [specRun_snoc]
      exact ⟨u', replyRun_snoc hrun hnext, hR'⟩

/-- A program whose allowed steps refine the specification whenever they come
    back refines it over every run that comes back. -/
theorem refines_of_run {step : σ → α → Option (σ × ρ)} {spec : τ → α → τ × ρ} {R : σ → τ → Prop}
    {s : σ} {t : τ} (allowed : τ → α → Prop) (hinit : R s t)
    (hstep : ∀ s t a s' r, R s t → allowed t a → step s a = some (s', r) →
      r = (spec t a).2 ∧ R s' (spec t a).1) :
    ∀ ops, (∀ pre a, pre ++ [a] <+: ops → allowed (specRun spec t pre).1 a) →
      ∀ s' rs, replyRun step s ops = some (s', rs) →
        rs = (specRun spec t ops).2 ∧ R s' (specRun spec t ops).1 := by
  intro ops
  induction ops using List.reverseRecOn with
  | nil =>
      intro _ s' rs hrun
      cases hrun
      exact ⟨rfl, hinit⟩
  | append_singleton ops a ih =>
      intro hallowed s' rs hrun
      obtain ⟨u, us, r, hprefix, hnext, rfl⟩ := replyRun_snoc_some hrun
      obtain ⟨rfl, hR⟩ := ih (fun pre b hpre =>
        hallowed pre b (hpre.trans (List.prefix_append ops [a]))) u us hprefix
      obtain ⟨rfl, hR'⟩ := hstep u _ a s' r hR (hallowed ops a (List.prefix_refl _)) hnext
      rw [specRun_snoc]
      exact ⟨rfl, hR'⟩

/-- Each operation got a reply that is allowed in the state of the specification
    it meets; `next` moves this state along. -/
inductive Answered (next : τ → α → τ) (P : τ → α → ρ → Prop) : τ → List α → List ρ → Prop where
  | nil (t : τ) : Answered next P t [] []
  | cons {t : τ} {a : α} {r : ρ} {ops : List α} {rs : List ρ} (h : P t a r)
      (htail : Answered next P (next t a) ops rs) : Answered next P t (a :: ops) (r :: rs)

theorem Answered.snoc {next : τ → α → τ} {P : τ → α → ρ → Prop} {t : τ} {ops : List α} {rs : List ρ}
    (h : Answered next P t ops rs) {a : α} {r : ρ} (hlast : P (ops.foldl next t) a r) :
    Answered next P t (ops ++ [a]) (rs ++ [r]) := by
  induction h with
  | nil t => exact .cons hlast (.nil _)
  | cons hfirst _ ih => exact .cons hfirst (ih hlast)

/-- A program whose allowed steps come back with a reply the specification allows
    does so over every run of such steps. -/
theorem answers_run {step : σ → α → Option (σ × ρ)} {next : τ → α → τ} {P : τ → α → ρ → Prop}
    {R : τ → σ → Prop} {allowed : α → Prop} {s : σ} {t : τ} (hinit : R t s)
    (hstep : ∀ t s a, allowed a → R t s → ∃ s' r, step s a = some (s', r) ∧ R (next t a) s' ∧ P t a r)
    {ops : List α} (hall : ∀ a ∈ ops, allowed a) :
    ∃ s' rs, replyRun step s ops = some (s', rs) ∧ R (ops.foldl next t) s' ∧
      Answered next P t ops rs := by
  induction ops using List.reverseRecOn with
  | nil => exact ⟨s, [], rfl, hinit, .nil t⟩
  | append_singleton ops a ih =>
      obtain ⟨u, rs, hrun, hR, hanswered⟩ := ih fun b hb => hall b (by simp [hb])
      obtain ⟨u', r, hnext, hR', hlast⟩ := hstep _ u a (hall a (by simp)) hR
      refine ⟨u', rs ++ [r], replyRun_snoc hrun hnext, ?_, hanswered.snoc hlast⟩
      rw [List.foldl_append]
      exact hR'

theorem Answered.length_eq {next : τ → α → τ} {P : τ → α → ρ → Prop} {t : τ} {ops : List α}
    {rs : List ρ} (h : Answered next P t ops rs) : rs.length = ops.length := by
  induction h with
  | nil t => rfl
  | cons _ _ ih => simp [ih]

/-- What every allowed reply is, every reply of a run is. -/
theorem Answered.forall {next : τ → α → τ} {P : τ → α → ρ → Prop} {Q : ρ → Prop} {t : τ}
    {ops : List α} {rs : List ρ} (h : Answered next P t ops rs) (hQ : ∀ t a r, P t a r → Q r) :
    ∀ r ∈ rs, Q r := by
  induction h with
  | nil t => simp
  | cons hfirst _ ih => exact List.forall_mem_cons.mpr ⟨hQ _ _ _ hfirst, ih⟩

end Curl1C.Lib
