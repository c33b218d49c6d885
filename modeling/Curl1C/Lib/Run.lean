/-
  Curl1C.Lib.Run

  Runs of a partial step function over a list of operations.

  `runOps step s ops` folds `step` over `ops`; `none` means that some step
  did not come back.  Invariants are indexed by the history that produced the
  state (`runOps_induct`), so a state can be compared with what the caller did
  so far and not only with a predicate on the state alone.

  `Along step s ops P` says that `P history state op` holds at every step the
  run takes, with the state as it is just before the step.
-/

import Mathlib.Data.List.Induction
import Mathlib.Logic.Basic

namespace Curl1C.Lib

variable {σ α : Type*} {step : σ → α → Option σ}

/-- The state after the operations `ops`, if every step comes back. -/
def runOps (step : σ → α → Option σ) (s : σ) (ops : List α) : Option σ :=
  ops.foldlM step s

@[simp] theorem runOps_nil (s : σ) : runOps step s [] = some s := rfl

@[simp] theorem runOps_cons (s : σ) (a : α) (ops : List α) :
    runOps step s (a :: ops) = (step s a).bind (fun t => runOps step t ops) := rfl

theorem runOps_append (s : σ) (xs ys : List α) :
    runOps step s (xs ++ ys) = (runOps step s xs).bind (fun t => runOps step t ys) := by
  simp only [runOps, List.foldlM_append]
  rfl

/-- A run that ends with the operation `a` comes from a run that stops just
    before it. -/
theorem runOps_snoc_eq_some {s t : σ} {ops : List α} {a : α} :
    runOps step s (ops ++ [a]) = some t ↔ ∃ u, runOps step s ops = some u ∧ step u a = some t := by
  rw [runOps_append, Option.bind_eq_some_iff]
  constructor
  · rintro ⟨u, hu, hstep⟩
    refine ⟨u, hu, ?_⟩
    simpa using hstep
  · rintro ⟨u, hu, hstep⟩
    exact ⟨u, hu, by simpa using hstep⟩

/-- Induction over runs: an invariant of the history and the state that holds
    at the start and survives every allowed step holds after every run. -/
theorem runOps_induct {I : List α → σ → Prop} {allowed : α → Prop} {s₀ : σ}
    (hinit : I [] s₀)
    (hstep : ∀ hist a s t, allowed a → I hist s → step s a = some t → I (hist ++ [a]) t) :
    ∀ ops, (∀ a ∈ ops, allowed a) → ∀ s, runOps step s₀ ops = some s → I ops s := by
  intro ops
  induction ops using List.reverseRecOn with
  | nil =>
      intro _ s hs
      obtain rfl : s₀ = s := by simpa using hs
      exact hinit
  | append_singleton hist a ih =>
      intro hall s hs
      obtain ⟨u, hu, hstepU⟩ := runOps_snoc_eq_some.mp hs
      have hIu : I hist u := ih (fun b hb => hall b (by simp [hb])) u hu
      exact hstep hist a u s (hall a (by simp)) hIu hstepU

/-- The same where every allowed step comes back: then so does every run. -/
theorem runOps_total {I : List α → σ → Prop} {allowed : α → Prop} {s₀ : σ} (hinit : I [] s₀)
    (hstep : ∀ hist a s, allowed a → I hist s → ∃ t, step s a = some t ∧ I (hist ++ [a]) t)
    {ops : List α} (hall : ∀ a ∈ ops, allowed a) : ∃ s, runOps step s₀ ops = some s ∧ I ops s := by
  induction ops using List.reverseRecOn with
  | nil => exact ⟨s₀, rfl, hinit⟩
  | append_singleton hist a ih =>
      obtain ⟨u, hu, hI⟩ := ih fun b hb => hall b (by simp [hb])
      obtain ⟨t, ht, hI'⟩ := hstep hist a u (hall a (by simp)) hI
      exact ⟨t, runOps_snoc_eq_some.mpr ⟨u, hu, ht⟩, hI'⟩

/-- An invariant of the state alone, kept by every step. -/
theorem runOps_invariant {I : σ → Prop} {s₀ : σ} (hinit : I s₀)
    (hstep : ∀ s a t, I s → step s a = some t → I t) {ops : List α} {s : σ}
    (h : runOps step s₀ ops = some s) : I s := by
  refine @runOps_induct σ α step (fun _ => I) (fun _ => True) s₀ hinit ?_ ops
    (fun _ _ => trivial) s h
  intro _ a s t _ hs
  exact hstep s a t hs

/-- `P history state op` holds at every step the run takes. -/
def Along (step : σ → α → Option σ) (s : σ) (ops : List α)
    (P : List α → σ → α → Prop) : Prop :=
  ∀ hist a rest, ops = hist ++ a :: rest →
    ∀ t, runOps step s hist = some t → P hist t a

@[simp] theorem along_nil {P : List α → σ → α → Prop} {s : σ} : Along step s [] P := by
  intro hist a rest h
  simp at h

/-- A property holds along a run if it holds at each position of it. -/
theorem along_of_forall_take {P : List α → σ → α → Prop} {s : σ} {ops : List α}
    (h : ∀ i : Fin ops.length, ∀ t ∈ runOps step s (ops.take i), P (ops.take i) t (ops.get i)) :
    Along step s ops P := by
  rintro hist a rest rfl t ht
  have hat := h ⟨hist.length, by simp⟩ t (by simpa using ht)
  simpa using hat

/-- A property holds along a run when it holds at its first step and, with the
    first operation in the history, along the rest. -/
theorem along_cons {P : List α → σ → α → Prop} {s : σ} {a : α} {ops : List α} :
    Along step s (a :: ops) P ↔
      P [] s a ∧ ∀ t, step s a = some t → Along step t ops (fun hist => P (a :: hist)) := by
  constructor
  · intro h
    refine ⟨h [] a ops rfl s rfl, ?_⟩
    intro t ht hist b rest hops u hu
    refine h (a :: hist) b rest (by simp [hops]) u ?_
    rw [runOps_cons, ht, Option.bind_some, hu]
  · rintro ⟨hfirst, hrest⟩ hist b rest hops u hu
    cases hist with
    | nil =>
        obtain ⟨rfl, rfl⟩ : a = b ∧ ops = rest := by simpa using hops
        obtain rfl : s = u := by simpa using hu
        exact hfirst
    | cons c hist =>
        obtain ⟨rfl, htail⟩ : a = c ∧ ops = hist ++ b :: rest := by simpa using hops
        rw [runOps_cons, Option.bind_eq_some_iff] at hu
        obtain ⟨t, ht, hu⟩ := hu
        exact hrest t ht hist b rest htail u hu

theorem Along.initial {P : List α → σ → α → Prop} {s : σ} {pre ops : List α}
    (hall : Along step s ops P) (hpre : pre <+: ops) : Along step s pre P := by
  obtain ⟨rest, rfl⟩ := hpre
  intro hist a rest' heq
  exact hall hist a (rest' ++ rest) (by simp [heq])

/-- An invariant kept by the steps with `P` holds after a run of such steps. -/
theorem along_invariant {I : σ → Prop} {P : List α → σ → α → Prop} {s₀ s : σ} {ops : List α}
    (hinit : I s₀) (hstep : ∀ hist s a t, I s → P hist s a → step s a = some t → I t)
    (h : runOps step s₀ ops = some s) (hall : Along step s₀ ops P) : I s := by
  induction ops using List.reverseRecOn generalizing s with
  | nil =>
      obtain rfl : s₀ = s := by simpa using h
      exact hinit
  | append_singleton hist a ih =>
      obtain ⟨u, hu, hlast⟩ := runOps_snoc_eq_some.mp h
      have hbefore : Along step s₀ hist P := hall.initial (List.prefix_append hist [a])
      exact hstep hist u a s (ih hu hbefore) (hall hist a [] rfl u hu) hlast

/-- Let `I` be kept by the steps with `P`, and let only such steps lead from a
    state with `I` to one with `J`.  Then `J`, which is weaker than `I`, holds
    after each step of a run exactly if `P` holds along it. -/
theorem forall_initial_iff_along {I J : σ → Prop} {P : List α → σ → α → Prop} {s₀ : σ}
    {ops : List α} (hinit : I s₀) (hweak : ∀ s, I s → J s)
    (hkeeps : ∀ hist s a rest, ops = hist ++ a :: rest → runOps step s₀ hist = some s → I s →
      P hist s a → ∃ t, step s a = some t ∧ I t)
    (honly : ∀ hist s a rest t, ops = hist ++ a :: rest → runOps step s₀ hist = some s → I s →
      step s a = some t → J t → P hist s a) :
    (∀ pre, pre <+: ops → ∃ s, runOps step s₀ pre = some s ∧ J s) ↔ Along step s₀ ops P := by
  -- both sides give `P` at the next step of a run that has kept `I` so far
  have hruns : (∀ hist s a rest, ops = hist ++ a :: rest → runOps step s₀ hist = some s → I s →
      P hist s a) → ∀ pre, pre <+: ops → ∃ s, runOps step s₀ pre = some s ∧ I s := by
    intro hnext pre
    induction pre using List.reverseRecOn with
    | nil => exact fun _ => ⟨s₀, rfl, hinit⟩
    | append_singleton hist a ih =>
        rintro ⟨rest, hops⟩
        have hops' : ops = hist ++ a :: rest := by simp [← hops]
        obtain ⟨s, hs, hI⟩ := ih ⟨a :: rest, hops'.symm⟩
        obtain ⟨t, ht, hI'⟩ := hkeeps hist s a rest hops' hs hI (hnext hist s a rest hops' hs hI)
        exact ⟨t, runOps_snoc_eq_some.mpr ⟨s, hs, ht⟩, hI'⟩
  constructor
  · intro hJ
    have hnext : ∀ hist s a rest, ops = hist ++ a :: rest → runOps step s₀ hist = some s → I s →
        P hist s a := by
      intro hist s a rest hops hs hI
      obtain ⟨t, ht, hJ'⟩ := hJ (hist ++ [a]) ⟨rest, by simp [hops]⟩
      obtain ⟨u, hu, hlast⟩ := runOps_snoc_eq_some.mp ht
      obtain rfl : s = u := Option.some.inj (hs.symm.trans hu)
      exact honly hist s a rest t hops hs hI hlast hJ'
    intro hist a rest hops s hs
    obtain ⟨u, hu, hI⟩ := hruns hnext hist ⟨a :: rest, hops.symm⟩
    obtain rfl : s = u := Option.some.inj (hs.symm.trans hu)
    exact hnext hist s a rest hops hs hI
  · intro hall pre hpre
    obtain ⟨s, hs, hI⟩ := hruns (fun hist s a rest hops hs _ => hall hist a rest hops s hs) pre hpre
    exact ⟨s, hs, hweak s hI⟩

/-- A run along which `P` fails has a first part that ends where it fails. -/
theorem exists_of_not_along {P : List α → σ → α → Prop} {s : σ} {ops : List α}
    (h : ¬ Along step s ops P) :
    ∃ hist a rest t, ops = hist ++ a :: rest ∧ runOps step s hist = some t ∧ ¬ P hist t a := by
  by_contra hnone
  refine h fun hist a rest hops t ht => ?_
  by_contra hP
  exact hnone ⟨hist, a, rest, t, hops, ht, hP⟩

/-- Two properties of steps that agree on every state an allowed run reaches
    hold along the same allowed runs. -/
theorem along_congr {P Q : List α → σ → α → Prop} {allowed : α → Prop} {s : σ} {ops : List α}
    (hall : ∀ a ∈ ops, allowed a)
    (h : ∀ hist t a, (∀ b ∈ hist, allowed b) → runOps step s hist = some t →
      (P hist t a ↔ Q hist t a)) :
    Along step s ops P ↔ Along step s ops Q := by
  have hsub : ∀ hist a rest, ops = hist ++ a :: rest → ∀ b ∈ hist, allowed b := by
    intro hist a rest hops b hb
    exact hall b (by simp [hops, hb])
  constructor
  · intro hP hist a rest hops t ht
    exact (h hist t a (hsub hist a rest hops) ht).mp (hP hist a rest hops t ht)
  · intro hQ hist a rest hops t ht
    exact (h hist t a (hsub hist a rest hops) ht).mpr (hQ hist a rest hops t ht)

end Curl1C.Lib
