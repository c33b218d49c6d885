/-
  Curl1C.Lib.Observe

  What is seen of a run, and runs that start from a state with an
  indeterminate part.

  `observations step obs s ops` lists what `obs` shows of each step, up to and
  including a step that does not come back.

  A start state with an indeterminate part is a family of states: `poke hist j`
  puts the contents `j` into whatever part of the state the history has not
  assigned yet.  `observations_determined_iff` is the two-run rule: if a step
  with `P` neither shows nor passes on the contents, and a step without `P`
  shows them, then the contents stay unseen exactly along the runs with `P`.

  `observations_eq_of_rel` is the rule without a history: related states that
  show the same and step to related states show the same for ever.
-/

import Curl1C.Lib.Run

namespace Curl1C.Lib

variable {σ α ω J : Type*}

/-- What `obs` shows of each step of the run. -/
def observations (step : σ → α → Option σ) (obs : σ → α → ω) : σ → List α → List ω
  | _, [] => []
  | s, a :: ops =>
      obs s a :: match step s a with
        | none => []
        | some t => observations step obs t ops

/-- Runs from related states show the same. -/
theorem observations_eq_of_rel {step : σ → α → Option σ} {obs : σ → α → ω} {R : σ → σ → Prop}
    (hobs : ∀ s t a, R s t → obs s a = obs t a)
    (hstep : ∀ s t a, R s t → Option.Rel R (step s a) (step t a))
    (ops : List α) {s t : σ} (hst : R s t) :
    observations step obs s ops = observations step obs t ops := by
  induction ops generalizing s t with
  | nil => rfl
  | cons a ops ih =>
      simp only [observations, hobs s t a hst]
      have hnext := hstep s t a hst
      generalize step s a = s', step t a = t' at hnext ⊢
      cases hnext with
      | none => rfl
      | some hrel => simp only [ih hrel]

section TwoRuns

variable {step : σ → α → Option σ} {obs : σ → α → ω} {poke : List α → J → σ → σ}
  {P : List α → σ → α → Prop}
  (hkeep : ∀ hist s a, P hist s a → ∀ j, obs (poke hist j s) a = obs s a ∧
    step (poke hist j s) a = (step s a).map (poke (hist ++ [a]) j))
  (hshow : ∀ hist s a, ¬ P hist s a → ∃ j j', obs (poke hist j s) a ≠ obs (poke hist j' s) a)

include hkeep

/-- A run along which every step has `P` shows the same for all contents. -/
theorem observations_poke (ops hist : List α) (s : σ)
    (hP : Along step s ops (fun h => P (hist ++ h))) (j : J) :
    observations step obs (poke hist j s) ops = observations step obs s ops := by
  induction ops generalizing hist s with
  | nil => rfl
  | cons a ops ih =>
      obtain ⟨hfirst, hrest⟩ := along_cons.mp hP
      rw [List.append_nil] at hfirst
      obtain ⟨hobs, hstep⟩ := hkeep hist s a hfirst j
      simp only [observations, hobs, hstep]
      cases hs : step s a with
      | none => rfl
      | some t =>
          have htail : Along step t ops (fun h => P ((hist ++ [a]) ++ h)) := by
            simpa [List.append_assoc] using hrest t hs
          simp only [Option.map_some, ih (hist ++ [a]) t htail]

include hshow

/-- If a run shows the same for all contents, every step of it has `P`. -/
theorem along_of_observations_eq (ops hist : List α) (s : σ)
    (heq : ∀ j j', observations step obs (poke hist j s) ops =
      observations step obs (poke hist j' s) ops) :
    Along step s ops (fun h => P (hist ++ h)) := by
  induction ops generalizing hist s with
  | nil => exact along_nil
  | cons a ops ih =>
      have hfirst : P hist s a := by
        by_contra hnot
        obtain ⟨j, j', hne⟩ := hshow hist s a hnot
        exact hne (List.cons.inj (heq j j')).1
      refine along_cons.mpr ⟨by rwa [List.append_nil], ?_⟩
      intro t ht
      have htail : Along step t ops (fun h => P ((hist ++ [a]) ++ h)) := by
        refine ih (hist ++ [a]) t fun j j' => ?_
        -- both runs have come to the same state up to the contents
        have hboth := (List.cons.inj (heq j j')).2
        rw [(hkeep hist s a hfirst j).2, (hkeep hist s a hfirst j').2, ht] at hboth
        exact hboth
      simpa [List.append_assoc] using htail

/-- The contents stay unseen exactly along the runs with `P`. -/
theorem observations_determined_iff (ops : List α) (s : σ) :
    (∀ j j', observations step obs (poke [] j s) ops = observations step obs (poke [] j' s) ops) ↔
      Along step s ops P := by
  constructor
  · intro heq
    exact along_of_observations_eq hkeep hshow ops [] s heq
  · intro hP j j'
    rw [observations_poke hkeep ops [] s hP j, observations_poke hkeep ops [] s hP j']

end TwoRuns

end Curl1C.Lib
