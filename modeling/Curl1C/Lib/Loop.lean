/-
  Curl1C.Lib.Loop

  Loops with a guard and a `break`.

  `loop guard body n s` tests its guard at most `n` times.  It has no result if
  a pass through the body has none, or if it does not end within these tests.
  `loop_total` is the rule of total correctness: an invariant, a measure that
  every pass lowers, and what holds where the loop is left.
-/

import Mathlib.Init

namespace Curl1C.Lib

variable {σ : Type*}

/-- How a pass through the body ends. -/
inductive Pass (σ : Type*) where
  /-- the guard is tested again -/
  | next (s : σ)
  /-- `break` -/
  | leave (s : σ)

/-- A loop whose guard is tested at most as often as the number says. -/
def loop (guard : σ → Bool) (body : σ → Option (Pass σ)) : Nat → σ → Option σ
  | 0, _ => none
  | n + 1, s =>
      if guard s then
        (body s).bind fun p =>
          match p with
          | .next t => loop guard body n t
          | .leave t => some t
      else some s

section Unfold

variable {guard : σ → Bool} {body : σ → Option (Pass σ)} {s t : σ}

theorem loop_exit (hguard : guard s = false) (n : Nat) : loop guard body (n + 1) s = some s := by
  simp [loop, hguard]

theorem loop_next (hguard : guard s = true) (hbody : body s = some (.next t)) (n : Nat) :
    loop guard body (n + 1) s = loop guard body n t := by
  simp [loop, hguard, hbody]

theorem loop_leave (hguard : guard s = true) (hbody : body s = some (.leave t)) (n : Nat) :
    loop guard body (n + 1) s = some t := by
  simp [loop, hguard, hbody]

end Unfold

/-- With more tests than the measure says, the loop ends, and `Q` holds then. -/
theorem loop_total {guard : σ → Bool} {body : σ → Option (Pass σ)} {I Q : σ → Prop} (μ : σ → Nat)
    (hexit : ∀ s, I s → guard s = false → Q s)
    (hbody : ∀ s, I s → guard s = true →
      (∃ t, body s = some (.next t) ∧ I t ∧ μ t < μ s) ∨ ∃ t, body s = some (.leave t) ∧ Q t)
    {n : Nat} {s : σ} (hI : I s) (hn : μ s < n) : ∃ t, loop guard body n s = some t ∧ Q t := by
  induction n generalizing s with
  | zero => exact absurd hn (Nat.not_lt_zero _)
  | succ n ih =>
      cases hguard : guard s with
      | false => exact ⟨s, by simp [loop, hguard], hexit s hI hguard⟩
      | true =>
          rcases hbody s hI hguard with ⟨t, ht, hIt, hlt⟩ | ⟨t, ht, hQ⟩
          · obtain ⟨u, hu, hQ⟩ := ih hIt (by omega)
            exact ⟨u, by simp [loop, hguard, ht, hu], hQ⟩
          · exact ⟨t, by simp [loop, hguard, ht], hQ⟩

end Curl1C.Lib
