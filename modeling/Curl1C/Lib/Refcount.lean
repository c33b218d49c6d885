/-
  Curl1C.Lib.Refcount

  Reference counts of targets that numbered sources are attached to.

  Each source `i < n` is attached to at most one target (`f i`).  A count per
  target is right when it is the number of sources attached to it
  (`Counted`); moving a source from one target to another lowers one count and
  raises the other (`Counted.move`).

  Targets may also be referred to from elsewhere.  `CountedWith out` adds those
  references; `CountedWith.move_iff` says which change of the counts and of the
  other references goes with a moved source.
-/

import Mathlib.Data.Nat.Count
import Mathlib.Logic.Function.Basic

namespace Curl1C.Lib

variable {κ : Type*} [DecidableEq κ] {f : Nat → Option κ} {n : Nat} {c : κ → Nat}

/-- The count of every target is the number of sources attached to it. -/
def Counted (f : Nat → Option κ) (n : Nat) (c : κ → Nat) : Prop :=
  ∀ k, c k = Nat.count (fun i => f i = some k) n

/-- Another count at a target. -/
def changeCount (f : Nat → Nat) (k : Option κ) (c : κ → Nat) : κ → Nat :=
  match k with
  | none => c
  | some k => Function.update c k (f (c k))

/-- One source less at a target. -/
def dropCount : Option κ → (κ → Nat) → κ → Nat := changeCount (· - 1)

/-- One source more at a target. -/
def raiseCount : Option κ → (κ → Nat) → κ → Nat := changeCount (· + 1)

theorem dropCount_some (k : κ) (c : κ → Nat) : dropCount (some k) c = Function.update c k (c k - 1) := rfl

theorem raiseCount_some (k : κ) (c : κ → Nat) : raiseCount (some k) c = Function.update c k (c k + 1) := rfl

/-- How often the target `k` is meant by `v`: once or not at all. -/
def refTo (v : Option κ) (k : κ) : Nat := if v = some k then 1 else 0

@[simp] theorem refTo_none (k : κ) : refTo none k = 0 := rfl

@[simp] theorem refTo_self (k : κ) : refTo (some k) k = 1 := if_pos rfl

theorem refTo_of_ne {j k : κ} (hne : k ≠ j) : refTo (some j) k = 0 :=
  if_neg fun heq => hne (Option.some.inj heq).symm

/-- A count changes where it is meant, and the change there may be given as one everywhere. -/
theorem changeCount_eq {f : Nat → Nat} {op : Nat → Nat → Nat} (hone : ∀ n, f n = op n 1)
    (hzero : ∀ n, op n 0 = n) (v : Option κ) (c : κ → Nat) :
    changeCount f v c = fun k => op (c k) (refTo v k) := by
  funext k
  cases v with
  | none => exact (hzero _).symm
  | some j =>
      by_cases hk : k = j
      · rw [hk, changeCount, Function.update_self, refTo_self, hone]
      · rw [changeCount, Function.update_of_ne hk, refTo_of_ne hk, hzero]

theorem raiseCount_eq (v : Option κ) (c : κ → Nat) :
    raiseCount v c = fun k => c k + refTo v k :=
  @changeCount_eq _ _ _ (· + ·) (fun _ => rfl) Nat.add_zero v c

theorem dropCount_eq (v : Option κ) (c : κ → Nat) :
    dropCount v c = fun k => c k - refTo v k :=
  @changeCount_eq _ _ _ (· - ·) (fun _ => rfl) Nat.sub_zero v c

/-- Two that mean every target equally often mean the same one. -/
theorem refTo_eq_iff {v w : Option κ} : (∀ k, refTo v k = refTo w k) ↔ v = w := by
  constructor
  · intro h
    cases v with
    | some k =>
        have hk := h k
        rw [refTo_self, refTo] at hk
        by_contra hne
        rw [if_neg fun heq => hne heq.symm] at hk
        cases hk
    | none =>
        cases w with
        | none => rfl
        | some k =>
            have hk := h k
            rw [refTo_none, refTo_self] at hk
            cases hk
  · rintro rfl k
    rfl

theorem count_update_of_le {i : Nat} (hi : n ≤ i) (v : Option κ) (k : κ) :
    Nat.count (fun j => Function.update f i v j = some k) n = Nat.count (fun j => f j = some k) n := by
  induction n with
  | zero => rfl
  | succ n ih =>
      have hne : n ≠ i := by omega
      rw [Nat.count_succ, Nat.count_succ, ih (by omega), Function.update_of_ne hne]

/-- Moving one source: what it adds at the new target and takes at the old
    one. -/
theorem count_update {i : Nat} (hi : i < n) (v : Option κ) (k : κ) :
    Nat.count (fun j => Function.update f i v j = some k) n + refTo (f i) k =
      Nat.count (fun j => f j = some k) n + refTo v k := by
  unfold refTo
  induction n with
  | zero => omega
  | succ n ih =>
      rw [Nat.count_succ, Nat.count_succ]
      by_cases heq : i = n
      · -- the moved source is the last one; those below are untouched
        subst heq
        rw [count_update_of_le (Nat.le_refl i), Function.update_self]
        omega
      · have hne : n ≠ i := fun h => heq h.symm
        rw [Function.update_of_ne hne]
        have hprev := ih (by omega)
        omega

theorem Counted.pos (h : Counted f n c) {i : Nat} (hi : i < n) {k : κ} (hk : f i = some k) :
    0 < c k := by
  rw [h k]
  have hmono := Nat.count_monotone (fun j => f j = some k) (Nat.succ_le_of_lt hi)
  rw [Nat.count_succ, if_pos hk] at hmono
  omega

/-- The count is zero where nothing is attached. -/
theorem Counted.zero_of_ne (h : Counted f n c) {k : κ} (hk : ∀ i < n, f i ≠ some k) : c k = 0 := by
  rw [h k]
  exact Nat.count_iff_forall_not.mpr (fun i hi => hk i hi)

/-! ## References from elsewhere -/

/-- The count of every target is the number of sources attached to it and of
    the references `out` held elsewhere. -/
def CountedWith (out : κ → Nat) (f : Nat → Option κ) (n : Nat) (c : κ → Nat) : Prop :=
  ∀ k, c k = Nat.count (fun i => f i = some k) n + out k

variable {out out' c' : κ → Nat}

theorem CountedWith.pos (h : CountedWith out f n c) {i : Nat} (hi : i < n) {k : κ}
    (hk : f i = some k) : 0 < c k := by
  have hcount := Counted.pos (fun _ => rfl) hi hk
  rw [h k]
  omega

theorem CountedWith.refTo_le (h : CountedWith out f n c) {i : Nat} (hi : i < n) (k : κ) :
    refTo (f i) k ≤ c k := by
  unfold refTo
  split
  · exact h.pos hi ‹_›
  · exact Nat.zero_le _

/-- A source that moves to `v` keeps the counts right exactly if each count and
    the references elsewhere change by what the source brings and takes. -/
theorem CountedWith.move_iff (h : CountedWith out f n c) {i : Nat} (hi : i < n) {v : Option κ} :
    CountedWith out' (Function.update f i v) n c' ↔
      ∀ k, c' k + refTo (f i) k + out k = c k + refTo v k + out' k := by
  refine forall_congr' fun k => ?_
  have hmove := count_update (f := f) hi v k
  have hk := h k
  omega

/-- A source that moves to `v` and is counted at both ends. -/
theorem CountedWith.replace (h : CountedWith out f n c) {i : Nat} (hi : i < n) (v : Option κ) :
    CountedWith out (Function.update f i v) n fun k => c k + refTo v k - refTo (f i) k := by
  refine (h.move_iff hi).mpr fun k => ?_
  -- the count at the old target is positive, so the subtraction is exact
  have hle := h.refTo_le hi k
  omega

/-- A source that is detached. -/
theorem CountedWith.release (h : CountedWith out f n c) {i : Nat} (hi : i < n) :
    CountedWith out (Function.update f i none) n fun k => c k - refTo (f i) k := by
  have hreplace := h.replace hi none
  simp only [refTo_none, Nat.add_zero] at hreplace
  exact hreplace

/-- A new source keeps the counts right exactly if each count grows by what it
    brings. -/
theorem CountedWith.extend_iff (h : CountedWith out f n c) {v : Option κ} :
    CountedWith out' (Function.update f n v) (n + 1) c' ↔
      ∀ k, c' k + out k = c k + refTo v k + out' k := by
  refine forall_congr' fun k => ?_
  have hnew : Nat.count (fun j => Function.update f n v j = some k) (n + 1) =
      Nat.count (fun j => f j = some k) n + refTo v k := by
    rw [Nat.count_succ, Function.update_self, count_update_of_le (Nat.le_refl n)]
    rfl
  have hk := h k
  omega

/-! ## No other references -/

theorem counted_iff : Counted f n c ↔ CountedWith (fun _ => 0) f n c := Iff.rfl

/-- A new source starts unattached. -/
theorem Counted.extend (h : Counted f n c) : Counted (Function.update f n none) (n + 1) c :=
  counted_iff.mpr ((counted_iff.mp h).extend_iff.mpr fun _ => rfl)

/-- A source moves from its target to `v`. -/
theorem Counted.move (h : Counted f n c) {i : Nat} (hi : i < n) (v : Option κ) :
    Counted (Function.update f i v) n (raiseCount v (dropCount (f i) c)) := by
  rw [counted_iff] at h ⊢
  refine (h.move_iff hi).mpr fun k => ?_
  -- the count at the old target is positive, so the subtraction is exact
  have hle := h.refTo_le hi k
  rw [raiseCount_eq, dropCount_eq]
  dsimp only
  omega

end Curl1C.Lib
