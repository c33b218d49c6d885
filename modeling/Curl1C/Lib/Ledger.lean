/-
  Curl1C.Lib.Ledger

  Resources that are acquired, held in slots and released.

  A resource is numbered by the resources acquired before it.  A slot holds at
  most one.  Acquiring puts a new resource into an empty slot, releasing
  empties the slot and counts a release; losing empties the slot without one.

  As long as nothing is lost, every resource is either held in exactly one
  slot and not yet released, or released once (`Balanced`).  A lost resource
  stays unreleased whatever happens later (`Leaked.steps`).
-/

import Mathlib.Logic.Relation
import Curl1C.Lib.Refcount

namespace Curl1C.Lib

section Slots

variable {ι α : Type*} [DecidableEq ι] {f : ι → Option α} {i j : ι} {a b : α}

/-- What a slot holds after one was filled. -/
theorem update_some_eq_some (h : Function.update f i (some a) j = some b) :
    (j = i ∧ b = a) ∨ (j ≠ i ∧ f j = some b) := by
  by_cases hj : j = i
  · rw [hj, Function.update_self] at h
    exact Or.inl ⟨hj, (Option.some.inj h).symm⟩
  · rw [Function.update_of_ne hj] at h
    exact Or.inr ⟨hj, h⟩

/-- What a slot holds after one was emptied. -/
theorem update_none_eq_some (h : Function.update f i none j = some b) : j ≠ i ∧ f j = some b := by
  by_cases hj : j = i
  · rw [hj, Function.update_self] at h
    cases h
  · rw [Function.update_of_ne hj] at h
    exact ⟨hj, h⟩

end Slots

/-- What every slot holds, the number of resources acquired, and how often each
    has been released. -/
@[ext] structure Ledger (ι : Type*) where
  owner : ι → Option Nat
  next : Nat
  released : Nat → Nat

namespace Ledger

variable {ι : Type*} [DecidableEq ι]

/-- Put a new resource into the slot `i`. -/
def acquire (i : ι) (L : Ledger ι) : Ledger ι :=
  { L with owner := Function.update L.owner i (some L.next), next := L.next + 1 }

/-- Release the resource `k` in the slot `i`. -/
def release (i : ι) (k : Nat) (L : Ledger ι) : Ledger ι :=
  { L with
    owner := Function.update L.owner i none
    released := Function.update L.released k (L.released k + 1) }

/-- Release whatever is in the slot `i`. -/
def drain (i : ι) (L : Ledger ι) : Ledger ι :=
  { L with
    owner := Function.update L.owner i none
    released := raiseCount (L.owner i) L.released }

/-- Empty the slot `i`. -/
def lose (i : ι) (L : Ledger ι) : Ledger ι :=
  { L with owner := Function.update L.owner i none }

/-- One step that loses nothing. -/
inductive Clean : Ledger ι → Ledger ι → Prop where
  | acquire (L : Ledger ι) (i : ι) (h : L.owner i = none) : Clean L (L.acquire i)
  | release (L : Ledger ι) (i : ι) (k : Nat) (h : L.owner i = some k) : Clean L (L.release i k)

/-- One step. -/
inductive Step : Ledger ι → Ledger ι → Prop where
  | clean (L L' : Ledger ι) (h : Clean L L') : Step L L'
  | lose (L : Ledger ι) (i : ι) : Step L (L.lose i)

/-- Any number of clean steps. -/
abbrev Cleans : Ledger ι → Ledger ι → Prop := Relation.ReflTransGen Clean

/-- Any number of steps. -/
abbrev Steps : Ledger ι → Ledger ι → Prop := Relation.ReflTransGen Step

theorem Cleans.steps {L L' : Ledger ι} (h : Cleans L L') : Steps L L' :=
  Relation.ReflTransGen.mono (fun M M' => Step.clean M M') _ _ h

theorem drain_released {L : Ledger ι} {i : ι} {k : Option Nat} (h : L.owner i = k) :
    (L.drain i).released = raiseCount k L.released := by
  rw [← h]
  rfl

theorem cleans_drain (L : Ledger ι) (i : ι) : Cleans L (L.drain i) := by
  cases hi : L.owner i with
  | none =>
      have hsame : L.drain i = L := by
        refine Ledger.ext ?_ rfl ?_
        · show Function.update L.owner i none = L.owner
          rw [← hi]
          exact Function.update_eq_self i L.owner
        · exact drain_released hi
      rw [hsame]
  | some k =>
      have hrelease : L.drain i = L.release i k := Ledger.ext rfl rfl (drain_released hi)
      rw [hrelease]
      exact .single (.release L i k hi)

/-- What every step keeps: a resource is held in one slot at most, and then it
    is not released. -/
structure Sound (L : Ledger ι) : Prop where
  bound : ∀ i k, L.owner i = some k → k < L.next
  unique : ∀ i j k, L.owner i = some k → L.owner j = some k → i = j
  held : ∀ i k, L.owner i = some k → L.released k = 0
  fresh : ∀ k, L.next ≤ k → L.released k = 0

/-- Every resource that is not held has been released once. -/
structure Balanced (L : Ledger ι) : Prop extends Sound L where
  freed : ∀ k, k < L.next → (∀ i, L.owner i ≠ some k) → L.released k = 1

/-- The resource is neither held nor released. -/
structure Leaked (L : Ledger ι) (k : Nat) : Prop where
  acquired : k < L.next
  unheld : ∀ i, L.owner i ≠ some k
  unreleased : L.released k = 0

theorem Sound.acquire {L : Ledger ι} (h : Sound L) (i : ι) : Sound (L.acquire i) where
  bound j k hj := by
    rcases update_some_eq_some hj with ⟨-, rfl⟩ | ⟨-, hold⟩
    · exact Nat.lt_succ_self _
    · exact Nat.lt_succ_of_lt (h.bound j k hold)
  unique j j' k hj hj' := by
    rcases update_some_eq_some hj with ⟨rfl, rfl⟩ | ⟨-, hold⟩
    · rcases update_some_eq_some hj' with ⟨rfl, -⟩ | ⟨-, hold'⟩
      · rfl
      · exact absurd (h.bound _ _ hold') (Nat.lt_irrefl _)
    · rcases update_some_eq_some hj' with ⟨-, rfl⟩ | ⟨-, hold'⟩
      · exact absurd (h.bound _ _ hold) (Nat.lt_irrefl _)
      · exact h.unique j j' k hold hold'
  held j k hj := by
    rcases update_some_eq_some hj with ⟨-, rfl⟩ | ⟨-, hold⟩
    · exact h.fresh _ (Nat.le_refl _)
    · exact h.held j k hold
  fresh k hk := h.fresh k (Nat.le_of_succ_le hk)

theorem Sound.release {L : Ledger ι} (h : Sound L) {i : ι} {k : Nat} (hi : L.owner i = some k) :
    Sound (L.release i k) where
  bound j m hj := h.bound j m (update_none_eq_some hj).2
  unique j j' m hj hj' :=
    h.unique j j' m (update_none_eq_some hj).2 (update_none_eq_some hj').2
  held j m hj := by
    obtain ⟨hne, hold⟩ := update_none_eq_some hj
    -- another slot holds another resource
    have hmk : m ≠ k := fun heq => hne (h.unique j i k (heq ▸ hold) hi)
    show Function.update L.released k (L.released k + 1) m = 0
    rw [Function.update_of_ne hmk]
    exact h.held j m hold
  fresh m hm := by
    have hlt := h.bound i k hi
    have hmk : m ≠ k := by
      rintro rfl
      exact absurd hlt (Nat.not_lt.mpr hm)
    show Function.update L.released k (L.released k + 1) m = 0
    rw [Function.update_of_ne hmk]
    exact h.fresh m hm

theorem Sound.lose {L : Ledger ι} (h : Sound L) (i : ι) : Sound (L.lose i) where
  bound j m hj := h.bound j m (update_none_eq_some hj).2
  unique j j' m hj hj' :=
    h.unique j j' m (update_none_eq_some hj).2 (update_none_eq_some hj').2
  held j m hj := h.held j m (update_none_eq_some hj).2
  fresh m hm := h.fresh m hm

theorem Sound.steps {L L' : Ledger ι} (h : Sound L) (hsteps : Steps L L') : Sound L' := by
  induction hsteps with
  | refl => exact h
  | tail _ hstep ih =>
      cases hstep with
      | clean _ hclean =>
          cases hclean with
          | acquire i _ => exact ih.acquire i
          | release i k hi => exact ih.release hi
      | lose i => exact ih.lose i

theorem Balanced.cleans {L L' : Ledger ι} (h : Balanced L) (hcleans : Cleans L L') :
    Balanced L' := by
  induction hcleans with
  | refl => exact h
  | @tail M _ _ hclean ih =>
      cases hclean with
      | acquire i hi =>
          -- the new resource is held, so an unheld one is older
          refine { ih.toSound.acquire i with freed := ?_ }
          intro k hk hunheld
          have hne : k ≠ M.next := by
            rintro rfl
            exact hunheld i (Function.update_self ..)
          have hlt : k < M.next := Nat.lt_of_le_of_ne (Nat.le_of_lt_succ hk) hne
          refine ih.freed k hlt ?_
          intro j hj
          have hji : j ≠ i := by
            rintro rfl
            rw [hi] at hj
            cases hj
          exact hunheld j ((Function.update_of_ne hji ..).trans hj)
      | release i k hi =>
          -- `k` was held, so this is its first release
          refine { ih.toSound.release hi with freed := ?_ }
          intro m hm hunheld
          show Function.update M.released k (M.released k + 1) m = 1
          by_cases hmk : m = k
          · rw [hmk, Function.update_self, ih.held i k hi]
          · rw [Function.update_of_ne hmk]
            refine ih.freed m hm ?_
            intro j hj
            have hji : j ≠ i := by
              rintro rfl
              exact hmk (Option.some.inj (hj.symm.trans hi))
            exact hunheld j ((Function.update_of_ne hji ..).trans hj)

/-- What a slot held when it was emptied is lost. -/
theorem Sound.leaked_lose {L : Ledger ι} (h : Sound L) {i : ι} {k : Nat} (hi : L.owner i = some k) :
    Leaked (L.lose i) k where
  acquired := h.bound i k hi
  unheld j hj := by
    obtain ⟨hne, hold⟩ := update_none_eq_some hj
    exact hne (h.unique j i k hold hi)
  unreleased := h.held i k hi

/-- A lost resource stays lost. -/
theorem Leaked.steps {L L' : Ledger ι} {k : Nat} (h : Leaked L k) (hsteps : Steps L L') :
    Leaked L' k := by
  induction hsteps with
  | refl => exact h
  | tail _ hstep ih =>
      cases hstep with
      | clean _ hclean =>
          cases hclean with
          | acquire i _ =>
              -- what is acquired is new, hence not `k`
              refine ⟨Nat.lt_succ_of_lt ih.acquired, ?_, ih.unreleased⟩
              intro j hj
              rcases update_some_eq_some hj with ⟨-, rfl⟩ | ⟨-, hold⟩
              · exact absurd ih.acquired (Nat.lt_irrefl _)
              · exact ih.unheld j hold
          | release i m hi =>
              -- only what is held is released
              have hkm : k ≠ m := by
                rintro rfl
                exact ih.unheld i hi
              refine ⟨ih.acquired, fun j hj => ih.unheld j (update_none_eq_some hj).2, ?_⟩
              exact (Function.update_of_ne hkm ..).trans ih.unreleased
      | lose i =>
          exact ⟨ih.acquired, fun j hj => ih.unheld j (update_none_eq_some hj).2, ih.unreleased⟩

end Ledger

end Curl1C.Lib
