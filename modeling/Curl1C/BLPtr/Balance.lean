/-
  Curl1C.BLPtr.Balance

  The smart pointer `CBLPtr` of blptr.h and the reference counts of the objects
  it points to.

  `IncrRef` and `DecrRef` are the platform's: `new T()` starts with one
  reference, and the object is deleted when the last one is given back.  A call
  on a deleted object is undefined; such an operation has no result.

  The header declares an `operator=` for `CComPtr<T>`, not for `CBLPtr<T>`.
  Between two `CBLPtr` the compiler's own assignment is used, which copies `p`
  and counts nothing.  `Create` overwrites `p` in the same way.

  Main result: `cblPtr_balanced_iff`.
-/

import Curl1C.Lib.Refcount
import Curl1C.Lib.Run

namespace Curl1C

open Lib

/-- A `CBLPtr`, by the number of those constructed before it. -/
abbrev PtrId := Nat

/-- An object with a reference count, by the number of those created before
    it. -/
abbrev CtxId := Nat

/-- The smart pointers and the objects.  `outside` counts the references that
    `Detach` gave out and that have not been attached again. -/
structure PtrWorld where
  p : PtrId → Option CtxId
  exist : PtrId → Bool
  nPtr : Nat
  refs : CtxId → Nat
  live : CtxId → Bool
  nCtx : Nat
  outside : CtxId → Nat

namespace PtrWorld

/-- No pointer and no object. -/
def new : PtrWorld :=
  { p := fun _ => none, exist := fun _ => false, nPtr := 0, refs := fun _ => 0,
    live := fun _ => false, nCtx := 0, outside := fun _ => 0 }

/-! ## Objects -/

/-- `IncrRef`. -/
def incrRef (o : CtxId) (w : PtrWorld) : Option PtrWorld :=
  if w.live o then some { w with refs := Function.update w.refs o (w.refs o + 1) } else none

/-- `DecrRef`: without a reference left the object is deleted. -/
def decrRef (o : CtxId) (w : PtrWorld) : Option PtrWorld :=
  if w.live o then
    some { w with
      refs := Function.update w.refs o (w.refs o - 1)
      live := Function.update w.live o (decide (w.refs o - 1 ≠ 0)) }
  else none

/-- `if (lp) lp->IncrRef()`. -/
def incrIf (lp : Option CtxId) (w : PtrWorld) : Option PtrWorld :=
  match lp with
  | none => some w
  | some o => w.incrRef o

/-- `if (lp) lp->DecrRef()`. -/
def decrIf (lp : Option CtxId) (w : PtrWorld) : Option PtrWorld :=
  match lp with
  | none => some w
  | some o => w.decrRef o

/-! ## The members of `CBLPtr` -/

/-- A new pointer with the value `lp`. -/
def place (lp : Option CtxId) (w : PtrWorld) : PtrWorld :=
  { w with
    p := Function.update w.p w.nPtr lp
    exist := Function.update w.exist w.nPtr true
    nPtr := w.nPtr + 1 }

/-- `p = lp` in the pointer `i`. -/
def setP (i : PtrId) (lp : Option CtxId) (w : PtrWorld) : PtrWorld :=
  { w with p := Function.update w.p i lp }

/-- `CBLPtr(T *)`; with NULL also `CBLPtr()`. -/
def constructRaw (lp : Option CtxId) (w : PtrWorld) : Option PtrWorld :=
  (w.incrIf lp).map (place lp)

/-- `CBLPtr(const CBLPtr<T> &)`. -/
def constructCopy (lp : PtrId) (w : PtrWorld) : Option PtrWorld := w.constructRaw (w.p lp)

/-- `~CBLPtr()`. -/
def destruct (i : PtrId) (w : PtrWorld) : Option PtrWorld :=
  (w.decrIf (w.p i)).map fun w =>
    { w.setP i none with exist := Function.update w.exist i false }

/-- `DecrRef()`. -/
def giveBack (i : PtrId) (w : PtrWorld) : Option PtrWorld :=
  let pTemp := w.p i
  (w.setP i none).decrIf pTemp

/-- `operator=(T *)`. -/
def assignRaw (i : PtrId) (lp : Option CtxId) (w : PtrWorld) : Option PtrWorld :=
  (w.incrIf lp).bind fun w => (w.decrIf (w.p i)).map (setP i lp)

/-- The compiler's `operator=(const CBLPtr<T> &)`. -/
def assign (i lp : PtrId) (w : PtrWorld) : PtrWorld := w.setP i (w.p lp)

/-- `Attach`, of a reference held outside. -/
def attach (i : PtrId) (p2 : Option CtxId) (w : PtrWorld) : Option PtrWorld :=
  (w.decrIf (w.p i)).map fun w => { w.setP i p2 with outside := dropCount p2 w.outside }

/-- `Detach`: the reference goes to the caller. -/
def detach (i : PtrId) (w : PtrWorld) : PtrWorld :=
  let pt := w.p i
  { w.setP i none with outside := raiseCount pt w.outside }

/-- `Create()`. -/
def create (i : PtrId) (w : PtrWorld) : PtrWorld :=
  { w.setP i (some w.nCtx) with
    refs := Function.update w.refs w.nCtx 1
    live := Function.update w.live w.nCtx true
    nCtx := w.nCtx + 1 }

end PtrWorld

/-- The operations on smart pointers. -/
inductive PtrOp where
  | constructRaw (lp : Option CtxId)
  | constructCopy (lp : PtrId)
  | destruct (i : PtrId)
  | decrRef (i : PtrId)
  | assignRaw (i : PtrId) (lp : Option CtxId)
  | assign (i lp : PtrId)
  | attach (i : PtrId) (p2 : Option CtxId)
  | detach (i : PtrId)
  | create (i : PtrId)
deriving DecidableEq

namespace PtrWorld

/-- One operation. -/
def step (w : PtrWorld) (op : PtrOp) : Option PtrWorld :=
  match op with
  | .constructRaw lp => w.constructRaw lp
  | .constructCopy lp => w.constructCopy lp
  | .destruct i => w.destruct i
  | .decrRef i => w.giveBack i
  | .assignRaw i lp => w.assignRaw i lp
  | .assign i lp => some (w.assign i lp)
  | .attach i p2 => w.attach i p2
  | .detach i => some (w.detach i)
  | .create i => some (w.create i)

/-- The number of smart pointers to an object. -/
def pointers (w : PtrWorld) (o : CtxId) : Nat := Nat.count (fun i => w.p i = some o) w.nPtr

/-- A raw pointer a caller may pass: NULL or an object that exists. -/
def Valid (w : PtrWorld) (lp : Option CtxId) : Prop := ∀ o ∈ lp, w.live o = true

instance (w : PtrWorld) (lp : Option CtxId) : Decidable (w.Valid lp) :=
  inferInstanceAs (Decidable (∀ o ∈ lp, w.live o = true))

/-- What every operation keeps: an object lives as long as there are references
    to it, and the numbers that are not in use are free. -/
structure Sound (w : PtrWorld) : Prop where
  lifetime : ∀ o, w.live o = true ↔ 0 < w.refs o
  known : ∀ i, w.exist i = true → i < w.nPtr
  fresh : ∀ o, w.nCtx ≤ o → w.refs o = 0

/-- The reference counts balance, so that no pointer is left with a deleted
    object and no object is left without a reference to it. -/
structure Balanced (w : PtrWorld) : Prop extends Sound w where
  counts : ∀ o, w.refs o = w.pointers o + w.outside o
  pointed : ∀ i < w.nPtr, ∀ o, w.p i = some o → w.live o = true
  referred : ∀ o, w.live o = true → 0 < w.pointers o ∨ 0 < w.outside o

end PtrWorld

namespace PtrOp

/-- The operation is called on pointers that exist, with raw pointers that are
    valid, and `Attach` with a reference that is owned. -/
def Legal (w : PtrWorld) : PtrOp → Prop
  | .constructRaw lp => w.Valid lp
  | .constructCopy lp => w.exist lp = true
  | .destruct i | .decrRef i | .detach i | .create i => w.exist i = true
  | .assignRaw i lp => w.exist i = true ∧ w.Valid lp
  | .assign i lp => w.exist i = true ∧ w.exist lp = true
  | .attach i p2 => w.exist i = true ∧ ∀ o ∈ p2, 0 < w.outside o

instance (w : PtrWorld) (op : PtrOp) : Decidable (op.Legal w) :=
  match op with
  | .constructRaw lp => inferInstanceAs (Decidable (w.Valid lp))
  | .constructCopy i | .destruct i | .decrRef i | .detach i | .create i =>
      inferInstanceAs (Decidable (w.exist i = true))
  | .assignRaw i lp => inferInstanceAs (Decidable (w.exist i = true ∧ w.Valid lp))
  | .assign i lp => inferInstanceAs (Decidable (w.exist i = true ∧ w.exist lp = true))
  | .attach i p2 => inferInstanceAs (Decidable (w.exist i = true ∧ ∀ o ∈ p2, 0 < w.outside o))

/-- An assignment between smart pointers with the same value, or `Create` on a
    NULL pointer; any other operation. -/
def Tidy (w : PtrWorld) : PtrOp → Prop
  | .assign i lp => w.p i = w.p lp
  | .create i => w.p i = none
  | _ => True

instance (w : PtrWorld) (op : PtrOp) : Decidable (op.Tidy w) :=
  match op with
  | .assign i lp => inferInstanceAs (Decidable (w.p i = w.p lp))
  | .create i => inferInstanceAs (Decidable (w.p i = none))
  | .constructRaw _ | .constructCopy _ | .destruct _ | .decrRef _ | .assignRaw _ _ | .attach _ _
  | .detach _ => inferInstanceAs (Decidable True)

end PtrOp

namespace PtrWorld

/-- The counts alone. -/
def Counts (w : PtrWorld) : Prop := CountedWith w.outside w.p w.nPtr w.refs

theorem sound_new : Sound new :=
  ⟨fun _ => iff_of_false Bool.false_ne_true (Nat.lt_irrefl 0),
    fun _ h => absurd h Bool.false_ne_true, fun _ _ => rfl⟩

theorem counts_new : Counts new := fun _ => rfl

variable {w : PtrWorld} {i : PtrId} {lp : Option CtxId}

theorem balanced_iff : w.Balanced ↔ w.Sound ∧ w.Counts := by
  constructor
  · intro h
    exact ⟨h.toSound, h.counts⟩
  · rintro ⟨h, hcounts⟩
    refine ⟨h, hcounts, ?_, ?_⟩
    · intro i hi o ho
      exact (h.lifetime o).mpr (hcounts.pos hi ho)
    · intro o hlive
      have hpos := (h.lifetime o).mp hlive
      rw [hcounts o] at hpos
      exact Nat.add_pos_iff_pos_or_pos.mp hpos

theorem balanced_new : Balanced new := balanced_iff.mpr ⟨sound_new, counts_new⟩

/-! ## What the calls do to the counts -/

theorem Sound.setP (h : w.Sound) (i : PtrId) (lp : Option CtxId) : (w.setP i lp).Sound :=
  ⟨h.lifetime, h.known, h.fresh⟩

/-- `IncrRef` on a valid pointer. -/
theorem incrIf_spec (h : w.Sound) (hlp : w.Valid lp) :
    w.incrIf lp = some { w with refs := fun o => w.refs o + refTo lp o } ∧
      Sound { w with refs := fun o => w.refs o + refTo lp o } := by
  cases lp with
  | none => exact ⟨rfl, h⟩
  | some o =>
      have hlive := hlp o rfl
      have hpos := (h.lifetime o).mp hlive
      rw [← raiseCount_eq, raiseCount_some, incrIf, incrRef, if_pos hlive]
      refine ⟨rfl, ?_, h.known, ?_⟩
      · intro k
        by_cases hk : k = o
        · subst hk
          exact iff_of_true hlive (by simp)
        · dsimp only
          rw [Function.update_of_ne hk]
          exact h.lifetime k
      · intro k hk
        have hne : k ≠ o := fun heq => Nat.ne_of_gt (heq ▸ hpos) (h.fresh k hk)
        dsimp only
        rw [Function.update_of_ne hne]
        exact h.fresh k hk

/-- `DecrRef` on a valid pointer. -/
theorem decrIf_spec (h : w.Sound) (hlp : w.Valid lp) :
    ∃ live, w.decrIf lp = some { w with refs := fun o => w.refs o - refTo lp o, live := live } ∧
      Sound { w with refs := fun o => w.refs o - refTo lp o, live := live } := by
  cases lp with
  | none => exact ⟨w.live, rfl, h⟩
  | some o =>
      rw [← dropCount_eq, dropCount_some, decrIf, decrRef, if_pos (hlp o rfl)]
      refine ⟨_, rfl, ?_, h.known, ?_⟩
      · intro k
        by_cases hk : k = o
        · subst hk
          dsimp only
          rw [Function.update_self, Function.update_self, decide_eq_true_iff]
          exact Nat.pos_iff_ne_zero.symm
        · dsimp only
          rw [Function.update_of_ne hk, Function.update_of_ne hk]
          exact h.lifetime k
      · intro k hk
        dsimp only
        by_cases heq : k = o
        · rw [← heq, Function.update_self, h.fresh k hk]
        · rw [Function.update_of_ne heq]
          exact h.fresh k hk

/-! ## One operation -/

section Operations

variable (h : w.Sound) (hcounts : w.Counts)

include h hcounts

/-- A smart pointer is a valid raw pointer. -/
theorem valid_p (hi : i < w.nPtr) : w.Valid (w.p i) := by
  intro o ho
  exact (h.lifetime o).mpr (hcounts.pos hi ho)

theorem constructRaw_spec (hlp : w.Valid lp) :
    ∃ w', w.constructRaw lp = some w' ∧ w'.Sound ∧ w'.Counts := by
  obtain ⟨hincr, hsound⟩ := incrIf_spec h hlp
  refine ⟨_, congrArg (Option.map (place lp)) hincr, ⟨hsound.lifetime, ?_, hsound.fresh⟩, ?_⟩
  · intro i hi
    dsimp only [place] at hi ⊢
    by_cases heq : i = w.nPtr
    · exact heq ▸ Nat.lt_succ_self _
    · rw [Function.update_of_ne heq] at hi
      exact Nat.lt_succ_of_lt (h.known i hi)
  · exact hcounts.extend_iff.mpr fun o => rfl

theorem destruct_spec (hi : i < w.nPtr) :
    ∃ w', w.destruct i = some w' ∧ w'.Sound ∧ w'.Counts := by
  obtain ⟨live, hdecr, hsound⟩ := decrIf_spec h (valid_p h hcounts hi)
  refine ⟨_, congrArg (Option.map _) hdecr, ⟨hsound.lifetime, ?_, hsound.fresh⟩, ?_⟩
  · intro j hj
    dsimp only at hj
    by_cases heq : j = i
    · exact heq ▸ hi
    · rw [Function.update_of_ne heq] at hj
      exact h.known j hj
  · exact hcounts.release hi

theorem giveBack_spec (hi : i < w.nPtr) :
    ∃ w', w.giveBack i = some w' ∧ w'.Sound ∧ w'.Counts := by
  have hvalid : (w.setP i none).Valid (w.p i) := valid_p h hcounts hi
  obtain ⟨live, hdecr, hsound⟩ := decrIf_spec (h.setP i none) hvalid
  exact ⟨_, hdecr, hsound, hcounts.release hi⟩

theorem assignRaw_spec (hi : i < w.nPtr) (hlp : w.Valid lp) :
    ∃ w', w.assignRaw i lp = some w' ∧ w'.Sound ∧ w'.Counts := by
  obtain ⟨hincr, hsound⟩ := incrIf_spec h hlp
  have hvalid := valid_p h hcounts hi
  -- the new object is counted first, so a pointer to it stays valid throughout
  obtain ⟨live, hdecr, hsound'⟩ := decrIf_spec hsound hvalid
  exact ⟨_, (congrArg (Option.bind · _) hincr).trans (congrArg (Option.map (setP i lp)) hdecr),
    hsound'.setP i lp, hcounts.replace hi lp⟩

theorem attach_spec (hi : i < w.nPtr) (hlp : ∀ o ∈ lp, 0 < w.outside o) :
    ∃ w', w.attach i lp = some w' ∧ w'.Sound ∧ w'.Counts := by
  obtain ⟨live, hdecr, hsound⟩ := decrIf_spec h (valid_p h hcounts hi)
  refine ⟨_, congrArg (Option.map _) hdecr,
    ⟨hsound.lifetime, hsound.known, hsound.fresh⟩, ?_⟩
  refine (hcounts.move_iff hi).mpr fun o => ?_
  have hle := hcounts.refTo_le hi o
  -- the reference that comes back is one of those held outside
  have hout : refTo lp o ≤ w.outside o := by
    unfold refTo
    split
    · exact hlp o ‹_›
    · exact Nat.zero_le _
  dsimp only [setP]
  rw [dropCount_eq]
  dsimp only
  omega

theorem detach_spec (hi : i < w.nPtr) : (w.detach i).Sound ∧ (w.detach i).Counts := by
  refine ⟨⟨h.lifetime, h.known, h.fresh⟩, (hcounts.move_iff hi).mpr fun o => ?_⟩
  dsimp only [detach, setP]
  rw [raiseCount_eq, refTo_none]
  dsimp only
  omega

/-- The compiler's assignment counts right only where it changes nothing. -/
theorem assign_spec (hi : i < w.nPtr) (j : PtrId) :
    (w.assign i j).Sound ∧ ((w.assign i j).Counts ↔ w.p i = w.p j) := by
  refine ⟨h.setP i (w.p j), ?_⟩
  rw [← refTo_eq_iff]
  refine (hcounts.move_iff hi).trans (forall_congr' fun o => ?_)
  dsimp only [assign, setP]
  omega

/-- `Create` counts right only if there is no object to forget. -/
theorem create_spec (hi : i < w.nPtr) :
    (w.create i).Sound ∧ ((w.create i).Counts ↔ w.p i = none) := by
  refine ⟨⟨?_, h.known, ?_⟩, ?_⟩
  · intro o
    dsimp only [create, setP]
    by_cases heq : o = w.nCtx
    · rw [heq, Function.update_self, Function.update_self]
      exact iff_of_true rfl Nat.one_pos
    · rw [Function.update_of_ne heq, Function.update_of_ne heq]
      exact h.lifetime o
  · intro o ho
    dsimp only [create, setP] at ho ⊢
    have hne : o ≠ w.nCtx := by omega
    rw [Function.update_of_ne hne, h.fresh o (by omega)]
  · rw [← refTo_eq_iff]
    refine (hcounts.move_iff hi).trans (forall_congr' fun o => ?_)
    have hrefs : Function.update w.refs w.nCtx 1 = fun o => w.refs o + refTo (some w.nCtx) o := by
      rw [← raiseCount_eq, raiseCount_some, h.fresh w.nCtx (Nat.le_refl _)]
    dsimp only [create, setP]
    rw [hrefs, refTo_none]
    dsimp only
    omega

/-- A legal operation comes back, and the counts are right afterwards exactly
    if it is tidy. -/
theorem step_spec {op : PtrOp} (hop : op.Legal w) :
    ∃ w', w.step op = some w' ∧ w'.Sound ∧ (w'.Counts ↔ op.Tidy w) := by
  -- all operations but the last two are tidy in every state
  have htidy : ∀ {f : Option PtrWorld}, (∃ w', f = some w' ∧ w'.Sound ∧ w'.Counts) →
      ∃ w', f = some w' ∧ w'.Sound ∧ (w'.Counts ↔ True) := by
    rintro f ⟨w', hf, hsound, hcounts'⟩
    exact ⟨w', hf, hsound, iff_of_true hcounts' trivial⟩
  cases op with
  | constructRaw lp => exact htidy (constructRaw_spec h hcounts hop)
  | constructCopy lp =>
      exact htidy (constructRaw_spec h hcounts (valid_p h hcounts (h.known lp hop)))
  | destruct i => exact htidy (destruct_spec h hcounts (h.known i hop))
  | decrRef i => exact htidy (giveBack_spec h hcounts (h.known i hop))
  | assignRaw i lp => exact htidy (assignRaw_spec h hcounts (h.known i hop.1) hop.2)
  | attach i p2 => exact htidy (attach_spec h hcounts (h.known i hop.1) hop.2)
  | detach i => exact htidy ⟨_, rfl, detach_spec h hcounts (h.known i hop)⟩
  | assign i lp => exact ⟨_, rfl, assign_spec h hcounts (h.known i hop.1) lp⟩
  | create i => exact ⟨_, rfl, create_spec h hcounts (h.known i hop)⟩

end Operations

end PtrWorld

open PtrWorld

/-- Along a run of legal operations, from any state in balance, the reference
    counts balance after every operation exactly if no smart pointer is assigned
    one with another value, and `Create` is called on NULL pointers only. -/
theorem cblPtr_balanced_iff (w₀ : PtrWorld) (hbalanced : w₀.Balanced) (ops : List PtrOp)
    (hlegal : Along step w₀ ops fun _ w op => op.Legal w) :
    (∀ pre, pre <+: ops → ∃ w, runOps step w₀ pre = some w ∧ w.Balanced) ↔
      Along step w₀ ops fun _ w op => op.Tidy w := by
  have hnext : ∀ hist w op rest, ops = hist ++ op :: rest → runOps step w₀ hist = some w →
      w.Balanced → ∃ w', w.step op = some w' ∧ (w'.Balanced ↔ op.Tidy w) := by
    intro hist w op rest hops hrun hw
    obtain ⟨hsound, hcounts⟩ := balanced_iff.mp hw
    obtain ⟨w', hstep, hsound', htidy⟩ := step_spec hsound hcounts (hlegal hist op rest hops w hrun)
    refine ⟨w', hstep, ?_⟩
    rw [balanced_iff, and_iff_right hsound', htidy]
  refine forall_initial_iff_along hbalanced (fun _ hw => hw) ?_ ?_
  · intro hist w op rest hops hrun hw htidy
    obtain ⟨w', hstep, hiff⟩ := hnext hist w op rest hops hrun hw
    exact ⟨w', hstep, hiff.mpr htidy⟩
  · intro hist w op rest t hops hrun hw ht hbalanced'
    obtain ⟨w', hstep, hiff⟩ := hnext hist w op rest hops hrun hw
    obtain rfl : w' = t := Option.some.inj (hstep.symm.trans ht)
    exact hiff.mp hbalanced'

/-- A copy, an assignment from a raw pointer, and a reference that goes out
    through `Detach` and comes back through `Attach`. -/
def sharedUse : List PtrOp :=
  [.constructRaw none, .create 0, .constructCopy 0, .constructRaw none, .assignRaw 2 (some 0),
    .detach 1, .decrRef 0, .attach 0 (some 0), .destruct 2, .destruct 0]

theorem cblPtr_balanced_sharedUse :
    ∃ w, runOps step new sharedUse = some w ∧ w.Balanced ∧ w.live 0 = false := by
  have hruns := (cblPtr_balanced_iff new balanced_new sharedUse
    (along_of_forall_take (by decide))).mpr (along_of_forall_take (by decide))
  obtain ⟨w, hrun, hbalanced⟩ := hruns sharedUse List.prefix_rfl
  have hlive : (runOps step new sharedUse).map (fun w => w.live 0) = some false := by decide
  rw [hrun] at hlive
  exact ⟨w, hrun, hbalanced, Option.some.inj hlive⟩

/-- A pointer to a new object is assigned to another one. -/
def assigned : List PtrOp := [.constructRaw none, .create 0, .constructRaw none, .assign 1 0]

/-- After the assignment there are two pointers, and still one reference.  When
    the first is destroyed the object is deleted under the second, whose own
    destruction is then a call on a deleted object. -/
theorem not_balanced_of_assign :
    Along step new (assigned ++ [.destruct 0, .destruct 1]) (fun _ w op => op.Legal w) ∧
    (∃ w, runOps step new assigned = some w ∧ w.refs 0 = 1 ∧ w.pointers 0 = 2 ∧ ¬ w.Balanced) ∧
    (∃ w, runOps step new (assigned ++ [.destruct 0]) = some w ∧ w.live 0 = false ∧ w.p 1 = some 0) ∧
    runOps step new (assigned ++ [.destruct 0, .destruct 1]) = none := by
  have hassigned : (runOps step new assigned).map (fun w => (w.refs 0, w.pointers 0, w.outside 0)) =
      some (1, 2, 0) := by decide
  have hdeleted : (runOps step new (assigned ++ [.destruct 0])).map (fun w => (w.live 0, w.p 1)) =
      some (false, some 0) := by decide
  have hcrash : (runOps step new (assigned ++ [.destruct 0, .destruct 1])).isNone = true := by decide
  refine ⟨along_of_forall_take (by decide), ?_, ?_, Option.isNone_iff_eq_none.mp hcrash⟩
  · obtain ⟨w, hrun, heq⟩ := Option.map_eq_some_iff.mp hassigned
    obtain ⟨hrefs, hrest⟩ := Prod.mk.inj heq
    obtain ⟨hpointers, houtside⟩ := Prod.mk.inj hrest
    refine ⟨w, hrun, hrefs, hpointers, fun hbalanced => ?_⟩
    have hcount := hbalanced.counts 0
    omega
  · obtain ⟨w, hrun, heq⟩ := Option.map_eq_some_iff.mp hdeleted
    obtain ⟨hlive, hp⟩ := Prod.mk.inj heq
    exact ⟨w, hrun, hlive, hp⟩

end Curl1C
