/-
  Curl1C.Process.Ledgers

  Handles, string lists and mime structures as ledgers whose slots are the
  members of the live objects.

  The methods move the ledgers by acquiring and releasing, with two exceptions:
  `easy_cleanup` overwrites `m_curl` (`Step.handles`), and `delete[]` may run no
  destructor, which loses the mime structure (`Step.mimes`).  Lists are never
  lost (`Step.lists`).
-/

import Curl1C.Lib.Ledger
import Curl1C.Process.World

namespace Curl1C

open Lib

/-! ## Slots -/

section Slots

variable {κ : Type} (field : κ → Holdings → Option Nat)

/-- What the members `field` of the objects hold. -/
def slots (held : ObjId → Option Holdings) (s : ObjId × κ) : Option Nat :=
  (held s.1).bind (field s.2)

variable {field} {held : ObjId → Option Holdings} {i : ObjId}

theorem slots_update_of_ne {x : Option Holdings} {s : ObjId × κ} (hs : s.1 ≠ i) :
    slots field (Function.update held i x) s = slots field held s := by
  simp only [slots, Function.update_of_ne hs]

theorem slots_update_self {x : Option Holdings} {k : κ} :
    slots field (Function.update held i x) (i, k) = x.bind (field k) := by
  simp only [slots, Function.update_self]

theorem slots_of_held {o : Holdings} (hi : held i = some o) (k : κ) :
    slots field held (i, k) = field k o := by
  simp only [slots, hi, Option.bind_some]

theorem slots_of_none (hi : held i = none) (k : κ) : slots field held (i, k) = none := by
  simp only [slots, hi, Option.bind_none]

/-- No member changes. -/
theorem slots_keep {o o' : Holdings} (hi : held i = some o) (h : ∀ k, field k o' = field k o) :
    slots field (Function.update held i (some o')) = slots field held := by
  funext s
  obtain ⟨j, k⟩ := s
  by_cases hj : j = i
  · subst hj
    rw [slots_update_self, slots_of_held hi, Option.bind_some, h]
  · rw [slots_update_of_ne hj]

variable (field) in
/-- The ledger of the resources the members `field` hold. -/
def ledger (held : ObjId → Option Holdings) (next : Nat) (released : Nat → Nat) :
    Ledger (ObjId × κ) :=
  { owner := slots field held, next := next, released := released }

variable [DecidableEq κ] {next : Nat} {released : Nat → Nat} {x : Option Holdings} {k : κ}

/-- One member of one object changes. -/
theorem slots_set {v : Option Nat} (hk : x.bind (field k) = v)
    (hrest : ∀ k' ≠ k, x.bind (field k') = slots field held (i, k')) :
    slots field (Function.update held i x) = Function.update (slots field held) (i, k) v := by
  funext s
  obtain ⟨j, k'⟩ := s
  by_cases hj : j = i
  · subst hj
    rw [slots_update_self]
    by_cases hk' : k' = k
    · rw [hk', Function.update_self, hk]
    · have hne : (j, k') ≠ (j, k) := fun heq => hk' (Prod.mk.inj heq).2
      rw [Function.update_of_ne hne, hrest k' hk']
  · have hne : (j, k') ≠ (i, k) := fun heq => hj (Prod.mk.inj heq).1
    rw [Function.update_of_ne hne, slots_update_of_ne hj]

theorem ledger_acquire (hk : x.bind (field k) = some next)
    (hrest : ∀ k' ≠ k, x.bind (field k') = slots field held (i, k')) :
    ledger field (Function.update held i x) (next + 1) released =
      (ledger field held next released).acquire (i, k) :=
  Ledger.ext (slots_set hk hrest) rfl rfl

/-- A member is overwritten with a new resource. -/
theorem ledger_overwrite (hk : x.bind (field k) = some next)
    (hrest : ∀ k' ≠ k, x.bind (field k') = slots field held (i, k')) :
    ledger field (Function.update held i x) (next + 1) released =
      ((ledger field held next released).lose (i, k)).acquire (i, k) := by
  refine Ledger.ext ?_ rfl rfl
  rw [ledger_acquire hk hrest]
  simp only [Ledger.acquire, Ledger.lose, Function.update_idem]

/-- A member that was NULL is given a new resource. -/
theorem cleans_acquire (hnull : slots field held (i, k) = none)
    (hk : x.bind (field k) = some next)
    (hrest : ∀ k' ≠ k, x.bind (field k') = slots field held (i, k')) :
    Ledger.Cleans (ledger field held next released)
      (ledger field (Function.update held i x) (next + 1) released) := by
  rw [ledger_acquire hk hrest]
  exact .single (.acquire _ _ hnull)

/-- The resource of a member is released and the member is gone. -/
theorem cleans_release {m : Nat} (hheld : slots field held (i, k) = some m)
    (hk : x.bind (field k) = none)
    (hrest : ∀ k' ≠ k, x.bind (field k') = slots field held (i, k')) :
    Ledger.Cleans (ledger field held next released)
      (ledger field (Function.update held i x) next
        (Function.update released m (released m + 1))) := by
  have hrelease : ledger field (Function.update held i x) next
      (Function.update released m (released m + 1)) =
        (ledger field held next released).release (i, k) m :=
    Ledger.ext (slots_set hk hrest) rfl rfl
  rw [hrelease]
  exact .single (.release _ _ m hheld)

/-- A member is gone and its resource is not released. -/
theorem ledger_lose (hk : x.bind (field k) = none)
    (hrest : ∀ k' ≠ k, x.bind (field k') = slots field held (i, k')) :
    ledger field (Function.update held i x) next released =
      (ledger field held next released).lose (i, k) :=
  Ledger.ext (slots_set hk hrest) rfl rfl

theorem cleans_keep {o o' : Holdings} (hi : held i = some o) (h : ∀ k, field k o' = field k o) :
    Ledger.Cleans (ledger field held next released)
      (ledger field (Function.update held i (some o')) next released) := by
  unfold ledger
  rw [slots_keep hi h]

end Slots

/-- The two list members of an object. -/
inductive ListSlot where
  | headers | recipients
deriving DecidableEq

def Holdings.list (k : ListSlot) (o : Holdings) : Option SlistId :=
  match k with
  | .headers => o.headers
  | .recipients => o.recipients

namespace Inventory

/-- The easy handles and the objects that hold them. -/
def handles (v : Inventory) : Ledger (ObjId × Unit) :=
  ledger (fun _ o => some o.m_curl) v.held v.res.nEasy v.res.handleFrees

/-- The mime structures and the objects that hold them. -/
def mimes (v : Inventory) : Ledger (ObjId × Unit) :=
  ledger (fun _ o => some o.m_mime) v.held v.res.nMime v.res.mimeFrees

/-- The string lists and the members that hold them. -/
def lists (v : Inventory) : Ledger (ObjId × ListSlot) :=
  ledger Holdings.list v.held v.res.nSlist v.res.listFrees

/-! ## What a step does to the ledgers -/

section Ledgers

variable {v v' : Inventory} {op : WOp}

theorem handles_owner {i : ObjId} {o : Holdings} (hi : v.held i = some o) :
    v.handles.owner (i, ()) = some o.m_curl := by
  simp only [handles, ledger, slots_of_held hi]

theorem mimes_owner {i : ObjId} {o : Holdings} (hi : v.held i = some o) :
    v.mimes.owner (i, ()) = some o.m_mime := by
  simp only [mimes, ledger, slots_of_held hi]

theorem lists_owner {i : ObjId} {o : Holdings} (hi : v.held i = some o) (k : ListSlot) :
    v.lists.owner (i, k) = o.list k := by
  simp only [lists, ledger, slots_of_held hi]

/-- Only `easy_cleanup` loses a handle. -/
theorem Step.handles (h : v.Step op v') (hfresh : v.held v.nObj = none) :
    ((∀ i, op ≠ .call i .easyCleanup) ∧ Ledger.Cleans v.handles v'.handles) ∨
      ∃ i k, op = .call i .easyCleanup ∧ v.handles.owner (i, ()) = some k ∧
        v'.handles = (v.handles.lose (i, ())).acquire (i, ()) := by
  cases h with
  | construct junk =>
      refine Or.inl ⟨by rintro i ⟨⟩, ?_⟩
      show Ledger.Cleans v.handles (ledger _ _
        (v.res.newHandle.assign v.res.nEasy).nEasy
        (v.res.newHandle.assign v.res.nEasy).handleFrees)
      rw [Res.assign_nEasy, Res.assign_handleFrees]
      exact cleans_acquire (k := ()) (slots_of_none hfresh _) rfl (fun _ hne => absurd rfl hne)
  | destroy i o hi =>
      refine Or.inl ⟨by rintro i ⟨⟩, ?_⟩
      exact cleans_release (k := ()) (slots_of_held hi _) rfl (fun _ hne => absurd rfl hne)
  | destroyLosing i o hi =>
      refine Or.inl ⟨by rintro i ⟨⟩, ?_⟩
      exact cleans_release (k := ()) (slots_of_held hi _) rfl (fun _ hne => absurd rfl hne)
  | call i op o o' r hi hchange =>
      have hplain : op.plain = true → ∀ j, WOp.call i op ≠ .call j .easyCleanup := by
        rintro hop j ⟨⟩
        cases hop
      cases hchange with
      | cleanup hop =>
          exact Or.inr ⟨i, o.m_curl, by rw [hop], handles_owner hi,
            ledger_overwrite rfl (fun _ hne => absurd rfl hne)⟩
      | same hop => exact Or.inl ⟨hplain hop, cleans_keep hi fun _ => rfl⟩
      | detach hop => exact Or.inl ⟨hplain hop, cleans_keep hi fun _ => rfl⟩
      | headers hop hnone => exact Or.inl ⟨hplain hop, cleans_keep hi fun _ => rfl⟩
      | recipients hop hnone => exact Or.inl ⟨hplain hop, cleans_keep hi fun _ => rfl⟩
      | renew r hop =>
          obtain ⟨flags, rfl⟩ := Op.renewal_eq hop
          refine Or.inl ⟨?_, ?_⟩
          · rintro j ⟨⟩
            cases hop
          show Ledger.Cleans v.handles (ledger _ _ (Res.assign _ _).nEasy (Res.assign _ _).handleFrees)
          rw [Res.assign_nEasy, Res.assign_handleFrees]
          exact cleans_keep hi fun _ => rfl

/-- Only a destructor that frees no mime structure loses one. -/
theorem Step.mimes (h : v.Step op v') (hfresh : v.held v.nObj = none) :
    ((∀ i, op ≠ .destroy i 0) ∧ Ledger.Cleans v.mimes v'.mimes) ∨
      ∃ i k, op = .destroy i 0 ∧ v.mimes.owner (i, ()) = some k ∧
        v'.mimes = v.mimes.lose (i, ()) := by
  cases h with
  | construct junk =>
      refine Or.inl ⟨by rintro i ⟨⟩, ?_⟩
      show Ledger.Cleans v.mimes (ledger _ _
        ((v.res.newHandle.assign v.res.nEasy).nMime + 1)
        (v.res.newHandle.assign v.res.nEasy).mimeFrees)
      rw [Res.assign_nMime, Res.assign_mimeFrees]
      exact cleans_acquire (k := ()) (slots_of_none hfresh _) rfl (fun _ hne => absurd rfl hne)
  | destroy i o hi =>
      refine Or.inl ⟨by rintro i ⟨⟩, ?_⟩
      exact cleans_release (k := ()) (slots_of_held hi _) rfl (fun _ hne => absurd rfl hne)
  | destroyLosing i o hi =>
      exact Or.inr ⟨i, o.m_mime, rfl, mimes_owner hi,
        ledger_lose rfl (fun _ hne => absurd rfl hne)⟩
  | call i op o o' r hi hchange =>
      refine Or.inl ⟨by rintro j ⟨⟩, ?_⟩
      cases hchange with
      | cleanup hop => exact cleans_keep hi fun _ => rfl
      | same hop => exact cleans_keep hi fun _ => rfl
      | detach hop => exact cleans_keep hi fun _ => rfl
      | headers hop hnone => exact cleans_keep hi fun _ => rfl
      | recipients hop hnone => exact cleans_keep hi fun _ => rfl
      | renew r hop =>
          obtain ⟨flags, rfl⟩ := Op.renewal_eq hop
          show Ledger.Cleans v.mimes (ledger _ _ (Res.assign _ _).nMime (Res.assign _ _).mimeFrees)
          rw [Res.assign_nMime, Res.assign_mimeFrees]
          exact cleans_keep hi fun _ => rfl

/-- Freeing both lists of an object whose members are then NULL or gone. -/
theorem cleans_freeLists {i : ObjId} {o : Holdings} {x : Option Holdings}
    (hi : v.held i = some o) (hx : ∀ k, x.bind (Holdings.list k) = none) :
    Ledger.Cleans v.lists (ledger Holdings.list (Function.update v.held i x) v.res.nSlist
      (v.res.freeLists o).listFrees) := by
  have hheaders : v.lists.owner (i, .headers) = o.headers := lists_owner hi .headers
  have hrecipients : (v.lists.drain (i, .headers)).owner (i, .recipients) = o.recipients := by
    show Function.update v.lists.owner (i, .headers) none (i, .recipients) = o.recipients
    rw [Function.update_of_ne (by simp)]
    exact lists_owner hi .recipients
  have hdrain : ledger Holdings.list (Function.update v.held i x) v.res.nSlist
      (v.res.freeLists o).listFrees =
        (v.lists.drain (i, .headers)).drain (i, .recipients) := by
    refine Ledger.ext ?_ rfl ?_
    · show slots Holdings.list (Function.update v.held i x) = Function.update
        (Function.update (slots Holdings.list v.held) (i, .headers) none) (i, .recipients) none
      funext s
      obtain ⟨j, k⟩ := s
      by_cases hj : j = i
      · subst hj
        rw [slots_update_self, hx k]
        cases k with
        | headers => rw [Function.update_of_ne (by simp), Function.update_self]
        | recipients => rw [Function.update_self]
      · have hne : ∀ k', (j, k) ≠ (i, k') := fun k' heq => hj (Prod.mk.inj heq).1
        rw [slots_update_of_ne hj, Function.update_of_ne (hne _), Function.update_of_ne (hne _)]
    · rw [Ledger.drain_released hrecipients, Ledger.drain_released hheaders]
      rfl
  rw [hdrain]
  exact (Ledger.cleans_drain _ _).trans (Ledger.cleans_drain _ _)

/-- No list is ever lost. -/
theorem Step.lists (h : v.Step op v') (hfresh : v.held v.nObj = none) :
    Ledger.Cleans v.lists v'.lists := by
  cases h with
  | construct junk =>
      show Ledger.Cleans v.lists (ledger _ _
        ((v.res.newHandle.assign v.res.nEasy).nSlist + 1)
        (v.res.newHandle.assign v.res.nEasy).listFrees)
      rw [Res.assign_nSlist, Res.assign_listFrees]
      refine cleans_acquire (k := ListSlot.headers) (slots_of_none hfresh _) rfl ?_
      intro k hk
      rw [slots_of_none hfresh]
      cases k with
      | headers => exact absurd rfl hk
      | recipients => rfl
  | destroy i o hi => exact cleans_freeLists hi fun _ => rfl
  | destroyLosing i o hi => exact cleans_freeLists hi fun _ => rfl
  | call i op o o' r hi hchange =>
      cases hchange with
      | same hop => exact cleans_keep hi fun _ => rfl
      | detach hop => exact cleans_keep hi fun _ => rfl
      | headers hop hnone =>
          refine cleans_acquire (k := ListSlot.headers) ((slots_of_held hi _).trans hnone) rfl ?_
          intro k hk
          rw [slots_of_held hi]
          cases k with
          | headers => exact absurd rfl hk
          | recipients => rfl
      | recipients hop hnone =>
          refine cleans_acquire (k := ListSlot.recipients) ((slots_of_held hi _).trans hnone) rfl ?_
          intro k hk
          rw [slots_of_held hi]
          cases k with
          | headers => rfl
          | recipients => exact absurd rfl hk
      | cleanup hop =>
          refine cleans_freeLists hi ?_
          intro k
          cases k <;> rfl
      | renew r hop =>
          obtain ⟨flags, rfl⟩ := Op.renewal_eq hop
          show Ledger.Cleans v.lists (ledger _ _ (Res.assign _ _).nSlist (Res.assign _ _).listFrees)
          rw [Res.assign_nSlist, Res.assign_listFrees]
          exact cleans_keep hi fun _ => rfl

end Ledgers

end Inventory

end Curl1C
