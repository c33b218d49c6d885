/-
  Curl1C.Process.Lifecycle

  What the objects free of what they acquire.

  Beside the two ways of losing a handle or a mime structure
  (`Curl1C.Process.Ledgers`) a share can be left behind: `AssignCurlCache` frees
  the current share before it moves the handle off it, so libcurl refuses.

  `Inventory.Orderly` excludes the three; runs of orderly steps are balanced,
  and a run that destroys all its objects is balanced only if its steps were
  orderly.
-/

import Curl1C.Process.Ledgers
import Curl1C.Process.Share

namespace Curl1C

open Lib

/-! ## What a step does to the shares -/

/-- No share has been created, freed or replaced. -/
structure LifeKept (r r' : Res) : Prop where
  nShare : r'.nShare = r.nShare
  CurlShare : r'.CurlShare = r.CurlShare
  live : ∀ s, (r'.share s).live = (r.share s).live

/-- The current share has been replaced, and freed unless a handle was
    attached. -/
structure Renewed (r r' : Res) : Prop where
  nShare : r'.nShare = r.nShare + 1
  CurlShare : r'.CurlShare = r.nShare
  others : ∀ s < r.nShare, s ≠ r.CurlShare → (r'.share s).live = (r.share s).live
  replaced : (r'.share r.CurlShare).live = true ↔ ∃ h, r.attached h = some r.CurlShare

theorem LifeKept.refl (r : Res) : LifeKept r r := ⟨rfl, rfl, fun _ => rfl⟩

theorem LifeKept.trans {r r' r'' : Res} (h : LifeKept r r') (h' : LifeKept r' r'') :
    LifeKept r r'' :=
  ⟨h'.nShare.trans h.nShare, h'.CurlShare.trans h.CurlShare,
    fun s => (h'.live s).trans (h.live s)⟩

theorem LifeKept.attach (r : Res) (h : HandleId) (s : Option ShareId) :
    LifeKept r (r.attach h s) :=
  ⟨rfl, rfl, fun t => (ShareOk.attach_else r h s t).1⟩

theorem LifeKept.applyFlags (r : Res) : LifeKept r r.applyFlags :=
  ⟨rfl, rfl, fun t => (ShareOk.applyFlags_else r t).2⟩

/-- Attaching the handle is the last thing `AssignCurlCache` does. -/
theorem LifeKept.settleShare_assign (r : Res) (h : HandleId) :
    LifeKept r.settleShare (r.assign h) :=
  ⟨rfl, rfl, fun t => (ShareOk.attach_else r.settleShare h _ t).1⟩

theorem LifeKept.assign {r : Res} (hneed : r.bNeedInitCache = false) (h : HandleId) :
    LifeKept r (r.assign h) := by
  have hsettle : r.settleShare = r.applyFlags := by
    unfold Res.settleShare
    rw [hneed, if_neg (by simp)]
  have hassign := LifeKept.settleShare_assign r h
  rw [hsettle] at hassign
  exact (LifeKept.applyFlags r).trans hassign

theorem Renewed.trans {r r' r'' : Res} (h : Renewed r r') (h' : LifeKept r' r'') :
    Renewed r r'' where
  nShare := h'.nShare.trans h.nShare
  CurlShare := h'.CurlShare.trans h.CurlShare
  others s hs hne := (h'.live s).trans (h.others s hs hne)
  replaced := by
    rw [h'.live]
    exact h.replaced

/-- The share is in use exactly when a handle is attached. -/
theorem ShareOk.inUse_iff {r : Res} (hr : ShareOk r) :
    Proc.shareInUse (r.share r.CurlShare) = true ↔ ∃ h, r.attached h = some r.CurlShare := by
  constructor
  · intro hbusy
    by_contra hnone
    have hzero : (r.share r.CurlShare).dirty = 0 :=
      hr.counted.zero_of_ne fun h _ hs => hnone ⟨h, hs⟩
    have hfree := shareInUse_eq_false.mpr ⟨hr.current.2, hzero⟩
    rw [hbusy] at hfree
    cases hfree
  · rintro ⟨h, hs⟩
    have hpos : 0 < (r.share r.CurlShare).dirty := hr.counted.pos (hr.lt_of_attached hs) hs
    simp only [Proc.shareInUse, Bool.or_eq_true, decide_eq_true_eq]
    exact Or.inr (Nat.ne_of_gt hpos)

theorem ShareOk.renewed {r : Res} (hr : ShareOk r) : Renewed r r.renewShare where
  nShare := rfl
  CurlShare := rfl
  others s hs hne := by rw [ShareOk.renewShare_of_ne r hne (Nat.ne_of_lt hs)]
  replaced := by
    rw [hr.renewShare_old, ← hr.inUse_iff]
    by_cases hbusy : Proc.shareInUse (r.share r.CurlShare) = true
    · rw [if_pos hbusy]
      exact ⟨fun _ => hbusy, fun _ => hr.current.2⟩
    · rw [if_neg hbusy]
      exact ⟨fun hlive => absurd hlive Bool.false_ne_true, fun htrue => absurd htrue hbusy⟩

theorem ShareOk.renewed_assign {r : Res} (hr : ShareOk r) (hneed : r.bNeedInitCache = true)
    (h : HandleId) : Renewed r (r.assign h) := by
  have hsettle : r.settleShare = r.renewShare.applyFlags := by
    unfold Res.settleShare
    rw [if_pos hneed]
  have hassign := LifeKept.settleShare_assign r h
  rw [hsettle] at hassign
  exact hr.renewed.trans ((LifeKept.applyFlags _).trans hassign)

/-- `UseCache` and `AssignCurlCache` replace the share. -/
theorem Settled.renewed {r r' : Res} (hr : Settled r) {op : Op} (hop : op.renewal r = some r')
    (h : HandleId) : Renewed r (r'.assign h) := by
  obtain ⟨flags, rfl⟩ := Op.renewal_eq hop
  have hok : ShareOk { r with bNeedInitCache := true, flags := flags } :=
    ⟨hr.counted, hr.fresh, hr.attached, hr.current⟩
  have hassign := hok.renewed_assign rfl h
  exact ⟨hassign.nShare, hassign.CurlShare, hassign.others, hassign.replaced⟩

/-- Every other operation leaves the shares as they are. -/
theorem Inventory.Step.life {v v' : Inventory} {op : WOp} (h : v.Step op v') (hv : Shares v) :
    LifeKept v.res v'.res ∨
      ∃ i m, op = .call i m ∧ m.plain = false ∧ m ≠ .easyCleanup ∧ Renewed v.res v'.res := by
  cases h with
  | construct junk =>
      have hassign := LifeKept.assign (r := v.res.newHandle) hv.settled v.res.nEasy
      exact Or.inl ⟨hassign.nShare, hassign.CurlShare, hassign.live⟩
  | destroy i o hi =>
      have hfree := LifeKept.attach (v.res.freeLists o) o.m_curl none
      exact Or.inl ⟨hfree.nShare, hfree.CurlShare, hfree.live⟩
  | destroyLosing i o hi =>
      have hfree := LifeKept.attach (v.res.freeLists o) o.m_curl none
      exact Or.inl ⟨hfree.nShare, hfree.CurlShare, hfree.live⟩
  | call i op o o' r hi hchange =>
      cases hchange with
      | same hop => exact Or.inl (LifeKept.refl v.res)
      | detach hop => exact Or.inl (LifeKept.attach v.res o.m_curl none)
      | headers hop hnone => exact Or.inl ⟨rfl, rfl, fun _ => rfl⟩
      | recipients hop hnone => exact Or.inl ⟨rfl, rfl, fun _ => rfl⟩
      | cleanup hop => exact Or.inl ⟨rfl, rfl, fun _ => rfl⟩
      | renew r hop =>
          refine Or.inr ⟨i, op, rfl, ?_, ?_, hv.toSettled.renewed hop o.m_curl⟩
          · cases op <;> first | rfl | cases hop
          · rintro rfl
            cases hop

/-! ## Orderly steps -/

/-- The steps that leave nothing behind: no `easy_cleanup`, no renewal of the
    cache while a handle is attached to the current share, and a destructor that
    frees the mime structure. -/
def Inventory.Orderly (v : Inventory) (op : WOp) : Prop :=
  match op with
  | .construct _ => True
  | .destroy _ cookie => cookie = 1
  | .call _ m =>
      m.plain = true ∨ (m ≠ .easyCleanup ∧ ∀ h, v.res.attached h ≠ some v.res.CurlShare)

/-- What holds in every run. -/
structure Sane (v : Inventory) : Prop extends Shares v where
  unused : ∀ i, v.nObj ≤ i → v.held i = none
  handleBook : v.handles.Sound
  mimeBook : v.mimes.Sound
  listBook : v.lists.Balanced

/-- What holds in every orderly run. -/
structure InOrder (v : Inventory) : Prop where
  handleBook : v.handles.Balanced
  mimeBook : v.mimes.Balanced
  freed : ∀ s < v.res.nShare, s ≠ v.res.CurlShare → (v.res.share s).live = false

/-- Something is neither held by an object nor released, or a share was replaced
    and not freed. -/
def Leaks (v : Inventory) : Prop :=
  (∃ k, v.handles.Leaked k) ∨ (∃ k, v.mimes.Leaked k) ∨
    ∃ s < v.res.nShare, s ≠ v.res.CurlShare ∧ (v.res.share s).live = true

namespace Inventory.Step

variable {v v' : Inventory} {op : WOp}

theorem unused (h : v.Step op v') (hv : ∀ i, v.nObj ≤ i → v.held i = none) :
    ∀ i, v'.nObj ≤ i → v'.held i = none := by
  -- an object that is called or destroyed is not among the unused ones
  have hother : ∀ {i o x}, v.held i = some o → ∀ j, v.nObj ≤ j →
      Function.update v.held i x j = none := by
    intro i o x hi j hj
    have hne : j ≠ i := by
      rintro rfl
      rw [hv j hj] at hi
      cases hi
    rw [Function.update_of_ne hne, hv j hj]
  cases h with
  | construct junk =>
      intro i hi
      have hle : v.nObj + 1 ≤ i := hi
      have hne : i ≠ v.nObj := by omega
      exact (Function.update_of_ne hne ..).trans (hv i (by omega))
  | destroy i o hi => exact hother hi
  | destroyLosing i o hi => exact hother hi
  | call i op o o' r hi hchange => exact hother hi

theorem handles_steps (h : v.Step op v') (hfresh : v.held v.nObj = none) :
    Ledger.Steps v.handles v'.handles := by
  rcases h.handles hfresh with ⟨-, hclean⟩ | ⟨i, k, -, -, heq⟩
  · exact hclean.steps
  · -- overwriting `m_curl` is losing the old handle and acquiring a new one
    rw [heq]
    refine Relation.ReflTransGen.tail (.single (.lose _ (i, ()))) (.clean _ _ (.acquire _ _ ?_))
    exact Function.update_self ..

theorem mimes_steps (h : v.Step op v') (hfresh : v.held v.nObj = none) :
    Ledger.Steps v.mimes v'.mimes := by
  rcases h.mimes hfresh with ⟨-, hclean⟩ | ⟨i, k, -, -, heq⟩
  · exact hclean.steps
  · rw [heq]
    exact .single (.lose _ _)

theorem sane (h : v.Step op v') (hv : Sane v) : Sane v' := by
  have hfresh := hv.unused v.nObj (Nat.le_refl _)
  exact ⟨h.shares hv.toShares, h.unused hv.unused, hv.handleBook.steps (h.handles_steps hfresh),
    hv.mimeBook.steps (h.mimes_steps hfresh), hv.listBook.cleans (h.lists hfresh)⟩

/-- An orderly step leaves nothing behind. -/
theorem inOrder (h : v.Step op v') (hv : Sane v) (hop : v.Orderly op) (hin : InOrder v) :
    InOrder v' := by
  have hfresh := hv.unused v.nObj (Nat.le_refl _)
  refine ⟨?_, ?_, ?_⟩
  · rcases h.handles hfresh with ⟨-, hclean⟩ | ⟨i, k, rfl, -, -⟩
    · exact hin.handleBook.cleans hclean
    · rcases hop with hplain | ⟨hne, -⟩
      · cases hplain
      · exact absurd rfl hne
  · rcases h.mimes hfresh with ⟨-, hclean⟩ | ⟨i, k, rfl, -, -⟩
    · exact hin.mimeBook.cleans hclean
    · cases hop
  · intro s hs hne
    rcases h.life hv.toShares with hkept | ⟨i, m, rfl, hplain, -, hrenewed⟩
    · rw [hkept.live]
      exact hin.freed s (hkept.nShare ▸ hs) (hkept.CurlShare ▸ hne)
    · have hfree : ∀ h, v.res.attached h ≠ some v.res.CurlShare := by
        rcases hop with hp | ⟨-, hfree⟩
        · rw [hplain] at hp
          cases hp
        · exact hfree
      rw [hrenewed.nShare] at hs
      rw [hrenewed.CurlShare] at hne
      have hlt : s < v.res.nShare := Nat.lt_of_le_of_ne (Nat.le_of_lt_succ hs) hne
      by_cases hcur : s = v.res.CurlShare
      · -- nothing was attached, so libcurl freed the replaced share
        have hnot : ¬ (v'.res.share v.res.CurlShare).live = true := fun hlive =>
          let ⟨h, hs⟩ := hrenewed.replaced.mp hlive
          hfree h hs
        rw [hcur]
        simpa using hnot
      · rw [hrenewed.others s hlt hcur]
        exact hin.freed s hlt hcur

/-- A step that is not orderly leaves something behind. -/
theorem leaks (h : v.Step op v') (hv : Sane v) (hop : ¬ v.Orderly op) : Leaks v' := by
  have hfresh := hv.unused v.nObj (Nat.le_refl _)
  have hhandles := h.handles hfresh
  have hmimes := h.mimes hfresh
  cases h with
  | construct junk => exact absurd trivial hop
  | destroy i o hi => exact absurd rfl hop
  | destroyLosing i o hi =>
      rcases hmimes with ⟨hne, -⟩ | ⟨j, k, -, howner, hlose⟩
      · exact absurd rfl (hne i)
      · refine Or.inr (Or.inl ⟨k, ?_⟩)
        rw [hlose]
        exact hv.mimeBook.leaked_lose howner
  | call i op o o' r hi hchange =>
      cases hchange with
      | same hplain => exact absurd (Or.inl hplain) hop
      | detach hplain => exact absurd (Or.inl hplain) hop
      | headers hplain hnone => exact absurd (Or.inl hplain) hop
      | recipients hplain hnone => exact absurd (Or.inl hplain) hop
      | cleanup hcleanup =>
          subst hcleanup
          rcases hhandles with ⟨hne, -⟩ | ⟨j, k, -, howner, hlose⟩
          · exact absurd rfl (hne i)
          · refine Or.inl ⟨k, ?_⟩
            rw [hlose]
            have hacquire : Ledger.Step (v.handles.lose (j, ()))
                ((v.handles.lose (j, ())).acquire (j, ())) :=
              .clean _ _ (.acquire _ _ (Function.update_self ..))
            exact (hv.handleBook.leaked_lose howner).steps (.single hacquire)
      | renew r hrenew =>
          -- libcurl refused to free the replaced share
          have hrenewed := hv.toSettled.renewed hrenew o.m_curl
          have hattached : ∃ h, v.res.attached h = some v.res.CurlShare := by
            by_contra hnone
            refine hop (Or.inr ⟨?_, fun h hs => hnone ⟨h, hs⟩⟩)
            rintro rfl
            cases hrenew
          have hlt := hv.current.1
          refine Or.inr (Or.inr ⟨v.res.CurlShare, ?_, ?_, hrenewed.replaced.mpr hattached⟩)
          · rw [hrenewed.nShare]
            exact Nat.lt_succ_of_lt hlt
          · rw [hrenewed.CurlShare]
            exact Nat.ne_of_lt hlt

/-- What is left behind stays. -/
theorem leaks_of_leaks (h : v.Step op v') (hv : Sane v) (hleak : Leaks v) : Leaks v' := by
  have hfresh := hv.unused v.nObj (Nat.le_refl _)
  rcases hleak with ⟨k, hk⟩ | ⟨k, hk⟩ | ⟨s, hs, hne, hlive⟩
  · exact Or.inl ⟨k, hk.steps (h.handles_steps hfresh)⟩
  · exact Or.inr (Or.inl ⟨k, hk.steps (h.mimes_steps hfresh)⟩)
  · refine Or.inr (Or.inr ⟨s, ?_⟩)
    rcases h.life hv.toShares with hkept | ⟨i, m, rfl, -, -, hrenewed⟩
    · rw [hkept.nShare, hkept.CurlShare, hkept.live]
      exact ⟨hs, hne, hlive⟩
    · -- the new share has a new number, so `s` does not become current again
      rw [hrenewed.nShare, hrenewed.CurlShare, hrenewed.others s hs hne]
      exact ⟨Nat.lt_succ_of_lt hs, Nat.ne_of_lt hs, hlive⟩

end Inventory.Step

/-! ## Every run -/

section Runs

variable {win : Win32} {ops : List WOp} {w : World}

theorem boot_sane : Sane World.boot.inventory where
  toShares := boot_shares
  unused _ _ := rfl
  handleBook := ⟨by rintro _ _ ⟨⟩, by rintro _ _ _ ⟨⟩, by rintro _ _ ⟨⟩, fun _ _ => rfl⟩
  mimeBook := ⟨by rintro _ _ ⟨⟩, by rintro _ _ _ ⟨⟩, by rintro _ _ ⟨⟩, fun _ _ => rfl⟩
  listBook :=
    ⟨⟨by rintro _ _ ⟨⟩, by rintro _ _ _ ⟨⟩, by rintro _ _ ⟨⟩, fun _ _ => rfl⟩, by rintro _ ⟨⟩⟩

theorem boot_inOrder : InOrder World.boot.inventory where
  handleBook := ⟨boot_sane.handleBook, by rintro _ ⟨⟩⟩
  mimeBook := ⟨boot_sane.mimeBook, by rintro _ ⟨⟩⟩
  freed s hs hne := absurd (Nat.lt_one_iff.mp hs) hne

theorem worldRun_sane (h : worldRun win ops = some w) : Sane w.inventory :=
  worldRun_invariant boot_sane (fun _ _ _ hv hs => hs.sane hv) h

/-- The steps of the run were orderly. -/
def AllOrderly (win : Win32) (ops : List WOp) : Prop :=
  Along (worldStep win) World.boot ops fun _ w op => w.inventory.Orderly op

theorem worldRun_inOrder (h : worldRun win ops = some w) (hall : AllOrderly win ops) :
    InOrder w.inventory := by
  have hboot : Sane World.boot.inventory ∧ InOrder World.boot.inventory :=
    ⟨boot_sane, boot_inOrder⟩
  refine (along_invariant (I := fun w => Sane w.inventory ∧ InOrder w.inventory) hboot ?_ h hall).2
  rintro _ s op t ⟨hs, hin⟩ hop hstep
  have hsim := worldStep_simulates hstep
  exact ⟨hsim.sane hs, hsim.inOrder hs hop hin⟩

/-- A run with a step that was not orderly has left something behind. -/
theorem worldRun_leaks (h : worldRun win ops = some w) (hnot : ¬ AllOrderly win ops) :
    Leaks w.inventory := by
  -- cut the run at the step that was not orderly
  obtain ⟨hist, op, rest, u, rfl, hu, hop⟩ := exists_of_not_along hnot
  rw [worldRun, runOps_append, hu, Option.bind_some, runOps_cons, Option.bind_eq_some_iff] at h
  obtain ⟨t, ht, hrest⟩ := h
  have hsane : Sane u.inventory := worldRun_sane hu
  have hsim := worldStep_simulates ht
  have hstart : Sane t.inventory ∧ Leaks t.inventory := ⟨hsim.sane hsane, hsim.leaks hsane hop⟩
  refine (runOps_invariant (I := fun w => Sane w.inventory ∧ Leaks w.inventory) hstart ?_ hrest).2
  rintro s op' s' ⟨hs, hleak⟩ hstep
  have hsim' := worldStep_simulates hstep
  exact ⟨hsim'.sane hs, hsim'.leaks_of_leaks hs hleak⟩

/-! ## The balance -/

/-- Every handle, list and mime structure has been released exactly once. -/
def World.Released (w : World) : Prop :=
  (∀ h < w.proc.nEasy, w.proc.log.count (.easyCleanup h) = 1) ∧
  (∀ l < w.proc.nSlist, w.proc.log.count (.slistFreeAll (some l)) = 1) ∧
  (∀ m < w.proc.nMime, w.proc.log.count (.mimeFree m) = 1)

/-- Every share that is neither the current one nor attached to a live object's
    handle has been freed. -/
def World.SharesFreed (w : World) : Prop :=
  ∀ s < w.proc.nShare, s ≠ w.proc.CurlShare →
    (∀ i obj, w.objs i = some obj → (w.proc.easy obj.m_curl).share ≠ some s) →
      (w.proc.share s).live = false

/-- Nothing is left behind by the objects that are gone. -/
def World.Balanced (w : World) : Prop :=
  w.SharesFreed ∧ ((∀ i, w.objs i = none) → w.Released)

theorem InOrder.balanced (hsane : Sane w.inventory) (hin : InOrder w.inventory) : w.Balanced := by
  refine ⟨fun s hs hne _ => hin.freed s hs hne, ?_⟩
  intro hnone
  have hheld : ∀ i, w.inventory.held i = none := by
    intro i
    simp only [World.inventory, hnone, Option.map_none]
  -- with no object left no slot holds anything
  have hempty : ∀ {κ : Type} (field : κ → Holdings → Option Nat) (k : Nat) (i : ObjId × κ),
      slots field w.inventory.held i ≠ some k := by
    intro κ field k i
    simp [slots, hheld]
  exact ⟨fun h hh => hin.handleBook.freed h hh (hempty (fun _ o => some o.m_curl) h),
    fun l hl => hsane.listBook.freed l hl (hempty Holdings.list l),
    fun m hm => hin.mimeBook.freed m hm (hempty (fun _ o => some o.m_mime) m)⟩

theorem Leaks.not_balanced (hleak : Leaks w.inventory) (hnone : ∀ i, w.objs i = none) :
    ¬ w.Balanced := by
  rintro ⟨hshares, hreleased⟩
  obtain ⟨hhandles, -, hmimes⟩ := hreleased hnone
  rcases hleak with ⟨k, hk⟩ | ⟨k, hk⟩ | ⟨s, hs, hne, hlive⟩
  · have hone : w.inventory.res.handleFrees k = 1 := hhandles k hk.acquired
    have hzero : w.inventory.res.handleFrees k = 0 := hk.unreleased
    omega
  · have hone : w.inventory.res.mimeFrees k = 1 := hmimes k hk.acquired
    have hzero : w.inventory.res.mimeFrees k = 0 := hk.unreleased
    omega
  · have hfreed : (w.proc.share s).live = false := by
      refine hshares s hs hne ?_
      intro i obj hobj
      rw [hnone i] at hobj
      cases hobj
    exact absurd (hfreed.symm.trans hlive) Bool.false_ne_true

/-- A run of orderly steps is balanced, and a run that has destroyed all its
    objects is balanced only if every step was orderly. -/
theorem balanced_iff_allOrderly (win : Win32) (ops : List WOp) (w : World)
    (h : worldRun win ops = some w) :
    (AllOrderly win ops → w.Balanced) ∧
    ((∀ i, w.objs i = none) → w.Balanced → AllOrderly win ops) := by
  constructor
  · intro hall
    exact (worldRun_inOrder h hall).balanced (worldRun_sane h)
  · intro hnone hbalanced
    by_contra hnot
    exact (worldRun_leaks h hnot).not_balanced hnone hbalanced

/-- An object is constructed and destroyed. -/
def useOnce : List WOp := [.construct Junk.zero, .destroy 0 1]

theorem balanced_useOnce :
    ∃ w, worldRun Win32.ascii useOnce = some w ∧ AllOrderly Win32.ascii useOnce ∧ w.Balanced := by
  have hall : AllOrderly Win32.ascii useOnce := by
    refine along_cons.mpr ⟨trivial, fun t _ => along_cons.mpr ⟨rfl, fun u _ => ?_⟩⟩
    exact along_nil
  obtain ⟨w, hw⟩ : ∃ w, worldRun Win32.ascii useOnce = some w := ⟨_, rfl⟩
  exact ⟨w, hw, hall, (balanced_iff_allOrderly Win32.ascii useOnce w hw).1 hall⟩

/-- An object is constructed, cleaned up and destroyed. -/
def cleanUpOnce : List WOp := [.construct Junk.zero, .call 0 .easyCleanup, .destroy 0 1]

/-- An object turns the caches off. -/
def cacheOffOnce : List WOp :=
  [.construct Junk.zero,
    .call 0 (.useCache (Value.ofInt 0) (Value.ofInt 0) (Value.ofInt 0) (Value.ofInt 0))]

/-- `easy_cleanup` leaves the first handle behind, `UseCache` the first share. -/
theorem handle_and_share_left_behind :
    (∃ w, worldRun Win32.ascii cleanUpOnce = some w ∧ (∀ i, w.objs i = none) ∧
      w.proc.nEasy = 2 ∧ w.proc.log.count (.easyCleanup 0) = 0 ∧ ¬ w.Balanced) ∧
    (∃ w, worldRun Win32.ascii cacheOffOnce = some w ∧ w.proc.CurlShare = 1 ∧
      (w.proc.share 0).live = true ∧ ¬ w.Balanced) := by
  constructor
  · obtain ⟨w, hw⟩ : ∃ w, worldRun Win32.ascii cleanUpOnce = some w := ⟨_, rfl⟩
    have hnone : ∀ i, w.objs i = none := by
      obtain rfl := Option.some.inj hw
      intro i
      cases i <;> rfl
    have hstate : w.proc.nEasy = 2 ∧ w.proc.log.count (.easyCleanup 0) = 0 := by
      obtain rfl := Option.some.inj hw
      decide
    refine ⟨w, hw, hnone, hstate.1, hstate.2, ?_⟩
    rintro ⟨-, hreleased⟩
    have hone := (hreleased hnone).1 0 (by omega)
    omega
  · obtain ⟨w, hw⟩ : ∃ w, worldRun Win32.ascii cacheOffOnce = some w := ⟨_, rfl⟩
    have hstate : w.proc.CurlShare = 1 ∧ w.proc.nShare = 2 ∧ (w.proc.share 0).live = true := by
      obtain rfl := Option.some.inj hw
      decide
    have hattached : ∀ i obj, w.objs i = some obj →
        (w.proc.easy obj.m_curl).share ≠ some 0 := by
      obtain rfl := Option.some.inj hw
      intro i obj hobj
      cases i with
      | zero =>
          obtain rfl := Option.some.inj hobj
          decide
      | succ n => cases hobj
    obtain ⟨hcurrent, hcount, hlive⟩ := hstate
    refine ⟨w, hw, hcurrent, hlive, ?_⟩
    rintro ⟨hshares, -⟩
    have hold : (0 : ShareId) ≠ w.proc.CurlShare := by
      rw [hcurrent]
      decide
    have hfreed := hshares 0 (by omega) hold hattached
    exact absurd (hfreed.symm.trans hlive) Bool.false_ne_true

end Runs

end Curl1C
