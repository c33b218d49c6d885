/-
  Curl1C.Process.Share

  The cache flags and the share object.

  The flags and `CurlShare` are globals that any object changes through
  `UseCache` and `AssignCurlCache`, while libcurl refuses to change or free a
  share that a handle is attached to, and the component ignores the refusals.
  `Shares` is what nevertheless holds throughout: libcurl's count of attached
  handles is right, attached shares are alive, and the current share shares
  what the flags say.  A refused `curl_share_setopt` does no harm since a share
  is renewed with every change of the flags.
-/

import Curl1C.Lib.Ledger
import Curl1C.Process.World

namespace Curl1C

open Lib

namespace Proc

variable (f : Nat → Nat) (s : Option ShareId) (shares : ShareId → Share)

theorem changeDirty_dirty :
    (fun t => (changeDirty f s shares t).dirty) = changeCount f s fun t => (shares t).dirty := by
  cases s with
  | none => rfl
  | some s =>
      funext t
      by_cases ht : t = s
      · simp only [changeDirty, changeCount, ht, Function.update_self]
      · simp only [changeDirty, changeCount, Function.update_of_ne ht]

/-- Attaching and detaching change nothing but the count. -/
theorem changeDirty_else (t : ShareId) :
    (changeDirty f s shares t).live = (shares t).live ∧
      (changeDirty f s shares t).bits = (shares t).bits := by
  cases s with
  | none => exact ⟨rfl, rfl⟩
  | some s =>
      by_cases ht : t = s
      · rw [ht]
        simp only [changeDirty, Function.update_self, Share.bits, and_self]
      · simp only [changeDirty, Function.update_of_ne ht, and_self]

end Proc

/-- The share objects are in order: `dirty` counts the attached handles, and
    attached shares and the current one are alive. -/
structure ShareOk (r : Res) : Prop where
  counted : Counted r.attached r.nEasy fun s => (r.share s).dirty
  fresh : ∀ h, r.nEasy ≤ h → r.attached h = none
  attached : ∀ h s, r.attached h = some s → s < r.nShare ∧ (r.share s).live = true
  current : r.CurlShare < r.nShare ∧ (r.share r.CurlShare).live = true

/-- The current share shares what the flags say. -/
def Res.Agrees (r : Res) : Prop := (r.share r.CurlShare).bits = r.flags

/-- A share is busy exactly when it has been freed or a handle is attached. -/
theorem shareInUse_eq_false {sh : Share} :
    Proc.shareInUse sh = false ↔ sh.live = true ∧ sh.dirty = 0 := by
  simp [Proc.shareInUse]

namespace ShareOk

variable {r : Res} {h : HandleId}

theorem lt_of_attached (hr : ShareOk r) {s : ShareId} (hs : r.attached h = some s) :
    h < r.nEasy := by
  refine Nat.lt_of_not_le fun hle => ?_
  rw [hr.fresh h hle] at hs
  cases hs

theorem newHandle (hr : ShareOk r) : ShareOk r.newHandle where
  counted := hr.counted.extend
  fresh h hh := by
    have hle : r.nEasy + 1 ≤ h := hh
    have hne : h ≠ r.nEasy := by omega
    exact (Function.update_of_ne hne ..).trans (hr.fresh h (by omega))
  attached h s hs := by
    by_cases hh : h = r.nEasy
    · rw [hh] at hs
      cases (Function.update_self ..).symm.trans hs
    · exact hr.attached h s ((Function.update_of_ne hh ..).symm.trans hs)
  current := hr.current

/-- Live, bits and the current share after a handle moved. -/
theorem attach_else (r : Res) (h : HandleId) (s : Option ShareId) (t : ShareId) :
    ((r.attach h s).share t).live = (r.share t).live ∧
      ((r.attach h s).share t).bits = (r.share t).bits := by
  obtain ⟨hlive, hbits⟩ := Proc.changeDirty_else (· - 1) (r.attached h) r.share t
  obtain ⟨hlive', hbits'⟩ := Proc.changeDirty_else (· + 1) s (Proc.dropDirty (r.attached h) r.share) t
  exact ⟨hlive'.trans hlive, hbits'.trans hbits⟩

theorem attach (hr : ShareOk r) (hh : h < r.nEasy) {s : Option ShareId}
    (hs : ∀ t, s = some t → t < r.nShare ∧ (r.share t).live = true) : ShareOk (r.attach h s) where
  counted := by
    show Counted (Function.update r.attached h s) r.nEasy
      fun t => (Proc.raiseDirty s (Proc.dropDirty (r.attached h) r.share) t).dirty
    rw [Proc.raiseDirty, Proc.dropDirty, Proc.changeDirty_dirty, Proc.changeDirty_dirty]
    exact hr.counted.move hh s
  fresh h' hh' := by
    have hne : h' ≠ h := Nat.ne_of_gt (Nat.lt_of_lt_of_le hh hh')
    rw [Res.attach_of_ne hne]
    exact hr.fresh h' hh'
  attached h' t ht := by
    rw [(attach_else r h s t).1]
    by_cases hne : h' = h
    · rw [hne, Res.attach_self] at ht
      exact hs t ht
    · rw [Res.attach_of_ne hne] at ht
      exact hr.attached h' t ht
  current := by
    rw [(attach_else r h s _).1]
    exact hr.current

/-! ## Renewing the share -/

/-- A share other than the current one is not touched by the renewal. -/
theorem renewShare_of_ne (r : Res) {t : ShareId} (hcur : t ≠ r.CurlShare) (hnew : t ≠ r.nShare) :
    r.renewShare.share t = r.share t := by
  have hstep : r.renewShare.share t = (if Proc.shareInUse (r.share r.CurlShare) then r.share
      else Function.update r.share r.CurlShare { r.share r.CurlShare with live := false }) t :=
    Function.update_of_ne hnew ..
  rw [hstep]
  split
  · rfl
  · exact Function.update_of_ne hcur ..

theorem renewShare_new (r : Res) : r.renewShare.share r.nShare = Share.new :=
  Function.update_self ..

/-- The replaced share is freed unless it is in use. -/
theorem renewShare_old (hr : ShareOk r) :
    r.renewShare.share r.CurlShare =
      if Proc.shareInUse (r.share r.CurlShare) then r.share r.CurlShare
      else { r.share r.CurlShare with live := false } := by
  have hne : r.CurlShare ≠ r.nShare := Nat.ne_of_lt hr.current.1
  have hstep : r.renewShare.share r.CurlShare = (if Proc.shareInUse (r.share r.CurlShare) then
      r.share else Function.update r.share r.CurlShare
        { r.share r.CurlShare with live := false }) r.CurlShare :=
    Function.update_of_ne hne ..
  rw [hstep]
  split
  · rfl
  · exact Function.update_self ..

/-- Nothing is attached to a share that does not exist yet. -/
theorem dirty_nShare (hr : ShareOk r) : (r.share r.nShare).dirty = 0 := by
  refine hr.counted.zero_of_ne ?_
  intro h _ hs
  exact absurd (hr.attached h _ hs).1 (Nat.lt_irrefl _)

theorem renewShare_dirty (hr : ShareOk r) (t : ShareId) :
    (r.renewShare.share t).dirty = (r.share t).dirty := by
  by_cases hnew : t = r.nShare
  · rw [hnew, renewShare_new, hr.dirty_nShare]
    rfl
  · by_cases hcur : t = r.CurlShare
    · rw [hcur, hr.renewShare_old]
      split <;> rfl
    · rw [renewShare_of_ne r hcur hnew]

/-- A share with a handle attached survives the renewal: libcurl refuses to free
    it. -/
theorem renewShare_live (hr : ShareOk r) {s : ShareId} (hs : r.attached h = some s) :
    (r.renewShare.share s).live = true := by
  obtain ⟨hlt, hlive⟩ := hr.attached h s hs
  -- only the current share is in danger, and its count is positive
  by_cases hcur : s = r.CurlShare
  · have hpos : 0 < (r.share s).dirty := hr.counted.pos (hr.lt_of_attached hs) hs
    have hbusy : Proc.shareInUse (r.share r.CurlShare) = true := by
      rw [← hcur]
      simp only [Proc.shareInUse, Bool.or_eq_true, decide_eq_true_eq]
      exact Or.inr (by omega)
    rw [hcur, hr.renewShare_old, if_pos hbusy, ← hcur]
    exact hlive
  · rw [renewShare_of_ne r hcur (Nat.ne_of_lt hlt)]
    exact hlive

theorem renewShare (hr : ShareOk r) : ShareOk r.renewShare where
  counted k := (hr.renewShare_dirty k).trans (hr.counted k)
  fresh := hr.fresh
  attached _ _ hs := ⟨Nat.lt_succ_of_lt (hr.attached _ _ hs).1, hr.renewShare_live hs⟩
  current := ⟨Nat.lt_succ_self _, congrArg Share.live (renewShare_new r)⟩

/-! ## Applying the flags -/

theorem applyFlags_else (r : Res) (t : ShareId) :
    (r.applyFlags.share t).dirty = (r.share t).dirty ∧
      (r.applyFlags.share t).live = (r.share t).live := by
  simp only [Res.applyFlags]
  split
  · exact ⟨rfl, rfl⟩
  · by_cases ht : t = r.CurlShare
    · simp only [ht, Function.update_self, and_self]
    · simp only [Function.update_of_ne ht, and_self]

theorem applyFlags (hr : ShareOk r) : ShareOk r.applyFlags where
  counted k := (applyFlags_else r k).1.trans (hr.counted k)
  fresh := hr.fresh
  attached _ _ hs := ⟨(hr.attached _ _ hs).1, (applyFlags_else r _).2.trans (hr.attached _ _ hs).2⟩
  current := ⟨hr.current.1, (applyFlags_else r _).2.trans hr.current.2⟩

/-- Where libcurl refuses the flags, the share has to have them already. -/
theorem applyFlags_agrees
    (hbusy : Proc.shareInUse (r.share r.CurlShare) = true → r.Agrees) : r.applyFlags.Agrees := by
  by_cases huse : Proc.shareInUse (r.share r.CurlShare) = true
  · have hshare : r.applyFlags.share = r.share := if_pos huse
    show (r.applyFlags.share r.CurlShare).bits = r.flags
    rw [hshare]
    exact hbusy huse
  · have hshare : r.applyFlags.share r.CurlShare = { r.share r.CurlShare with
        specifier := Res.cacheSpecifier r.flags (r.share r.CurlShare).specifier } := by
      simp only [Res.applyFlags, if_neg huse, Function.update_self]
    show (r.applyFlags.share r.CurlShare).bits = r.flags
    rw [hshare]
    exact Res.cacheSpecifier_bits r.flags _

theorem settleShare (hr : ShareOk r) (hagrees : r.bNeedInitCache = false → r.Agrees) :
    ShareOk r.settleShare ∧ r.settleShare.Agrees := by
  unfold Res.settleShare
  by_cases hneed : r.bNeedInitCache = true
  · rw [if_pos hneed]
    refine ⟨hr.renewShare.applyFlags, applyFlags_agrees ?_⟩
    -- the new share is not in use
    intro hbusy
    rw [show r.renewShare.share r.renewShare.CurlShare = Share.new from renewShare_new r] at hbusy
    cases hbusy
  · rw [if_neg hneed]
    exact ⟨hr.applyFlags, applyFlags_agrees fun _ => hagrees (by simpa using hneed)⟩

/-- Assigning the cache keeps the shares in order, brings the current one in
    line with the flags, and attaches the handle to it. -/
theorem assign (hr : ShareOk r) (hagrees : r.bNeedInitCache = false → r.Agrees)
    (hh : h < r.nEasy) :
    ShareOk (r.assign h) ∧ (r.assign h).Agrees ∧
      (r.assign h).attached h = some (r.assign h).CurlShare := by
  obtain ⟨hok, hsettled⟩ := hr.settleShare hagrees
  have hnEasy : r.settleShare.nEasy = r.nEasy := by
    unfold Res.settleShare
    split <;> rfl
  -- the settled share is alive, so libcurl accepts it
  have hassign : r.assign h = { r.settleShare.attach h (some r.settleShare.CurlShare) with
      bNeedInitCache := false } := by
    show ({ r.settleShare.attach h _ with bNeedInitCache := false } : Res) = _
    rw [if_pos hok.current.2]
  have hattach : ShareOk (r.settleShare.attach h (some r.settleShare.CurlShare)) := by
    refine hok.attach (hnEasy.symm ▸ hh) ?_
    intro t ht
    rw [← Option.some.inj ht]
    exact hok.current
  rw [hassign]
  refine ⟨⟨hattach.counted, hattach.fresh, hattach.attached, hattach.current⟩, ?_,
    Res.attach_self h _ _⟩
  exact (attach_else r.settleShare h _ _).2.trans hsettled

end ShareOk

/-! ## Every run -/

/-- What holds of the shares whenever no method is running. -/
structure Settled (r : Res) : Prop extends ShareOk r where
  agrees : r.Agrees
  settled : r.bNeedInitCache = false

namespace Settled

variable {r : Res} {h : HandleId}

theorem newHandle (hr : Settled r) : Settled r.newHandle :=
  ⟨hr.toShareOk.newHandle, hr.agrees, hr.settled⟩

/-- A handle leaves its share. -/
theorem detach (hr : Settled r) (hh : h < r.nEasy) : Settled (r.attach h none) where
  toShareOk := hr.toShareOk.attach hh (by rintro t ⟨⟩)
  agrees := (ShareOk.attach_else r h none r.CurlShare).2.trans hr.agrees
  settled := hr.settled

theorem freeHandle (hr : Settled r) (hh : h < r.nEasy) : Settled (r.freeHandle h) :=
  have hd := hr.detach hh
  ⟨⟨hd.counted, hd.fresh, hd.attached, hd.current⟩, hd.agrees, hd.settled⟩

theorem newList (hr : Settled r) : Settled r.newList :=
  ⟨⟨hr.counted, hr.fresh, hr.attached, hr.current⟩, hr.agrees, hr.settled⟩

theorem freeLists (hr : Settled r) (o : Holdings) : Settled (r.freeLists o) :=
  ⟨⟨hr.counted, hr.fresh, hr.attached, hr.current⟩, hr.agrees, hr.settled⟩

theorem newMime (hr : Settled r) : Settled r.newMime :=
  ⟨⟨hr.counted, hr.fresh, hr.attached, hr.current⟩, hr.agrees, hr.settled⟩

theorem freeMime (hr : Settled r) (m : MimeId) : Settled (r.freeMime m) :=
  ⟨⟨hr.counted, hr.fresh, hr.attached, hr.current⟩, hr.agrees, hr.settled⟩

theorem assign (hr : Settled r) (hh : h < r.nEasy) : Settled (r.assign h) := by
  obtain ⟨hok, hagrees, -⟩ := hr.toShareOk.assign (fun _ => hr.agrees) hh
  exact ⟨hok, hagrees, rfl⟩

/-- The flags are written and the cache is assigned anew. -/
theorem renew (hr : Settled r) {op : Op} {r' : Res} (hop : op.renewal r = some r')
    (hh : h < r.nEasy) :
    Settled (r'.assign h) ∧ r'.nEasy = r.nEasy ∧
      (r'.assign h).attached h = some (r'.assign h).CurlShare := by
  obtain ⟨flags, rfl⟩ := Op.renewal_eq hop
  -- the flags do not matter to `ShareOk`
  have hok : ShareOk { r with bNeedInitCache := true, flags := flags } :=
    ⟨hr.counted, hr.fresh, hr.attached, hr.current⟩
  obtain ⟨hok', hagrees, hattached⟩ := hok.assign (fun hfalse => by cases hfalse) hh
  exact ⟨⟨hok', hagrees, rfl⟩, rfl, hattached⟩

end Settled

/-- The shares are settled and every object's handle exists. -/
structure Shares (v : Inventory) : Prop extends Settled v.res where
  handles : ∀ i o, v.held i = some o → o.m_curl < v.res.nEasy

theorem curlShareSetopt_dirty (s : ShareId) (o : ShareOption) (d : LockData) (p : Proc)
    (t : ShareId) : ((p.curlShareSetopt s o d).share t).dirty = (p.share t).dirty := by
  simp only [Proc.curlShareSetopt]
  split
  · rfl
  · by_cases ht : t = s
    · rw [ht, Function.update_self]
    · rw [Function.update_of_ne ht]

theorem boot_shares : Shares World.boot.inventory where
  counted k := by
    show (dllMain.share k).dirty = 0
    simp only [dllMain, curlShareSetopt_dirty, Proc.curlShareInit]
    by_cases hk : k = 0
    · rw [hk, Function.update_self]
      rfl
    · rw [Function.update_of_ne hk]
      rfl
  fresh _ _ := rfl
  attached _ _ hs := by cases hs
  current := ⟨Nat.one_pos, rfl⟩
  agrees := rfl
  settled := rfl
  handles _ _ ho := by cases ho

/-- One operation on an object whose handle exists. -/
theorem Change.settled {r r' : Res} {o o' : Holdings} {op : Op} (h : Change r o op r' o')
    (hr : Settled r) (ho : o.m_curl < r.nEasy) :
    Settled r' ∧ r.nEasy ≤ r'.nEasy ∧ o'.m_curl < r'.nEasy := by
  cases h with
  | same hop => exact ⟨hr, Nat.le_refl _, ho⟩
  | detach hop => exact ⟨hr.detach ho, Nat.le_refl _, ho⟩
  | headers hop hnone => exact ⟨hr.newList, Nat.le_refl _, ho⟩
  | recipients hop hnone => exact ⟨hr.newList, Nat.le_refl _, ho⟩
  | cleanup hop => exact ⟨(hr.freeLists o).newHandle, Nat.le_succ _, Nat.lt_succ_self _⟩
  | renew r₁ hop =>
      obtain ⟨hsettled, hnEasy, -⟩ := hr.renew hop ho
      rw [Res.assign_nEasy, hnEasy]
      exact ⟨hsettled, Nat.le_refl _, ho⟩

/-- One operation of the script. -/
theorem Inventory.Step.shares {v v' : Inventory} {op : WOp} (h : v.Step op v') (hv : Shares v) :
    Shares v' := by
  cases h with
  | construct junk =>
      -- the new object's handle is the one just made
      refine ⟨(hv.toSettled.newHandle.assign (Nat.lt_succ_self _)).newList.newMime, ?_⟩
      intro i o ho
      show o.m_curl < (v.res.newHandle.assign v.res.nEasy).nEasy
      rw [Res.assign_nEasy]
      rcases update_some_eq_some ho with ⟨-, rfl⟩ | ⟨-, hold⟩
      · exact Nat.lt_succ_self _
      · exact Nat.lt_succ_of_lt (hv.handles i o hold)
  | destroy i o hi =>
      have hfreed := (hv.toSettled.freeLists o).freeHandle (hv.handles i o hi)
      exact ⟨hfreed.freeMime _, fun j o' ho' => hv.handles j o' (update_none_eq_some ho').2⟩
  | destroyLosing i o hi =>
      have hfreed := (hv.toSettled.freeLists o).freeHandle (hv.handles i o hi)
      exact ⟨hfreed, fun j o' ho' => hv.handles j o' (update_none_eq_some ho').2⟩
  | call i op o o' r hi hchange =>
      obtain ⟨hsettled, hgrows, hlt⟩ := hchange.settled hv.toSettled (hv.handles i o hi)
      refine ⟨hsettled, ?_⟩
      intro j o'' ho''
      rcases update_some_eq_some ho'' with ⟨-, rfl⟩ | ⟨-, hold⟩
      · exact hlt
      · exact Nat.lt_of_lt_of_le (hv.handles j o'' hold) hgrows

theorem worldRun_shares {win : Win32} {ops : List WOp} {w : World}
    (h : worldRun win ops = some w) : Shares w.inventory :=
  worldRun_invariant boot_shares (fun _ _ _ hv hs => hs.shares hv) h

/-- `UseCache` attaches the object's handle to a share with the given bits. -/
theorem useCache_attaches (dns connect ssl cookie : Value) {st : St} (hst : Settled st.proc.res)
    (hlt : st.obj.m_curl < st.proc.res.nEasy) :
    ∃ s, ((st.useCache dns connect ssl cookie).proc.easy st.obj.m_curl).share = some s ∧
      ((st.useCache dns connect ssl cookie).proc.share s).bits =
        CacheBits.ofValues dns connect ssl cookie := by
  obtain ⟨r, hr⟩ : ∃ r, (Op.useCache dns connect ssl cookie).renewal st.proc.res = some r := ⟨_, rfl⟩
  have hres : (st.useCache dns connect ssl cookie).proc.res = r.assign st.obj.m_curl := by
    obtain rfl := Option.some.inj hr
    exact Proc.res_assignCurlCache _ _
  have hflags : r.flags = CacheBits.ofValues dns connect ssl cookie := by
    obtain rfl := Option.some.inj hr
    rfl
  obtain ⟨hsettled, -, hattached⟩ := hst.renew hr hlt
  refine ⟨(r.assign st.obj.m_curl).CurlShare, ?_, ?_⟩
  · rw [← hres] at hattached ⊢
    exact hattached
  · have hbits := hsettled.agrees
    unfold Res.Agrees at hbits
    rw [Res.assign_flags, hflags, ← hres] at hbits
    rw [← hres]
    exact hbits

/-- In every world a script can reach: a handle attached to `CurlShare` shares
    what the flags say, no handle is attached to a freed share, and `UseCache`
    leaves its object's handle attached to a share with exactly the given
    bits. -/
theorem shares_agree_with_flags {win : Win32} {ops : List WOp} {w : World}
    (h : worldRun win ops = some w) :
    (∀ handle, (w.proc.easy handle).share = some w.proc.CurlShare →
      (w.proc.share w.proc.CurlShare).bits = w.proc.cacheFlags) ∧
    (∀ handle s, (w.proc.easy handle).share = some s → (w.proc.share s).live = true) ∧
    (∀ i obj, w.objs i = some obj → ∀ dns connect ssl cookie : Value, ∃ w' s,
      worldStep win w (.call i (.useCache dns connect ssl cookie)) = some w' ∧
      (w'.proc.easy obj.m_curl).share = some s ∧
      (w'.proc.share s).bits = CacheBits.ofValues dns connect ssl cookie) := by
  have hw := worldRun_shares h
  refine ⟨fun _ _ => hw.agrees, fun handle s hs => (hw.attached handle s hs).2, ?_⟩
  intro i obj hobj dns connect ssl cookie
  have hlt : obj.m_curl < w.proc.res.nEasy := by
    refine hw.handles i obj.holdings ?_
    simp only [World.inventory, hobj, Option.map_some]
  have hsettled : Settled (St.mk w.proc obj).proc.res := hw.toSettled
  obtain ⟨s, hattached, hbits⟩ := useCache_attaches dns connect ssl cookie hsettled hlt
  have hstep : worldStep win w (.call i (.useCache dns connect ssl cookie)) =
      some { w with
        proc := ((St.mk w.proc obj).useCache dns connect ssl cookie).proc
        objs := Function.update w.objs i (some obj) } := by
    simp only [worldStep, hobj]
    rfl
  exact ⟨_, s, hstep, hattached, hbits⟩

/-- A script constructs two objects and turns every cache off through the
    first. -/
def cacheOff : List WOp :=
  [.construct Junk.zero, .construct Junk.zero,
    .call 0 (.useCache (Value.ofInt 0) (Value.ofInt 0) (Value.ofInt 0) (Value.ofInt 0))]

/-- The second object stays with the share it had. -/
theorem shares_agree_with_flags_cacheOff :
    ∃ w, worldRun Win32.ascii cacheOff = some w ∧ w.proc.CurlShare = 1 ∧
      (w.proc.easy 0).share = some 1 ∧ (w.proc.share 1).bits = w.proc.cacheFlags ∧
      (w.proc.easy 1).share = some 0 ∧ (w.proc.share 0).live = true := by
  obtain ⟨w, hw⟩ : ∃ w, worldRun Win32.ascii cacheOff = some w := ⟨_, rfl⟩
  have hshares := shares_agree_with_flags hw
  have hstate : w.proc.CurlShare = 1 ∧ (w.proc.easy 0).share = some 1 ∧
      (w.proc.easy 1).share = some 0 := by
    obtain rfl := Option.some.inj hw
    decide +kernel
  obtain ⟨hcurrent, hfirst, hsecond⟩ := hstate
  have hbits := hshares.1 0 (hcurrent.symm ▸ hfirst)
  rw [hcurrent] at hbits
  exact ⟨w, hw, hcurrent, hfirst, hbits, hsecond, hshares.2.1 1 0 hsecond⟩

end Curl1C
