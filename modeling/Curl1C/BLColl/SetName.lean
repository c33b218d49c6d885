/-
  Curl1C.BLColl.SetName

  `CCollectionItem::SetName` of istrmap.cpp: a new name for an item, which may be
  in a collection.

  The index of a `CCollection` keeps the pointers it is given as keys, and for an
  item that is added this is the item's own name.  `SetName` takes the entry of
  the old name out and puts one in under `szName`, the pointer of its caller; the
  copy that the item gets afterwards is not known to the index.  The copy goes to
  `m_Name` although `realloc` may have moved the block, because its result is
  dropped.

  Texts are in cells of a store (`mem`).  The cells of blocks that were allocated
  for names and not given back are `live`; all others, a caller's buffer and a
  block that was freed alike, may get another text at any time (`NameOp.write`).
  What `malloc` or `realloc` returns is part of the operation.  `OnRename` and the
  other notifications do nothing here; the array of items is a list.

  Main result: `setName_findable_iff`.
-/

import Curl1C.BLColl.ToIndex
import Curl1C.Lib.Ledger
import Curl1C.Lib.Run
import Mathlib.Logic.Function.Basic

namespace Curl1C

open Lib

namespace Naming

/-! ## Items with their names in memory -/

/-- A pointer to a text. -/
abbrev Ptr := Nat

/-- The store, the items with `m_Name` and `m_pCollection`, and the collection
    with `m_Items` and `m_ItemsHash`. -/
structure World (ι : Type) where
  mem : Ptr → CStr
  live : Ptr → Bool
  mName : ι → Option Ptr
  pCollection : ι → Bool
  items : List ι
  itemsHash : IStringMapToIndex Ptr

/-- What `SetName` does to the index.  `operator[]` of a key that is not there
    leaves 0. -/
def renameIndex (mem : Ptr → CStr) (h : IStringMapToIndex Ptr) (mName szName : Ptr) :
    Option (IStringMapToIndex Ptr) :=
  (IStringMap.index mem h mName 0).bind fun (h, id) =>
    (h.valueAt id).bind fun nIndex =>
      (IStringMap.removeKey mem h (mem mName)).bind fun (h, _) =>
        IStringMap.setAt mem h szName nIndex

variable {ι : Type}

/-- Someone changes a cell, or frees it and it is used for something else. -/
def write (w : World ι) (ptr : Ptr) (text : CStr) : World ι :=
  { w with mem := Function.update w.mem ptr text }

/-- `GetIndex(LPCSTR)`. -/
def getIndex (w : World ι) (szName : CStr) : Int :=
  (IStringMap.lookup w.mem w.itemsHash szName).getD (-1)

section Steps

variable [DecidableEq ι]

/-- `SetName`; `block` is what `realloc` or `malloc` returns. -/
def setName (w : World ι) (pItem : ι) (szName block : Ptr) : Option (World ι) :=
  (if w.pCollection pItem then
      (w.mName pItem).bind fun p => renameIndex w.mem w.itemsHash p szName
    else some w.itemsHash).map fun h =>
    match w.mName pItem with
    | some p =>
        -- the result of `realloc` is dropped, and the text goes to the old block
        { w with
          itemsHash := h
          live := if block = p then w.live
            else Function.update (Function.update w.live p false) block true
          mem := Function.update w.mem p (w.mem szName) }
    | none =>
        { w with
          itemsHash := h
          mName := Function.update w.mName pItem (some block)
          live := Function.update w.live block true
          mem := Function.update w.mem block (w.mem szName) }

/-- `CCollection::Add`. -/
def add (w : World ι) (pItem : ι) : Option (World ι) :=
  (w.mName pItem).bind fun p =>
    (IStringMapToIndex.add w.mem w.itemsHash p).map fun (h, _) =>
      { w with
        itemsHash := h
        items := w.items ++ [pItem]
        pCollection := Function.update w.pCollection pItem true }

/-- A step of the program around the collection. -/
inductive NameOp (ι : Type) where
  | setName (pItem : ι) (szName block : Ptr)
  | add (pItem : ι)
  | write (ptr : Ptr) (text : CStr)

def step (w : World ι) : NameOp ι → Option (World ι)
  | .setName pItem szName block => setName w pItem szName block
  | .add pItem => add w pItem
  | .write ptr text => some (write w ptr text)

end Steps

/-! ## Names that are found -/

/-- No item of the collection except `pItem` has the name. -/
def NewName (w : World ι) (pItem : ι) (szName : CStr) : Prop :=
  ∀ item ∈ w.items, item ≠ pItem → ∀ p ∈ w.mName item, upperFold (w.mem p) ≠ upperFold szName

/-- Items get a first name, and items of the collection get another one that no
    other item has.  A new block is not in use, and live cells are not changed
    from outside. -/
def NameOp.Asserted (w : World ι) : NameOp ι → Prop
  | .setName pItem szName block =>
      (w.mName pItem = none ∨ w.pCollection pItem = true ∧ NewName w pItem (w.mem szName)) ∧
        (w.mName pItem = some block ∨ w.live block = false ∧ block ≠ szName)
  | .add pItem =>
      w.pCollection pItem = false ∧ ∃ p ∈ w.mName pItem, NewName w pItem (w.mem p)
  | .write ptr _ => w.live ptr = false

/-- An item of the collection gets the name it has, from its own cell, and the
    block stays where it is. -/
def NameOp.Tidy (w : World ι) : NameOp ι → Prop
  | .setName pItem szName block =>
      w.pCollection pItem = true → w.mName pItem = some szName ∧ block = szName
  | .add _ | .write _ _ => True

instance [DecidableEq ι] (w : World ι) (pItem : ι) (szName : CStr) :
    Decidable (NewName w pItem szName) :=
  inferInstanceAs (Decidable (∀ item ∈ w.items, item ≠ pItem → ∀ p ∈ w.mName item,
    upperFold (w.mem p) ≠ upperFold szName))

instance [DecidableEq ι] (w : World ι) (op : NameOp ι) : Decidable (op.Asserted w) :=
  match op with
  | .setName pItem szName block => inferInstanceAs (Decidable
      ((w.mName pItem = none ∨ w.pCollection pItem = true ∧ NewName w pItem (w.mem szName)) ∧
        (w.mName pItem = some block ∨ w.live block = false ∧ block ≠ szName)))
  | .add pItem => inferInstanceAs (Decidable
      (w.pCollection pItem = false ∧ ∃ p ∈ w.mName pItem, NewName w pItem (w.mem p)))
  | .write ptr _ => inferInstanceAs (Decidable (w.live ptr = false))

instance (w : World ι) (op : NameOp ι) : Decidable (op.Tidy w) :=
  match op with
  | .setName pItem szName block => inferInstanceAs (Decidable
      (w.pCollection pItem = true → w.mName pItem = some szName ∧ block = szName))
  | .add _ | .write _ _ => inferInstanceAs (Decidable True)

/-- Every item of the collection is found at its position by its name, under a
    key that is its own name, in a block that it owns; other names are not
    found. -/
structure Findable (w : World ι) : Prop where
  found : ∀ (i : Nat) item, w.items[i]? = some item →
    ∃ p, w.mName item = some p ∧ w.live p = true ∧
      IStringMap.lookupKey w.mem w.itemsHash (w.mem p) = some p ∧ getIndex w (w.mem p) = i
  absent : ∀ szName, (∀ item ∈ w.items, ∀ p ∈ w.mName item,
    upperFold (w.mem p) ≠ upperFold szName) → getIndex w szName = -1

/-- The names of the items are in the cells `P`, each in a live one of its own,
    and these are the keys of the index. -/
structure InOrder (w : World ι) (P : List Ptr) : Prop where
  members : ∀ item, w.pCollection item = true ↔ item ∈ w.items
  cells : w.items.map w.mName = P.map some
  numbers : IStringMapToIndex.Numbers w.mem w.itemsHash P
  live : ∀ item p, w.mName item = some p → w.live p = true
  own : ∀ item item' p, w.mName item = some p → w.mName item' = some p → item = item'

/-- A store without items. -/
def World.new (mem : Ptr → CStr) : World ι :=
  ⟨mem, fun _ => false, fun _ => none, fun _ => false, [], IStringMap.new⟩

theorem inOrder_new (mem : Ptr → CStr) : InOrder (World.new mem : World ι) [] where
  members := by simp [World.new]
  cells := rfl
  numbers := IStringMapToIndex.numbers_new
  live := by simp [World.new]
  own := by simp [World.new]

variable {w : World ι} {P : List Ptr}

section Order

variable (h : InOrder w P)
include h

theorem InOrder.getElem?_cell (i : Nat) : w.items[i]?.map w.mName = P[i]?.map some := by
  rw [← List.getElem?_map, ← List.getElem?_map, h.cells]

theorem InOrder.cell_of_item {i : Nat} {item : ι} (hi : w.items[i]? = some item) :
    ∃ p, w.mName item = some p ∧ P[i]? = some p := by
  have hat := h.getElem?_cell i
  rw [hi, Option.map_some] at hat
  obtain ⟨p, hp, hname⟩ := Option.map_eq_some_iff.mp hat.symm
  exact ⟨p, hname.symm, hp⟩

theorem InOrder.item_of_mem {p : Ptr} (hp : p ∈ P) : ∃ item ∈ w.items, w.mName item = some p := by
  obtain ⟨i, hi⟩ := List.mem_iff_getElem?.mp hp
  have hat := h.getElem?_cell i
  rw [hi, Option.map_some] at hat
  obtain ⟨item, hitem, hname⟩ := Option.map_eq_some_iff.mp hat
  exact ⟨item, List.mem_of_getElem? hitem, hname⟩

theorem InOrder.live_of_mem {p : Ptr} (hp : p ∈ P) : w.live p = true := by
  obtain ⟨item, -, hname⟩ := h.item_of_mem hp
  exact h.live item p hname

/-- An item of the collection has a name. -/
theorem InOrder.cell_of_member {item : ι} (hmem : w.pCollection item = true) :
    ∃ (i : Nat) (p : Ptr), w.items[i]? = some item ∧ w.mName item = some p ∧ P[i]? = some p := by
  obtain ⟨i, hi⟩ := List.mem_iff_getElem?.mp ((h.members item).mp hmem)
  obtain ⟨p, hname, hp⟩ := h.cell_of_item hi
  exact ⟨i, p, hi, hname, hp⟩

theorem InOrder.not_member {item : ι} (hnone : w.mName item = none) :
    ¬ w.pCollection item = true := by
  intro hmem
  obtain ⟨i, p, -, hname, -⟩ := h.cell_of_member hmem
  exact absurd (hnone.symm.trans hname) (Option.some_ne_none p).symm

/-- No item has its name in a cell that is not live. -/
theorem InOrder.name_ne {ptr : Ptr} (hfree : w.live ptr = false) (item : ι) :
    w.mName item ≠ some ptr := by
  intro hname
  rw [h.live item ptr hname] at hfree
  exact Bool.noConfusion hfree

theorem InOrder.length_eq : w.items.length = P.length := by
  have hlen := congrArg List.length h.cells
  rwa [List.length_map, List.length_map] at hlen

theorem findable_of_inOrder : Findable w where
  found := by
    intro i item hi
    obtain ⟨p, hname, hp⟩ := h.cell_of_item hi
    refine ⟨p, hname, h.live item p hname, h.numbers.lookupKey_eq hp rfl, ?_⟩
    rw [getIndex, h.numbers.lookup_eq hp rfl, Option.getD_some]
  absent := by
    intro szName hother
    rw [getIndex, h.numbers.lookup_none, Option.getD_none]
    intro hmem
    obtain ⟨p, hp, hfold⟩ := List.mem_map.mp hmem
    obtain ⟨item, hitem, hname⟩ := h.item_of_mem hp
    exact hother item hitem p hname hfold

/-- The index does not notice a text in a cell that was not live. -/
theorem InOrder.numbers_update {ptr : Ptr} (hfree : w.live ptr = false) (text : CStr) :
    IStringMapToIndex.Numbers (Function.update w.mem ptr text) w.itemsHash P := by
  refine h.numbers.congr fun p hp => ?_
  have hne : p ≠ ptr := by
    rintro rfl
    rw [h.live_of_mem hp] at hfree
    exact Bool.noConfusion hfree
  exact (Function.update_of_ne hne text w.mem).symm

theorem write_inOrder {ptr : Ptr} (hfree : w.live ptr = false) (text : CStr) :
    InOrder (write w ptr text) P where
  members := h.members
  cells := h.cells
  numbers := h.numbers_update hfree text
  live := h.live
  own := h.own

end Order

/-! ## A new name in the index -/

/-- The entry of a name is replaced by one under another pointer, with the same
    position. -/
theorem renameIndex_numbers {mem : Ptr → CStr} {m : IStringMapToIndex Ptr} {A B : List Ptr}
    {p szName : Ptr} (h : IStringMapToIndex.Numbers mem m (A ++ p :: B))
    (hroom : (A ++ p :: B).length < 2 ^ 28)
    (hnew : IStringMap.fold mem szName ∉ (A ++ B).map (IStringMap.fold mem)) :
    ∃ m', renameIndex mem m p szName = some m' ∧
      IStringMapToIndex.Numbers mem m' (A ++ szName :: B) := by
  have hlookup : IStringMap.lookup mem m (mem p) = some (A.length : Int) :=
    h.lookup_eq (n := A.length) (k := p) (by simp) rfl
  obtain ⟨d, hrefines, hlists⟩ := h
  have hcount : d.count < 2 ^ 28 := by rwa [hlists.count_eq, length_numbered]
  have hperm := hlists.perm (numbered_middle A B p)
  -- `operator[]` finds the entry
  obtain ⟨n, hget, hvalue⟩ := Option.map_eq_some_iff.mp hlookup
  have hn := (IStringMap.getAssocAt_some hrefines hget).1
  have hindex : IStringMap.index mem m p 0 = some (m, n.id) := by rw [IStringMap.index, hget]
  have hat : m.valueAt n.id = some (A.length : Int) := by rw [hrefines.valueAt hn, hvalue]
  obtain ⟨m₁, hremove, h₁⟩ := IStringMap.removeKey_refines hrefines (mem p) hcount
  have hrest : (numbered 0 A ++ numbered (A.length + 1) B).map Prod.fst = A ++ B := by
    rw [List.map_append, map_fst_numbered, map_fst_numbered]
  have hless : (numbered 0 A ++ numbered (A.length + 1) B).length < 2 ^ 28 := by
    rw [List.length_append, List.length_cons] at hroom
    rw [List.length_append, length_numbered, length_numbered]
    omega
  rw [← hrest] at hnew
  obtain ⟨m', d', hset, h', hlists'⟩ :=
    IStringMapToIndex.setAt_of_notMem h₁ (A.length : Int) hperm.tail hless hnew
  refine ⟨m', ?_, d', h', hlists'.perm (numbered_middle A B szName).symm⟩
  rw [renameIndex, hindex, Option.bind_some]
  show (m.valueAt n.id).bind _ = _
  rw [hat, Option.bind_some, hremove, Option.bind_some]
  exact hset

/-- After the text was copied, the name in the item's cell leads to the entry
    under the pointer of the caller. -/
theorem lookupKey_renamed {mem : Ptr → CStr} {m : IStringMapToIndex Ptr} {A B : List Ptr}
    {p szName : Ptr} (h : IStringMapToIndex.Numbers mem m (A ++ szName :: B)) (hp : p ∉ A ++ B)
    (hne : szName ≠ p) :
    IStringMap.lookupKey (Function.update mem p (mem szName)) m
      (Function.update mem p (mem szName) p) = some szName := by
  -- none of the keys is the item's cell, so the copy does not change them
  have hafter : IStringMapToIndex.Numbers (Function.update mem p (mem szName)) m
      (A ++ szName :: B) := by
    refine h.congr fun r hr => (Function.update_of_ne ?_ _ _).symm
    rintro rfl
    rcases List.mem_cons.mp (List.perm_middle.mem_iff.mp hr) with heq | hr
    · exact hne heq.symm
    · exact hp hr
  have hat : (A ++ szName :: B)[A.length]? = some szName := by simp
  have htext : IStringMap.fold (Function.update mem p (mem szName)) szName =
      upperFold (Function.update mem p (mem szName) p) := by
    rw [IStringMap.fold, Function.update_self, Function.update_of_ne hne]
  exact hafter.lookupKey_eq hat htext

/-! ## Steps -/

section Steps

variable [DecidableEq ι] (h : InOrder w P)
include h

/-- The first name of an item is not in the collection yet. -/
theorem setName_first {pItem : ι} {block : Ptr} (hnone : w.mName pItem = none)
    (hfree : w.live block = false) (szName : Ptr) :
    ∃ w', setName w pItem szName block = some w' ∧ InOrder w' P := by
  have hout := h.not_member hnone
  have hset : setName w pItem szName block = some { w with
      mName := Function.update w.mName pItem (some block)
      live := Function.update w.live block true
      mem := Function.update w.mem block (w.mem szName) } := by
    rw [setName, if_neg hout, hnone]
    rfl
  refine ⟨_, hset, ⟨h.members, ?_, h.numbers_update hfree _, ?_, ?_⟩⟩
  · rw [← h.cells]
    refine List.map_congr_left fun item hitem => Function.update_of_ne ?_ _ _
    rintro rfl
    exact hout ((h.members item).mpr hitem)
  · intro item p hname
    rcases update_some_eq_some hname with ⟨-, rfl⟩ | ⟨-, hold⟩
    · exact Function.update_self p true w.live
    · have hne : p ≠ block := fun heq => h.name_ne hfree item (heq ▸ hold)
      exact (Function.update_of_ne hne true w.live).trans (h.live item p hold)
  · intro item item' p hname hname'
    rcases update_some_eq_some hname with ⟨hitem, rfl⟩ | ⟨-, hold⟩
    · rcases update_some_eq_some hname' with ⟨hitem', -⟩ | ⟨-, hold'⟩
      · rw [hitem, hitem']
      · exact absurd hold' (h.name_ne hfree item')
    · rcases update_some_eq_some hname' with ⟨-, rfl⟩ | ⟨-, hold'⟩
      · exact absurd hold (h.name_ne hfree item)
      · exact h.own item item' p hold hold'

/-- The entry of an item that gets a new name is under the pointer of the
    caller, and the text in the item's cell. -/
theorem setName_member {pItem : ι} {szName : Ptr} (hmem : w.pCollection pItem = true)
    (hnew : NewName w pItem (w.mem szName)) (hroom : w.items.length < 2 ^ 28) (block : Ptr) :
    ∃ A p B m, P = A ++ p :: B ∧ w.items[A.length]? = some pItem ∧ w.mName pItem = some p ∧
      p ∉ A ++ B ∧ IStringMapToIndex.Numbers w.mem m (A ++ szName :: B) ∧
      setName w pItem szName block = some { w with
        itemsHash := m
        live := if block = p then w.live
          else Function.update (Function.update w.live p false) block true
        mem := Function.update w.mem p (w.mem szName) } := by
  obtain ⟨i, p, hi, hname, hp⟩ := h.cell_of_member hmem
  obtain ⟨A, q, B, rfl, rfl⟩ := exists_split_at (List.getElem?_eq_some_iff.mp hp).1
  obtain rfl : q = p := by simpa using hp
  have hnodup : (q :: (A ++ B)).Nodup := List.perm_middle.nodup_iff.mp h.numbers.nodup.of_map
  have hq : q ∉ A ++ B := (List.nodup_cons.mp hnodup).1
  have hfold : IStringMap.fold w.mem szName ∉ (A ++ B).map (IStringMap.fold w.mem) := by
    intro hin
    obtain ⟨r, hr, heq⟩ := List.mem_map.mp hin
    obtain ⟨item, hitem, hname'⟩ := h.item_of_mem (List.perm_middle.mem_iff.mpr
      (List.mem_cons_of_mem q hr))
    refine hnew item hitem ?_ r hname' heq
    rintro rfl
    obtain rfl : q = r := Option.some.inj (hname.symm.trans hname')
    exact hq hr
  obtain ⟨m, hrename, hnumbers⟩ := renameIndex_numbers h.numbers (h.length_eq ▸ hroom) hfold
  refine ⟨A, q, B, m, rfl, hi, hname, hq, hnumbers, ?_⟩
  rw [setName, if_pos hmem, hname, Option.bind_some, hrename]
  rfl

theorem add_inOrder {pItem : ι} {p : Ptr} (hout : w.pCollection pItem = false)
    (hname : w.mName pItem = some p) (hnew : NewName w pItem (w.mem p))
    (hroom : w.items.length < 2 ^ 28) :
    ∃ w', add w pItem = some w' ∧ InOrder w' (P ++ [p]) := by
  have hnot : pItem ∉ w.items := fun hmem => by
    rw [(h.members pItem).mpr hmem] at hout
    exact Bool.noConfusion hout
  have hfold : IStringMap.fold w.mem p ∉ P.map (IStringMap.fold w.mem) := by
    intro hin
    obtain ⟨q, hq, heq⟩ := List.mem_map.mp hin
    obtain ⟨item, hitem, hname'⟩ := h.item_of_mem hq
    exact hnew item hitem (fun heq' => hnot (heq' ▸ hitem)) q hname' heq
  obtain ⟨m, hadd, hnumbers⟩ := IStringMapToIndex.add_numbers h.numbers (h.length_eq ▸ hroom) hfold
  have hadded : add w pItem = some { w with
      itemsHash := m
      items := w.items ++ [pItem]
      pCollection := Function.update w.pCollection pItem true } := by
    rw [add, hname, Option.bind_some, hadd]
    rfl
  refine ⟨_, hadded, ⟨?_, ?_, hnumbers, h.live, h.own⟩⟩
  · intro item
    rw [List.mem_append, List.mem_singleton, ← h.members]
    by_cases hitem : item = pItem
    · rw [hitem]
      exact iff_of_true (Function.update_self pItem true w.pCollection) (Or.inr rfl)
    · dsimp only
      rw [Function.update_of_ne hitem, or_iff_left hitem]
  · rw [List.map_append, List.map_append, h.cells, List.map_singleton, hname]
    rfl

/-- A tidy step keeps the names in order. -/
theorem step_inOrder {op : NameOp ι} (hop : op.Asserted w) (hroom : w.items.length < 2 ^ 28)
    (htidy : op.Tidy w) : ∃ w' P', step w op = some w' ∧ InOrder w' P' := by
  cases op with
  | setName pItem szName block =>
      obtain ⟨hnone | ⟨hmem, hnew⟩, hblock⟩ := hop
      · rcases hblock with hblock | ⟨hfree, -⟩
        · exact absurd (hnone.symm.trans hblock) (Option.some_ne_none block).symm
        · obtain ⟨w', hstep, h'⟩ := setName_first h hnone hfree szName
          exact ⟨w', P, hstep, h'⟩
      · obtain ⟨hown, rfl⟩ := htidy hmem
        obtain ⟨A, p, B, m, rfl, -, hname, -, hnumbers, hstep⟩ :=
          setName_member h hmem hnew hroom block
        obtain rfl : block = p := Option.some.inj (hown.symm.trans hname)
        rw [if_pos rfl, Function.update_eq_self] at hstep
        exact ⟨_, _, hstep, ⟨h.members, h.cells, hnumbers, h.live, h.own⟩⟩
  | add pItem =>
      obtain ⟨hout, p, hname, hnew⟩ := hop
      obtain ⟨w', hstep, h'⟩ := add_inOrder h hout hname hnew hroom
      exact ⟨w', _, hstep, h'⟩
  | write ptr text => exact ⟨_, P, rfl, write_inOrder h hop text⟩

/-- A step after which all items are found was tidy: the key of a renamed item is
    the caller's pointer, and a block that was moved is not the item's any more. -/
theorem tidy_of_findable {op : NameOp ι} {w' : World ι} (hop : op.Asserted w)
    (hroom : w.items.length < 2 ^ 28) (hstep : step w op = some w') (hfound : Findable w') :
    op.Tidy w := by
  cases op with
  | setName pItem szName block =>
      intro hmem
      have hnew : NewName w pItem (w.mem szName) :=
        (hop.1.resolve_left fun hnone => h.not_member hnone hmem).2
      obtain ⟨A, p, B, m, rfl, hi, hname, hp, hnumbers, hset⟩ :=
        setName_member h hmem hnew hroom block
      obtain rfl := Option.some.inj (hset.symm.trans hstep)
      obtain ⟨q, hname', hlive, hkey, -⟩ := hfound.found A.length pItem hi
      obtain rfl : p = q := Option.some.inj (hname.symm.trans hname')
      obtain rfl : szName = p := by
        by_contra hne
        have hcaller := lookupKey_renamed hnumbers hp hne
        exact hne (Option.some.inj (hcaller.symm.trans hkey))
      refine ⟨hname, ?_⟩
      by_contra hne
      dsimp only at hlive
      rw [if_neg hne, Function.update_of_ne (Ne.symm hne), Function.update_self] at hlive
      exact Bool.noConfusion hlive
  | add _ | write _ _ => trivial

end Steps

end Naming

open Naming

/-- From any collection whose index has the items' own names as keys, through any
    first names, additions, renames and changes of memory that no item owns: after
    every step all items are found by their names, under keys of their own,
    exactly if no item of the collection ever gets a name except the one it has,
    passed by its own pointer, and `realloc` never moves one. -/
theorem setName_findable_iff {ι : Type} [DecidableEq ι] (w₀ : World ι) (P : List Ptr)
    (hstart : InOrder w₀ P) (ops : List (NameOp ι))
    (hasserted : Along step w₀ ops fun _ w op => op.Asserted w)
    (hcount : Along step w₀ ops fun _ w _ => w.items.length < 2 ^ 28) :
    (∀ pre, pre <+: ops → ∃ w, runOps step w₀ pre = some w ∧ Findable w) ↔
      Along step w₀ ops fun _ w op => op.Tidy w := by
  refine forall_initial_iff_along (I := fun w => ∃ P, InOrder w P) ⟨P, hstart⟩ ?_ ?_ ?_
  · rintro w ⟨P, h⟩
    exact findable_of_inOrder h
  · rintro hist w op rest hops hw ⟨P, h⟩ htidy
    obtain ⟨w', P', hstep, h'⟩ := step_inOrder h (hasserted hist op rest hops w hw)
      (hcount hist op rest hops w hw) htidy
    exact ⟨w', hstep, P', h'⟩
  · rintro hist w op rest w' hops hw ⟨P, h⟩ hstep hfound
    exact tidy_of_findable h (hasserted hist op rest hops w hw) (hcount hist op rest hops w hw)
      hstep hfound

/-- Two buffers of a caller, with the names `a` and `b`. -/
def twoBuffers (ptr : Ptr) : CStr := if ptr = 1 then CStr.lit "b" else CStr.lit "a"

/-- An item gets the name in the first buffer and is added; then it gets a name
    again. -/
def namedAgain (szName block : Ptr) (change : NameOp Unit) : List (NameOp Unit) :=
  [.setName () 0 10, .add (), .setName () szName block, change]

/-- An item that gets its own name again is found, whatever is in the buffer. -/
theorem setName_findable_iff_ownName :
    ∃ w, runOps step (World.new twoBuffers) (namedAgain 10 10 (.write 0 (CStr.lit "c"))) = some w ∧
      Findable w := by
  refine (setName_findable_iff (World.new twoBuffers) [] (inOrder_new twoBuffers)
    (namedAgain 10 10 (.write 0 (CStr.lit "c"))) ?_ ?_).mpr ?_ _ List.prefix_rfl
  · exact along_of_forall_take (by decide)
  · exact along_of_forall_take (by decide)
  · exact along_of_forall_take (by decide)

/-- An item that is renamed to the name in the second buffer is not found by it
    any more when the buffer has changed; nor is one whose block was moved and then
    used for something else. -/
theorem not_findable_of_buffer_changed :
    (Along step (World.new twoBuffers) (namedAgain 1 10 (.write 1 (CStr.lit "c")))
        (fun _ w op => op.Asserted w) ∧
      (runOps step (World.new twoBuffers) (namedAgain 1 10 (.write 1 (CStr.lit "c")))).map
        (fun w => (w.mem 10, getIndex w (w.mem 10))) = some (CStr.lit "b", -1)) ∧
    (Along step (World.new twoBuffers) (namedAgain 10 11 (.write 10 (CStr.lit "c")))
        (fun _ w op => op.Asserted w) ∧
      (runOps step (World.new twoBuffers) (namedAgain 10 11 (.write 10 (CStr.lit "c")))).map
        (fun w => (getIndex w (w.mem 10), getIndex w (CStr.lit "a"))) = some (-1, -1)) := by
  refine ⟨⟨along_of_forall_take (by decide), by decide⟩,
    ⟨along_of_forall_take (by decide), by decide⟩⟩

end Curl1C
