/-
  Curl1C.BLColl.Collection

  `CCollection` of istrmap.cpp: an array of items and an index of their names.

  The index is a `CIStringMapToIndex` whose keys are the items' own names, so
  its stored keys are the items and `name` is what they spell.  Names do not
  change here.

  `Move` takes the item out of the array and puts it back at `nIndex + nOffset`,
  and accepts the size of the array as a target.  One slot is missing then, so
  `CPtrArray::InsertAt` grows the array by two and leaves a slot empty between
  the last item and the moved one.  For all other calls the array and the index
  stay in step.

  `OnAdd`, `OnRemove` and the back pointer of an item are left out: nothing here
  reads them.  `none` is an access outside the array, an access through an empty
  slot, or a failure of the index.

  Main result: `collection_agrees_iff`.
-/

import Curl1C.BLColl.ToIndex
import Curl1C.Lib.Run

namespace Curl1C

open Lib

/-! ## `CPtrArray` -/

namespace PtrArray

variable {ι : Type}

/-- `GetAt`, `operator[]`. -/
def getAt (a : List (Option ι)) (nIndex : Int) : Option (Option ι) :=
  if 0 ≤ nIndex then a[nIndex.toNat]? else none

/-- `RemoveAt`. -/
def removeAt (a : List (Option ι)) (nIndex : Int) : Option (List (Option ι)) :=
  if 0 ≤ nIndex ∧ nIndex < a.length then some (a.eraseIdx nIndex.toNat) else none

/-- `InsertAt`: past the end it first fills up with empty slots. -/
def insertAt (a : List (Option ι)) (nIndex : Int) (p : Option ι) : Option (List (Option ι)) :=
  if 0 ≤ nIndex then
    some (if nIndex < a.length then a.insertIdx nIndex.toNat p
      else a ++ List.replicate (nIndex.toNat - a.length) none ++ [p])
  else none

theorem getAt_nat (a : List (Option ι)) (n : Nat) : getAt a n = a[n]? := by
  rw [getAt, if_pos (by omega), Int.toNat_natCast]

theorem removeAt_nat {a : List (Option ι)} {n : Nat} (hn : n < a.length) :
    removeAt a n = some (a.eraseIdx n) := by
  rw [removeAt, if_pos (by omega), Int.toNat_natCast]

/-- Up to the end of the array nothing is filled up. -/
theorem insertAt_nat {a : List (Option ι)} {n : Nat} (hn : n ≤ a.length) (p : Option ι) :
    insertAt a n p = some (a.insertIdx n p) := by
  rw [insertAt, if_pos (by omega), Int.toNat_natCast]
  split
  · rfl
  · obtain rfl : n = a.length := by omega
    simp

/-- Behind the end a slot stays empty. -/
theorem none_mem_insertAt {a b : List (Option ι)} {nIndex : Int} {p : Option ι}
    (hpast : a.length < nIndex) (hinsert : insertAt a nIndex p = some b) : none ∈ b := by
  rw [insertAt, if_pos (by omega), if_neg (by omega)] at hinsert
  obtain rfl := Option.some.inj hinsert
  have hfill : nIndex.toNat - a.length ≠ 0 := by omega
  simp [hfill]

end PtrArray

/-! ## Operations -/

/-- `CCollection`: `m_Items` and `m_ItemsHash`. -/
structure Collection (ι : Type) where
  items : List (Option ι)
  itemsHash : IStringMapToIndex ι

namespace Collection

open PtrArray

variable {ι : Type} (name : ι → CStr)

/-- `CCollection()`. -/
def new : Collection ι := ⟨[], IStringMap.new⟩

/-- `GetCount`. -/
def getCount (c : Collection ι) : Nat := c.items.length

/-- `Add`. -/
def add (c : Collection ι) (pItem : ι) : Option (Collection ι) :=
  (IStringMapToIndex.add name c.itemsHash pItem).map fun (h, _) => ⟨c.items ++ [some pItem], h⟩

/-- `Insert`. -/
def insert (c : Collection ι) (nIndex : Int) (pItem : ι) : Option (Collection ι) :=
  (insertAt c.items nIndex (some pItem)).bind fun items =>
    (IStringMapToIndex.insert name c.itemsHash nIndex pItem).map fun h => ⟨items, h⟩

/-- `Remove`. -/
def remove (c : Collection ι) (nIndex : Int) : Option (Collection ι) :=
  ((getAt c.items nIndex).bind id).bind fun pItem =>
    (IStringMapToIndex.remove name c.itemsHash (name pItem)).bind fun (h, _) =>
      (removeAt c.items nIndex).map fun items => ⟨items, h⟩

/-- `Clear`.  The loop writes to every item. -/
def clear (c : Collection ι) : Option (Collection ι) :=
  if c.items.all Option.isSome then some ⟨[], IStringMap.removeAll c.itemsHash⟩ else none

/-- `Move`. -/
def move (c : Collection ι) (nIndex nOffset : Int) : Option (Collection ι) :=
  (getAt c.items nIndex).bind fun pItem =>
    (removeAt c.items nIndex).bind fun items =>
      (insertAt items (nIndex + nOffset) pItem).bind fun items =>
        (IStringMapToIndex.move name c.itemsHash nIndex nOffset).map fun h => ⟨items, h⟩

/-- `operator[](LPCSTR)`. -/
def itemByName (c : Collection ι) (szName : CStr) : Option (Option ι) :=
  match IStringMap.lookup name c.itemsHash szName with
  | some nIndex => getAt c.items nIndex
  | none => some none

/-- `GetIndex(CCollectionItem*)`. -/
def indexOfItem [DecidableEq ι] (c : Collection ι) (pItem : ι) : Int :=
  match c.items.findIdx? fun p => decide (p = some pItem) with
  | some i => i
  | none => -1

/-- `GetIndex(LPCSTR)`. -/
def indexOfName (c : Collection ι) (szName : CStr) : Int :=
  (IStringMap.lookup name c.itemsHash szName).getD (-1)

/-- The names of the items, without regard to case. -/
def names (c : Collection ι) : List (List (BitVec 32)) :=
  (c.items.filterMap id).map (IStringMap.fold name)

/-- An operation of a client. -/
inductive CollOp (ι : Type) where
  | add (pItem : ι)
  | insert (nIndex : Int) (pItem : ι)
  | remove (nIndex : Int)
  | clear
  | move (nIndex nOffset : Int)

/-- An operation on the collection. -/
def step (c : Collection ι) : CollOp ι → Option (Collection ι)
  | .add pItem => add name c pItem
  | .insert nIndex pItem => insert name c nIndex pItem
  | .remove nIndex => remove name c nIndex
  | .clear => clear c
  | .move nIndex nOffset => move name c nIndex nOffset

/-- What the operation asserts; new items have new names. -/
def CollOp.Asserted (c : Collection ι) : CollOp ι → Prop
  | .add pItem => IStringMap.fold name pItem ∉ c.names name
  | .insert nIndex pItem =>
      0 ≤ nIndex ∧ nIndex ≤ c.getCount ∧ IStringMap.fold name pItem ∉ c.names name
  | .remove nIndex => 0 ≤ nIndex ∧ nIndex < c.getCount
  | .clear => True
  | .move nIndex nOffset => 0 ≤ nIndex ∧ nIndex < c.getCount ∧ nOffset ≠ 0 ∧
      0 ≤ nIndex + nOffset ∧ nIndex + nOffset ≤ c.getCount

instance (c : Collection ι) (op : CollOp ι) : Decidable (op.Asserted name c) :=
  match op with
  | .add pItem => inferInstanceAs (Decidable (IStringMap.fold name pItem ∉ c.names name))
  | .insert nIndex pItem => inferInstanceAs (Decidable
      (0 ≤ nIndex ∧ nIndex ≤ c.getCount ∧ IStringMap.fold name pItem ∉ c.names name))
  | .remove nIndex => inferInstanceAs (Decidable (0 ≤ nIndex ∧ nIndex < c.getCount))
  | .clear => inferInstanceAs (Decidable True)
  | .move nIndex nOffset => inferInstanceAs (Decidable
      (0 ≤ nIndex ∧ nIndex < c.getCount ∧ nOffset ≠ 0 ∧
        0 ≤ nIndex + nOffset ∧ nIndex + nOffset ≤ c.getCount))

/-- A move to the position behind the last item. -/
def CollOp.PastEnd (c : Collection ι) : CollOp ι → Prop
  | .move nIndex nOffset => nIndex + nOffset = c.getCount
  | _ => False

instance (c : Collection ι) (op : CollOp ι) : Decidable (op.PastEnd c) :=
  match op with
  | .move nIndex nOffset => inferInstanceAs (Decidable (nIndex + nOffset = c.getCount))
  | .add _ | .insert _ _ | .remove _ | .clear => inferInstanceAs (Decidable False)

/-! ## Array and index -/

/-- The array and the index agree. -/
structure Agrees [DecidableEq ι] (c : Collection ι) : Prop where
  count : c.getCount = IStringMap.getCount c.itemsHash
  filled : none ∉ c.items
  found : ∀ (i : Nat) item, c.items[i]? = some (some item) →
    indexOfName name c (name item) = i ∧ indexOfItem c item = i ∧
      itemByName name c (name item) = some (some item)

/-- The array has the items of the list, and the index their positions. -/
structure InStep (c : Collection ι) (L : List ι) : Prop where
  items : c.items = L.map some
  numbers : IStringMapToIndex.Numbers name c.itemsHash L

variable {name} {c : Collection ι} {L : List ι}

theorem inStep_new : InStep name (new : Collection ι) [] :=
  ⟨rfl, IStringMapToIndex.numbers_new⟩

theorem InStep.getCount_eq (h : InStep name c L) : c.getCount = L.length := by
  rw [getCount, h.items, List.length_map]

theorem InStep.getElem?_eq (h : InStep name c L) (n : Nat) : c.items[n]? = L[n]?.map some := by
  rw [h.items, List.getElem?_map]

theorem InStep.names_eq (h : InStep name c L) :
    c.names name = L.map (IStringMap.fold name) := by
  rw [names, h.items, List.filterMap_map]
  simp

theorem InStep.indexOfItem_eq [DecidableEq ι] (h : InStep name c L) {n : Nat} {item : ι}
    (hn : L[n]? = some item) : indexOfItem c item = n := by
  have hnodup : L.Nodup := h.numbers.nodup.of_map _
  have hlen : n < (L.map some).length := by
    rw [List.length_map]
    exact (List.getElem?_eq_some_iff.mp hn).1
  have hfind : c.items.findIdx? (fun p => decide (p = some item)) = some n := by
    rw [h.items, List.findIdx?_eq_some_iff_getElem]
    refine ⟨hlen, ?_, ?_⟩
    · obtain ⟨_, hitem⟩ := List.getElem?_eq_some_iff.mp hn
      simp [hitem]
    · intro j hj heq
      obtain ⟨hlt, hitem⟩ := List.getElem?_eq_some_iff.mp hn
      have hlt' : j < L.length := hj.trans hlt
      have hsame : L[j] = L[n] := by simpa [hitem] using heq
      exact absurd (hnodup.getElem_inj_iff.mp hsame) hj.ne
  rw [indexOfItem, hfind]

theorem agrees_of_inStep [DecidableEq ι] (h : InStep name c L) : Agrees name c where
  count := by
    rw [h.getCount_eq]
    exact h.numbers.count.symm
  filled := by
    rw [h.items]
    simp
  found := by
    intro i item hi
    have hL : L[i]? = some item := by
      rw [h.getElem?_eq] at hi
      simpa using hi
    have hown : IStringMap.fold name item = upperFold (name item) := rfl
    have hlookup := h.numbers.lookup_eq hL hown
    refine ⟨?_, h.indexOfItem_eq hL, ?_⟩
    · rw [indexOfName, hlookup]
      rfl
    · rw [itemByName, hlookup]
      exact (getAt_nat c.items i).trans hi

/-! ## Steps -/

section Steps

variable (h : InStep name c L) (hroom : L.length < 2 ^ 28)
include h

include hroom in
theorem add_inStep {pItem : ι} (hnew : IStringMap.fold name pItem ∉ c.names name) :
    ∃ c', add name c pItem = some c' ∧ InStep name c' (L ++ [pItem]) := by
  rw [h.names_eq] at hnew
  obtain ⟨m, hadd, hnumbers⟩ := IStringMapToIndex.add_numbers h.numbers hroom hnew
  refine ⟨⟨c.items ++ [some pItem], m⟩, ?_, ?_, hnumbers⟩
  · rw [add, hadd]
    rfl
  · rw [h.items, List.map_append]
    rfl

include hroom in
theorem insert_inStep {pItem : ι} {n : Nat} (hn : n ≤ L.length)
    (hnew : IStringMap.fold name pItem ∉ c.names name) :
    ∃ c', insert name c n pItem = some c' ∧ InStep name c' (L.insertIdx n pItem) := by
  rw [h.names_eq] at hnew
  obtain ⟨m, hinsert, hnumbers⟩ := IStringMapToIndex.insert_numbers h.numbers hroom hn hnew
  have hlen : n ≤ c.items.length := by rwa [h.items, List.length_map]
  refine ⟨⟨c.items.insertIdx n (some pItem), m⟩, ?_, ?_, hnumbers⟩
  · rw [insert, insertAt_nat hlen, Option.bind_some, hinsert]
    rfl
  · rw [h.items, ← List.map_insertIdx]

include hroom in
theorem remove_inStep {n : Nat} (hn : n < L.length) :
    ∃ c', remove name c n = some c' ∧ InStep name c' (L.eraseIdx n) := by
  obtain ⟨item, hitem⟩ : ∃ item, L[n]? = some item := ⟨_, List.getElem?_eq_getElem hn⟩
  have hown : IStringMap.fold name item = upperFold (name item) := rfl
  obtain ⟨m, hremove, hnumbers⟩ := IStringMapToIndex.remove_numbers h.numbers hroom hitem hown
  have hlen : n < c.items.length := by rwa [h.items, List.length_map]
  have hslot : getAt c.items n = some (some item) := by
    rw [getAt_nat, h.getElem?_eq, hitem]
    rfl
  refine ⟨⟨c.items.eraseIdx n, m⟩, ?_, ?_, hnumbers⟩
  · rw [remove, hslot, Option.bind_some, id, Option.bind_some, hremove, Option.bind_some]
    show (removeAt c.items n).map _ = _
    rw [removeAt_nat hlen]
    rfl
  · rw [h.items, List.eraseIdx_map]

theorem clear_inStep : ∃ c', clear c = some c' ∧ InStep name c' [] := by
  refine ⟨⟨[], IStringMap.removeAll c.itemsHash⟩, ?_, rfl,
    IStringMapToIndex.numbers_removeAll c.itemsHash⟩
  rw [clear, if_pos]
  simp [h.items]

/-- A move to a position that an item has. -/
theorem move_inStep {i off : Int} (hi : 0 ≤ i) (hlt : i < L.length) (hoff : off ≠ 0)
    (htarget : 0 ≤ i + off) (htarget' : i + off < L.length) :
    ∃ c', move name c i off = some c' ∧
      InStep name c' (moveElem L i.toNat (i + off).toNat) := by
  obtain ⟨m, hmove, hnumbers⟩ :=
    IStringMapToIndex.move_numbers h.numbers hi hlt hoff htarget htarget'
  obtain ⟨n, rfl⟩ := Int.eq_ofNat_of_zero_le hi
  obtain ⟨j, hj⟩ := Int.eq_ofNat_of_zero_le htarget
  rw [hj] at htarget' hnumbers ⊢
  obtain ⟨item, hitem⟩ : ∃ item, L[n]? = some item := ⟨_, List.getElem?_eq_getElem (by omega)⟩
  have hlen : c.items.length = L.length := by rw [h.items, List.length_map]
  have hslot : getAt c.items n = some (some item) := by
    rw [getAt_nat, h.getElem?_eq, hitem]
    rfl
  have hroom : j ≤ (c.items.eraseIdx n).length := by
    rw [List.length_eraseIdx_of_lt (by omega)]
    omega
  refine ⟨⟨(c.items.eraseIdx n).insertIdx j (some item), m⟩, ?_, ?_, hnumbers⟩
  · rw [move, hslot, Option.bind_some, removeAt_nat (by omega), Option.bind_some, hj,
      insertAt_nat hroom, Option.bind_some, hmove]
    rfl
  · rw [Int.toNat_natCast, Int.toNat_natCast, moveElem, hitem, h.items, List.eraseIdx_map,
      ← List.map_insertIdx]

/-- Every asserted operation that is not a move past the end keeps the array and
    the index in step. -/
theorem step_inStep {op : CollOp ι} (hroom : L.length < 2 ^ 28) (hop : op.Asserted name c)
    (hend : ¬ op.PastEnd c) : ∃ c' L', step name c op = some c' ∧ InStep name c' L' := by
  have hcount := h.getCount_eq
  cases op with
  | add pItem =>
      obtain ⟨c', hadd, h'⟩ := add_inStep h hroom hop
      exact ⟨c', _, hadd, h'⟩
  | insert nIndex pItem =>
      obtain ⟨hlow, hhigh, hnew⟩ := hop
      obtain ⟨n, rfl⟩ := Int.eq_ofNat_of_zero_le hlow
      obtain ⟨c', hinsert, h'⟩ := insert_inStep h hroom (n := n) (by omega) hnew
      exact ⟨c', _, hinsert, h'⟩
  | remove nIndex =>
      obtain ⟨hlow, hhigh⟩ := hop
      obtain ⟨n, rfl⟩ := Int.eq_ofNat_of_zero_le hlow
      obtain ⟨c', hremove, h'⟩ := remove_inStep h hroom (n := n) (by omega)
      exact ⟨c', _, hremove, h'⟩
  | clear =>
      obtain ⟨c', hclear, h'⟩ := clear_inStep h
      exact ⟨c', _, hclear, h'⟩
  | move nIndex nOffset =>
      obtain ⟨hlow, hhigh, hoff, hlow', hhigh'⟩ := hop
      -- `Move` asserts a target up to the count, one behind the last position
      have hne : nIndex + nOffset ≠ c.getCount := hend
      obtain ⟨c', hmove, h'⟩ := move_inStep h hlow (by omega) hoff hlow' (by omega)
      exact ⟨c', _, hmove, h'⟩

end Steps

/-- A move past the end leaves an empty slot. -/
theorem none_mem_of_pastEnd {c' : Collection ι} {op : CollOp ι} (hend : op.PastEnd c)
    (hstep : step name c op = some c') : none ∈ c'.items := by
  cases op with
  | move nIndex nOffset =>
      have htarget : nIndex + nOffset = c.items.length := hend
      obtain ⟨p, -, hrest⟩ := Option.bind_eq_some_iff.mp hstep
      obtain ⟨items, hremove, hrest⟩ := Option.bind_eq_some_iff.mp hrest
      obtain ⟨items', hinsert, hrest⟩ := Option.bind_eq_some_iff.mp hrest
      obtain ⟨m, -, rfl⟩ := Option.map_eq_some_iff.mp hrest
      rw [removeAt] at hremove
      split at hremove
      · rename_i hrange
        obtain rfl := Option.some.inj hremove
        refine none_mem_insertAt ?_ hinsert
        rw [List.length_eraseIdx_of_lt (by omega)]
        omega
      · exact absurd hremove (by simp)
  | add _ | insert _ _ | remove _ | clear => exact hend.elim

end Collection

open Collection

/-- Along a run of operations that are called as they assert, with new names for
    new items and fewer than `2 ^ 28` items, the array and the index agree after
    every operation exactly if no move goes past the end. -/
theorem collection_agrees_iff {ι : Type} [DecidableEq ι] (name : ι → CStr) (ops : List (CollOp ι))
    (hasserted : Along (step name) new ops fun _ c op => op.Asserted name c)
    (hcount : Along (step name) new ops fun _ c _ => c.getCount < 2 ^ 28) :
    (∀ pre, pre <+: ops → ∃ c, runOps (step name) new pre = some c ∧ Agrees name c) ↔
      Along (step name) new ops fun _ c op => ¬ op.PastEnd c := by
  -- `InStep` is what the steps keep; agreement follows from it
  refine forall_initial_iff_along (I := fun c => ∃ L, InStep name c L) ⟨[], inStep_new⟩ ?_ ?_ ?_
  · rintro c ⟨L, h⟩
    exact agrees_of_inStep h
  · rintro hist c op rest hops hc ⟨L, h⟩ hend
    have hroom : c.getCount < 2 ^ 28 := hcount hist op rest hops c hc
    rw [h.getCount_eq] at hroom
    obtain ⟨c', L', hnext, h'⟩ := step_inStep h hroom (hasserted hist op rest hops c hc) hend
    exact ⟨c', hnext, L', h'⟩
  · intro hist c op rest c' hops hc _ hstep hagrees hend
    exact hagrees.filled (none_mem_of_pastEnd hend hstep)

/-- Two items with the names `a` and `b`. -/
def letter (second : Bool) : CStr := if second then CStr.lit "b" else CStr.lit "a"

/-- A move to the last position keeps both in step. -/
theorem collection_agrees_iff_lastPosition :
    ∃ c, runOps (step letter) new [.add false, .add true, .move 0 1] = some c ∧
      Agrees letter c := by
  refine (collection_agrees_iff letter [.add false, .add true, .move 0 1] ?_ ?_).mpr ?_ _
    List.prefix_rfl
  · exact along_of_forall_take (by decide)
  · exact along_of_forall_take (by decide)
  · exact along_of_forall_take (by decide)

/-- The first of two items is moved by two: the array has three slots then, one
    of them empty, and the index two entries. -/
theorem not_agrees_of_move_past_end :
    Along (step letter) new [.add false, .add true, .move 0 2]
        (fun _ c op => op.Asserted letter c) ∧
      ∃ c, runOps (step letter) new [.add false, .add true, .move 0 2] = some c ∧
        c.items = [some true, none, some false] ∧ IStringMap.getCount c.itemsHash = 2 ∧
        ¬ Agrees letter c := by
  have hitems : (runOps (step letter) new [.add false, .add true, .move 0 2]).map
      (fun c => (c.items, IStringMap.getCount c.itemsHash)) =
      some ([some true, none, some false], 2) := by decide
  obtain ⟨c, hrun, heq⟩ := Option.map_eq_some_iff.mp hitems
  obtain ⟨hc, hhash⟩ := Prod.mk.inj heq
  refine ⟨along_of_forall_take (by decide), c, hrun, hc, hhash, ?_⟩
  intro hagrees
  exact hagrees.filled (by simp [hc])

end Curl1C
