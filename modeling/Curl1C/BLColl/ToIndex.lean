/-
  Curl1C.BLColl.ToIndex

  `CIStringMapToIndex` of istrmap.cpp: keys with contiguous indexes.

  The class stores for each key its position in a list that exists nowhere.
  `Numbers` says which list that is.  `ShiftIndexes` and `Move` write to the
  table they are iterating over; this is harmless because `SetAt` on a key that
  is there changes the value of its node and nothing else, so the iteration
  goes on as if nothing had been written (`renumberFrom_refines`).

  An `int` is an integer here: indexes stay below the number of keys, and
  signed overflow has no meaning in the source.  `ASSERT` is nothing in a
  release build.  `none` is a pointer that is not there, a loop that does not
  end, or the use of a variable that was never set.

  Main result: `indexes_contiguous`.
-/

import Curl1C.BLColl.MapRefinement
import Curl1C.Lib.Numbering

namespace Curl1C

open Lib HashTable

/-- `CIStringMapToIndex`. -/
abbrev IStringMapToIndex (κ : Type) := IStringMap κ Int

namespace IStringMapToIndex

open IStringMap

variable {κ : Type} (text : κ → CStr)

/-! ## Operations -/

/-- `Add`. -/
def add (m : IStringMapToIndex κ) (szKey : κ) : Option (IStringMapToIndex κ × Int) :=
  let nIndex : Int := getCount m
  (setAt text m szKey nIndex).map fun m => (m, nIndex)

/-- A loop over all associations whose body assigns to some of them: `value` is
    what it assigns, if anything. -/
def renumberFrom (value : Int → Option Int) :
    Nat → Position → IStringMapToIndex κ → Option (IStringMapToIndex κ)
  | _, .null, m => some m
  | 0, _, _ => none
  | fuel + 1, pos, m =>
      (getNextAssoc m pos).bind fun (pos, sHashKey, nHashIndex) =>
        match value nHashIndex with
        | some v => (setAt text m sHashKey v).bind (renumberFrom value fuel pos)
        | none => renumberFrom value fuel pos m

/-- Such a loop from the first association on. -/
def renumberAll (value : Int → Option Int) (m : IStringMapToIndex κ) :
    Option (IStringMapToIndex κ) :=
  renumberFrom text value m.count (getStartPosition m) m

/-- `ShiftIndexes`. -/
def shiftIndexes (m : IStringMapToIndex κ) (nStartIndex nDelta : Int) :
    Option (IStringMapToIndex κ) :=
  renumberAll text (fun nHashIndex =>
    if nHashIndex ≥ nStartIndex then some (nHashIndex + nDelta) else none) m

/-- `Insert`. -/
def insert (m : IStringMapToIndex κ) (nIndex : Int) (szKey : κ) : Option (IStringMapToIndex κ) :=
  (shiftIndexes text m nIndex 1).bind fun m => setAt text m szKey nIndex

/-- `Remove(LPCSTR)`.  The index of a key that is not there was never set. -/
def remove (m : IStringMapToIndex κ) (szKey : CStr) : Option (IStringMapToIndex κ × Int) :=
  (lookup text m szKey).bind fun nIndex =>
    (removeKey text m szKey).bind fun (m, _) =>
      (shiftIndexes text m nIndex (-1)).map fun m => (m, nIndex)

/-- The loop of `Remove(int)`, which ends with the first key that has the
    index. -/
def removeFrom (nIndex : Int) :
    Nat → Position → IStringMapToIndex κ → Option (IStringMapToIndex κ)
  | _, .null, m => some m
  | 0, _, _ => none
  | fuel + 1, pos, m =>
      (getNextAssoc m pos).bind fun (pos, sHashKey, nHashIndex) =>
        if nHashIndex = nIndex then (removeKey text m (text sHashKey)).map Prod.fst
        else removeFrom nIndex fuel pos m

/-- `Remove(int)`. -/
def removeAt (m : IStringMapToIndex κ) (nIndex : Int) : Option (IStringMapToIndex κ) :=
  (removeFrom text nIndex m.count (getStartPosition m) m).bind fun m =>
    shiftIndexes text m nIndex (-1)

/-- What the loop of `Move` assigns. -/
def moveValue (nIndex nOffset nHashIndex : Int) : Option Int :=
  let nNewIndex := nIndex + nOffset
  let nFirst := if nOffset > 0 then nIndex else nNewIndex
  let nLast := if nOffset > 0 then nNewIndex else nIndex
  if nHashIndex = nIndex then some nNewIndex
  else if nFirst ≤ nHashIndex ∧ nHashIndex ≤ nLast then
    if nOffset < 0 then some (nHashIndex + 1) else some (nHashIndex - 1)
  else none

/-- `Move`. -/
def move (m : IStringMapToIndex κ) (nIndex nOffset : Int) : Option (IStringMapToIndex κ) :=
  renumberAll text (moveValue nIndex nOffset) m

/-! ## The list of keys -/

/-- The map stores the positions of the keys in the list `L`. -/
def Numbers (m : IStringMapToIndex κ) (L : List κ) : Prop :=
  ∃ d, Refines text m d ∧ Dict.Lists (fold text) (numbered 0 L) d

variable {text} {m : IStringMapToIndex κ} {L : List κ}

theorem numbers_new : Numbers text (new : IStringMapToIndex κ) [] :=
  ⟨∅, refines_new, Dict.lists_nil⟩

theorem numbers_removeAll (m : IStringMapToIndex κ) : Numbers text (removeAll m) [] :=
  ⟨∅, removeAll_refines m, Dict.lists_nil⟩

theorem Numbers.count (h : Numbers text m L) : m.count = L.length := by
  obtain ⟨d, hrefines, hlists⟩ := h
  rw [hrefines.count, hlists.count_eq, length_numbered]

/-- No two keys are equal without regard to case. -/
theorem Numbers.nodup (h : Numbers text m L) : (L.map (fold text)).Nodup := by
  obtain ⟨d, -, hlists⟩ := h
  have hnodup := hlists.nodup
  rwa [← Function.comp_def, ← List.map_map, map_fst_numbered] at hnodup

/-- A key is found at its position. -/
theorem Numbers.lookup_eq (h : Numbers text m L) {n : Nat} {k : κ} {key : CStr}
    (hn : L[n]? = some k) (hk : fold text k = upperFold key) :
    lookup text m key = some (n : Int) := by
  obtain ⟨d, hrefines, hlists⟩ := h
  have hmem : (k, (n : Int)) ∈ numbered 0 L := mem_numbered.mpr ⟨n, hn, by omega⟩
  rw [(agrees_of_refines hrefines).lookup key, hlists.lookup_eq_some_iff.mpr ⟨hmem, hk⟩,
    Option.map_some]

/-- The stored key of a position is the one of the list. -/
theorem Numbers.lookupKey_eq (h : Numbers text m L) {n : Nat} {k : κ} {key : CStr}
    (hn : L[n]? = some k) (hk : fold text k = upperFold key) :
    lookupKey text m key = some k := by
  obtain ⟨d, hrefines, hlists⟩ := h
  have hmem : (k, (n : Int)) ∈ numbered 0 L := mem_numbered.mpr ⟨n, hn, by omega⟩
  rw [(agrees_of_refines hrefines).lookupKey key, hlists.lookup_eq_some_iff.mpr ⟨hmem, hk⟩,
    Option.map_some]

/-- What the keys spell may change elsewhere. -/
theorem Numbers.congr {text' : κ → CStr} (h : Numbers text m L)
    (htext : ∀ k ∈ L, text k = text' k) : Numbers text' m L := by
  obtain ⟨d, hrefines, hlists⟩ := h
  have hkey : ∀ e ∈ numbered 0 L, text e.1 = text' e.1 := by
    rintro ⟨k, i⟩ he
    obtain ⟨n, hn, -⟩ := mem_numbered.mp he
    exact htext k (List.mem_of_getElem? hn)
  refine ⟨d, hrefines.congr fun n hn => ?_, hlists.congr_fold fun e he => ?_⟩
  · exact hkey n.entry ((hrefines.stored.lists.perm_of_lists hlists).mem_iff.mp
      (List.mem_map_of_mem hn))
  · rw [fold, fold, hkey e he]

/-- A key that is not in the list is not found. -/
theorem Numbers.lookup_none (h : Numbers text m L) {key : CStr}
    (hkey : upperFold key ∉ L.map (fold text)) : lookup text m key = none := by
  obtain ⟨d, hrefines, hlists⟩ := h
  have hnot : upperFold key ∉ d := by
    intro hmem
    obtain ⟨e, he, heq⟩ := hlists.mem_iff.mp hmem
    obtain ⟨n, hn, -⟩ := mem_numbered.mp he
    exact hkey (List.mem_map.mpr ⟨e.1, List.mem_of_getElem? hn, heq⟩)
  rw [(agrees_of_refines hrefines).lookup key, Finmap.lookup_eq_none.mpr hnot]
  rfl

/-! ## Writing during an iteration -/

theorem renumberFrom_null (value : Int → Option Int) (fuel : Nat) :
    renumberFrom text value fuel .null m = some m := by
  cases fuel <;> rfl

theorem renumberFrom_succ {value : Int → Option Int} {fuel : Nat} {pos pos' : Position} {k : κ}
    {v : Int} (hpos : pos ≠ .null) (hnext : getNextAssoc m pos = some (pos', k, v)) :
    renumberFrom text value (fuel + 1) pos m =
      match value v with
      | some v' => (setAt text m k v').bind (renumberFrom text value fuel pos')
      | none => renumberFrom text value fuel pos' m := by
  rw [renumberFrom, hnext, Option.bind_some]
  exact hpos

theorem removeFrom_succ {nIndex : Int} {fuel : Nat} {pos pos' : Position} {k : κ} {v : Int}
    (hpos : pos ≠ .null) (hnext : getNextAssoc m pos = some (pos', k, v)) :
    removeFrom text nIndex (fuel + 1) pos m =
      if v = nIndex then (removeKey text m (text k)).map Prod.fst
      else removeFrom text nIndex fuel pos' m := by
  rw [removeFrom, hnext, Option.bind_some]
  exact hpos

section Loops

variable {d : Bindings κ Int} (h : Refines text m d)
include h

/-- A key that an iteration has returned leads back to its node. -/
theorem getAssocAt_of_mem {n : Node κ Int} (hn : n ∈ m.nodes) :
    getAssocAt text m (text n.key) = some n := by
  cases hget : getAssocAt text m (text n.key) with
  | none => exact absurd (h.mem_of_mem hn) (getAssocAt_none h hget)
  | some n' =>
      obtain ⟨hn', hfold, -⟩ := getAssocAt_some h hget
      rw [h.stored.eq_of_fold_eq hn' hn hfold]

/-- `SetAt` on such a key changes the value of that node and nothing else. -/
theorem setAt_of_mem {u w : List (Node κ Int)} {n : Node κ Int} (hnodes : m.nodes = u ++ n :: w)
    (v : Int) :
    ∃ m' d', setAt text m n.key v = some m' ∧ Refines text m' d' ∧
      m'.nodes = u ++ { n with value := v } :: w := by
  have hn : n ∈ m.nodes := by simp [hnodes]
  have hstored := h.stored
  refine ⟨m.assignTo n.id v, _, ?_, assignTo_refines h hn v, ?_⟩
  · rw [setAt, index, getAssocAt_of_mem h hn]
    rfl
  · rw [hnodes] at hstored
    rw [HashMap.nodes_assignTo, hnodes, hstored.map_assignNode]

/-- The loop assigns to each node once. -/
theorem renumberFrom_refines (value : Int → Option Int) {u w : List (Node κ Int)} {pos : Position}
    {fuel : Nat} (hnodes : m.nodes = u ++ w) (hfuel : w.length ≤ fuel)
    (hpos : HashMap.Ahead u w pos) :
    ∃ m' d', renumberFrom text value fuel pos m = some m' ∧ Refines text m' d' ∧
      m'.nodes.map Node.entry = u.map Node.entry ++
        renumber (fun v => (value v).getD v) (w.map Node.entry) := by
  -- what is ahead gets shorter; what was assigned to is behind
  induction w generalizing u pos fuel m d with
  | nil =>
      refine ⟨m, d, ?_, h, ?_⟩
      · rw [show pos = .null from hpos, renumberFrom_null]
      · rw [hnodes, List.append_nil]
        exact (List.append_nil _).symm
  | cons n w ih =>
      obtain ⟨fuel, rfl, hleft⟩ := exists_fuel hfuel
      have hnext : getNextAssoc m pos = some (positionOf w.head?, n.key, n.value) :=
        h.nextAssoc hnodes hpos
      rw [renumberFrom_succ hpos.ne_null hnext]
      cases hvalue : value n.value with
      | none =>
          have hnodes' : m.nodes = (u ++ [n]) ++ w := by simp [hnodes]
          obtain ⟨m', d', hrest, h', hentries⟩ :=
            ih h hnodes' hleft (HashMap.ahead_positionOf _ w)
          refine ⟨m', d', hrest, h', ?_⟩
          rw [hentries]
          simp [renumber, Node.entry, hvalue]
      | some v =>
          obtain ⟨m₁, d₁, hset, h₁, hnodes₁⟩ := setAt_of_mem h hnodes v
          have hnodes' : m₁.nodes = (u ++ [{ n with value := v }]) ++ w := by simp [hnodes₁]
          obtain ⟨m', d', hrest, h', hentries⟩ :=
            ih h₁ hnodes' hleft (HashMap.ahead_positionOf _ w)
          refine ⟨m', d', ?_, h', ?_⟩
          · show (setAt text m n.key v).bind _ = some m'
            rw [hset]
            exact hrest
          · rw [hentries]
            simp [renumber, Node.entry, hvalue]

/-- The bindings after a loop over all associations. -/
theorem renumberAll_refines (value : Int → Option Int) {l : List (κ × Int)}
    (hlists : Dict.Lists (fold text) l d) :
    ∃ m' d', renumberAll text value m = some m' ∧ Refines text m' d' ∧
      Dict.Lists (fold text) (renumber (fun v => (value v).getD v) l) d' := by
  obtain ⟨m', d', hloop, h', hentries⟩ := renumberFrom_refines h value
    (List.nil_append m.nodes).symm h.length_nodes.le h.ahead_start
  have hperm : (m.nodes.map Node.entry).Perm l := h.stored.lists.perm_of_lists hlists
  refine ⟨m', d', hloop, h', h'.stored.lists.perm ?_⟩
  rw [hentries]
  exact hperm.map _

/-- The loop of `Remove(int)` removes the key that has the index. -/
theorem removeFrom_eq {nIndex : Int} {u w z : List (Node κ Int)} {n : Node κ Int} {pos : Position}
    {fuel : Nat} (hnodes : m.nodes = u ++ (w ++ n :: z)) (hfuel : (w ++ n :: z).length ≤ fuel)
    (hpos : HashMap.Ahead u (w ++ n :: z) pos) (hother : ∀ b ∈ w, b.value ≠ nIndex)
    (hn : n.value = nIndex) :
    removeFrom text nIndex fuel pos m = (removeKey text m (text n.key)).map Prod.fst := by
  induction w generalizing u pos fuel with
  | nil =>
      obtain ⟨fuel, rfl, hleft⟩ := exists_fuel hfuel
      have hnext : getNextAssoc m pos = some (positionOf z.head?, n.key, n.value) :=
        h.nextAssoc hnodes hpos
      rw [removeFrom_succ hpos.ne_null hnext, if_pos hn]
  | cons b w ih =>
      obtain ⟨fuel, rfl, hleft⟩ := exists_fuel hfuel
      have hnext : getNextAssoc m pos = some (positionOf (w ++ n :: z).head?, b.key, b.value) :=
        h.nextAssoc hnodes hpos
      have hb : b.value ≠ nIndex := hother b List.mem_cons_self
      rw [removeFrom_succ hpos.ne_null hnext, if_neg hb]
      exact ih (u := u ++ [b]) (by simp [hnodes]) hleft
        (HashMap.ahead_positionOf _ _) fun c hc => hother c (List.mem_cons_of_mem b hc)

theorem shiftIndexes_refines (nStartIndex nDelta : Int) {l : List (κ × Int)}
    (hlists : Dict.Lists (fold text) l d) :
    ∃ m' d', shiftIndexes text m nStartIndex nDelta = some m' ∧ Refines text m' d' ∧
      Dict.Lists (fold text) (renumber (shift nStartIndex nDelta) l) d' := by
  obtain ⟨m', d', hloop, h', hlists'⟩ := renumberAll_refines h (fun nHashIndex =>
    if nHashIndex ≥ nStartIndex then some (nHashIndex + nDelta) else none) hlists
  have hshift : (fun v => ((if v ≥ nStartIndex then some (v + nDelta) else none).getD v)) =
      shift nStartIndex nDelta := by
    funext v
    rw [shift]
    split <;> rfl
  rw [hshift] at hlists'
  exact ⟨m', d', hloop, h', hlists'⟩

/-- `SetAt` on a key that is not there adds it. -/
theorem setAt_of_notMem {l : List (κ × Int)} {key : κ} (v : Int)
    (hlists : Dict.Lists (fold text) l d) (hroom : l.length < 2 ^ 28)
    (hnew : fold text key ∉ (l.map Prod.fst).map (fold text)) :
    ∃ m' d', setAt text m key v = some m' ∧ Refines text m' d' ∧
      Dict.Lists (fold text) ((key, v) :: l) d' := by
  have hnot : fold text key ∉ d := by
    intro hmem
    obtain ⟨e, he, heq⟩ := hlists.mem_iff.mp hmem
    exact hnew (List.mem_map.mpr ⟨e.1, List.mem_map_of_mem he, heq⟩)
  obtain ⟨m', hset, h'⟩ := setAt_refines h key v (hlists.count_eq.trans_lt hroom)
  rw [Dict.set_of_notMem hnot] at h'
  exact ⟨m', _, hset, h', hlists.cons (e := (key, v)) hnot⟩

/-- Removing a key and closing the gap. -/
theorem removeKey_shift {A B : List κ} {k : κ} {key : CStr}
    (hlists : Dict.Lists (fold text) (numbered 0 (A ++ k :: B)) d)
    (hroom : (A ++ k :: B).length < 2 ^ 28) (hk : fold text k = upperFold key) :
    ∃ m₁ b m', removeKey text m key = some (m₁, b) ∧
      shiftIndexes text m₁ A.length (-1) = some m' ∧ Numbers text m' (A ++ B) := by
  have hcount : d.count < 2 ^ 28 := by rwa [hlists.count_eq, length_numbered]
  obtain ⟨m₁, hremove, h₁⟩ := removeKey_refines h key hcount
  have hrest := (hlists.perm (numbered_middle A B k)).tail
  rw [← hk] at h₁
  obtain ⟨m', d', hshift, h', hlists'⟩ := shiftIndexes_refines h₁ A.length (-1) hrest
  rw [numbered_remove] at hlists'
  exact ⟨m₁, _, m', hremove, hshift, d', h', hlists'⟩

end Loops

/-! ## The operations on the list -/

theorem add_numbers {szKey : κ} (h : Numbers text m L) (hroom : L.length < 2 ^ 28)
    (hnew : fold text szKey ∉ L.map (fold text)) :
    ∃ m', add text m szKey = some (m', (L.length : Int)) ∧ Numbers text m' (L ++ [szKey]) := by
  have hcount : (getCount m : Int) = L.length := congrArg _ h.count
  obtain ⟨d, hrefines, hlists⟩ := h
  obtain ⟨m', d', hset, h', hlists'⟩ := setAt_of_notMem hrefines (L.length : Int) hlists
    (by rwa [length_numbered]) (by rwa [map_fst_numbered])
  refine ⟨m', ?_, d', h', hlists'.perm ?_⟩
  · rw [add, hcount, hset]
    rfl
  · have hmiddle := numbered_middle L [] szKey
    rw [numbered, List.append_nil] at hmiddle
    exact hmiddle.symm

theorem insert_numbers {szKey : κ} {n : Nat} (h : Numbers text m L) (hroom : L.length < 2 ^ 28)
    (hn : n ≤ L.length) (hnew : fold text szKey ∉ L.map (fold text)) :
    ∃ m', insert text m n szKey = some m' ∧ Numbers text m' (L.insertIdx n szKey) := by
  obtain ⟨d, hrefines, hlists⟩ := h
  obtain ⟨A, B, rfl, rfl⟩ : ∃ A B, L = A ++ B ∧ A.length = n :=
    ⟨L.take n, L.drop n, (List.take_append_drop n L).symm, List.length_take_of_le hn⟩
  obtain ⟨m₁, d₁, hshift, h₁, hlists₁⟩ := shiftIndexes_refines hrefines A.length 1 hlists
  obtain ⟨m', d', hset, h', hlists'⟩ := setAt_of_notMem h₁ (A.length : Int) hlists₁
    (by rwa [length_renumber, length_numbered]) (by rwa [map_fst_renumber, map_fst_numbered])
  refine ⟨m', ?_, d', h', ?_⟩
  · rw [insert, hshift]
    exact hset
  · rw [insertIdx_length]
    exact hlists'.perm (numbered_insert A B szKey).symm

theorem remove_numbers {n : Nat} {k : κ} {szKey : CStr} (h : Numbers text m L)
    (hroom : L.length < 2 ^ 28) (hn : L[n]? = some k) (hk : fold text k = upperFold szKey) :
    ∃ m', remove text m szKey = some (m', (n : Int)) ∧ Numbers text m' (L.eraseIdx n) := by
  have hlookup := h.lookup_eq hn hk
  obtain ⟨d, hrefines, hlists⟩ := h
  obtain ⟨A, k', B, rfl, rfl⟩ := exists_split_at (List.getElem?_eq_some_iff.mp hn).1
  obtain rfl : k' = k := by simpa using hn
  obtain ⟨m₁, b, m', hremove, hshift, h'⟩ := removeKey_shift hrefines hlists hroom hk
  refine ⟨m', ?_, ?_⟩
  · rw [remove, hlookup, Option.bind_some, hremove, Option.bind_some]
    show (shiftIndexes text m₁ A.length (-1)).map _ = _
    rw [hshift]
    rfl
  · rwa [eraseIdx_length]

theorem removeAt_numbers {n : Nat} (h : Numbers text m L) (hroom : L.length < 2 ^ 28)
    (hn : n < L.length) :
    ∃ m', removeAt text m n = some m' ∧ Numbers text m' (L.eraseIdx n) := by
  obtain ⟨d, hrefines, hlists⟩ := h
  obtain ⟨A, k, B, rfl, rfl⟩ := exists_split_at hn
  have hperm := hrefines.stored.lists.perm_of_lists hlists
  -- the node with the index is the one of the key at that position
  have hat : (k, (A.length : Int)) ∈ numbered 0 (A ++ k :: B) :=
    (numbered_middle A B k).mem_iff.mpr List.mem_cons_self
  obtain ⟨a, ha, hentry⟩ := List.mem_map.mp (hperm.mem_iff.mpr hat)
  obtain ⟨b, w, z, hother, hb, hnodes, -⟩ := List.exists_of_eraseP
    (p := fun b : Node κ Int => decide (b.value = A.length)) ha
    (decide_eq_true (congrArg Prod.snd hentry))
  have hvalue : b.value = A.length := of_decide_eq_true hb
  have hkey : b.key = k := by
    have hmem : (b.key, (A.length : Int)) ∈ numbered 0 (A ++ k :: B) := by
      rw [← hvalue]
      exact hperm.mem_iff.mp (List.mem_map.mpr ⟨b, by simp [hnodes], rfl⟩)
    obtain ⟨i, hi, heq⟩ := mem_numbered.mp hmem
    obtain rfl : A.length = i := by omega
    simpa using hi.symm
  have hloop := removeFrom_eq hrefines (u := []) hnodes
    ((congrArg List.length hnodes).symm.trans hrefines.length_nodes).le
    (hnodes ▸ hrefines.ahead_start)
    (fun c hc heq => hother c hc (decide_eq_true heq)) hvalue
  rw [hkey] at hloop
  have hown : fold text k = upperFold (text k) := rfl
  obtain ⟨m₁, r, m', hremove, hshift, h'⟩ := removeKey_shift hrefines hlists hroom hown
  refine ⟨m', ?_, ?_⟩
  · rw [removeAt, show getStartPosition m = m.startPosition from rfl, hloop, hremove]
    exact hshift
  · rwa [eraseIdx_length]

theorem moveValue_getD (nIndex nOffset x : Int) :
    (moveValue nIndex nOffset x).getD x = moveTo nIndex nOffset x := by
  simp only [moveValue, moveTo]
  split_ifs <;> first | rfl | omega

theorem move_numbers {i off : Int} (h : Numbers text m L) (hi : 0 ≤ i) (hlt : i < L.length)
    (hoff : off ≠ 0) (htarget : 0 ≤ i + off) (htarget' : i + off < L.length) :
    ∃ m', move text m i off = some m' ∧ Numbers text m' (moveElem L i.toNat (i + off).toNat) := by
  obtain ⟨d, hrefines, hlists⟩ := h
  obtain ⟨m', d', hmove, h', hlists'⟩ := renumberAll_refines hrefines (moveValue i off) hlists
  rw [funext (moveValue_getD i off)] at hlists'
  refine ⟨m', hmove, d', h', hlists'.perm ?_⟩
  -- the keys the moved one passes are a stretch `B` of the list
  rcases Int.lt_or_gt_of_ne hoff with hneg | hpos
  · obtain ⟨D, k, C, rfl, hD⟩ := exists_split_at (L := L) (n := i.toNat) (by omega)
    obtain ⟨A, B, rfl, hA⟩ : ∃ A B, D = A ++ B ∧ A.length = (i + off).toNat :=
      ⟨D.take _, D.drop _, (List.take_append_drop _ D).symm, List.length_take_of_le (by omega)⟩
    rw [List.length_append] at hD
    have hB : B ≠ [] := List.length_pos_iff.mp (by omega)
    obtain rfl : i = A.length + B.length := by omega
    obtain rfl : off = -B.length := by omega
    rw [← hD, ← hA, List.append_assoc, moveElem_backward]
    exact numbered_backward A B C k hB
  · obtain ⟨A, k, D, rfl, hA⟩ := exists_split_at (L := L) (n := i.toNat) (by omega)
    rw [List.length_append, List.length_cons] at htarget'
    obtain ⟨B, C, rfl, hBlen⟩ : ∃ B C, D = B ++ C ∧ B.length = off.toNat :=
      ⟨D.take _, D.drop _, (List.take_append_drop _ D).symm, List.length_take_of_le (by omega)⟩
    have hB : B ≠ [] := List.length_pos_iff.mp (by omega)
    obtain rfl : i = A.length := by omega
    obtain rfl : off = B.length := by omega
    have hto : ((A.length : Int) + B.length).toNat = A.length + B.length := by omega
    rw [hA.symm, hto, moveElem_forward]
    exact numbered_forward A B C k hB

/-! ## Runs -/

/-- An operation of a client. -/
inductive IndexOp (κ : Type) where
  | add (szKey : κ)
  | insert (nIndex : Int) (szKey : κ)
  | remove (szKey : CStr)
  | removeAt (nIndex : Int)
  | move (nIndex nOffset : Int)

/-- What an operation returns. -/
inductive Reply where
  | done
  | index (nIndex : Int)

/-- An operation on the map, with its reply. -/
def step (text : κ → CStr) (m : IStringMapToIndex κ) :
    IndexOp κ → Option (IStringMapToIndex κ × Reply)
  | .add szKey => (add text m szKey).map fun (m, nIndex) => (m, .index nIndex)
  | .insert nIndex szKey => (insert text m nIndex szKey).map fun m => (m, .done)
  | .remove szKey => (remove text m szKey).map fun (m, nIndex) => (m, .index nIndex)
  | .removeAt nIndex => (removeAt text m nIndex).map fun m => (m, .done)
  | .move nIndex nOffset => (move text m nIndex nOffset).map fun m => (m, .done)

/-- The position of a key in a list. -/
def positionIn (text : κ → CStr) (L : List κ) (szKey : CStr) : Nat :=
  L.findIdx fun k => decide (fold text k = upperFold szKey)

/-- The same operation on a list: append, insert at, delete, and taking an
    element out to put it back elsewhere. -/
def IndexOp.spec (text : κ → CStr) (L : List κ) : IndexOp κ → List κ × Reply
  | .add szKey => (L ++ [szKey], .index L.length)
  | .insert nIndex szKey => (L.insertIdx nIndex.toNat szKey, .done)
  | .remove szKey => (L.eraseIdx (positionIn text L szKey), .index (positionIn text L szKey))
  | .removeAt nIndex => (L.eraseIdx nIndex.toNat, .done)
  | .move nIndex nOffset => (moveElem L nIndex.toNat (nIndex + nOffset).toNat, .done)

/-- What the operation asserts. -/
def IndexOp.Asserted (text : κ → CStr) (L : List κ) : IndexOp κ → Prop
  | .add szKey => fold text szKey ∉ L.map (fold text)
  | .insert nIndex szKey =>
      0 ≤ nIndex ∧ nIndex ≤ L.length ∧ fold text szKey ∉ L.map (fold text)
  | .remove szKey => upperFold szKey ∈ L.map (fold text)
  | .removeAt nIndex => 0 ≤ nIndex ∧ nIndex < L.length
  | .move nIndex nOffset => 0 ≤ nIndex ∧ nIndex < L.length ∧ nOffset ≠ 0 ∧
      0 ≤ nIndex + nOffset ∧ nIndex + nOffset < L.length

instance (text : κ → CStr) (L : List κ) (op : IndexOp κ) : Decidable (op.Asserted text L) :=
  match op with
  | .add szKey => inferInstanceAs (Decidable (fold text szKey ∉ L.map (fold text)))
  | .insert nIndex szKey => inferInstanceAs (Decidable
      (0 ≤ nIndex ∧ nIndex ≤ L.length ∧ fold text szKey ∉ L.map (fold text)))
  | .remove szKey => inferInstanceAs (Decidable (upperFold szKey ∈ L.map (fold text)))
  | .removeAt nIndex => inferInstanceAs (Decidable (0 ≤ nIndex ∧ nIndex < L.length))
  | .move nIndex nOffset => inferInstanceAs (Decidable
      (0 ≤ nIndex ∧ nIndex < L.length ∧ nOffset ≠ 0 ∧
        0 ≤ nIndex + nOffset ∧ nIndex + nOffset < L.length))

/-- A run of a client from an empty map with copied keys. -/
def run (ops : List (IndexOp CStr)) : Option (IStringMapToIndex CStr × List Reply) :=
  replyRun (step id) new ops

/-- The same run on a list. -/
def keysRun (ops : List (IndexOp CStr)) : List CStr × List Reply :=
  specRun (IndexOp.spec id) [] ops

/-- Every operation does to the map what it does to the list. -/
theorem step_numbers (h : Numbers text m L) (op : IndexOp κ) (hroom : L.length < 2 ^ 28)
    (hop : op.Asserted text L) :
    ∃ m', step text m op = some (m', (op.spec text L).2) ∧ Numbers text m' (op.spec text L).1 := by
  cases op with
  | add szKey =>
      obtain ⟨m', hadd, h'⟩ := add_numbers h hroom hop
      exact ⟨m', by rw [step, hadd]; rfl, h'⟩
  | insert nIndex szKey =>
      obtain ⟨hlow, hhigh, hnew⟩ := hop
      obtain ⟨m', hinsert, h'⟩ := insert_numbers (n := nIndex.toNat) h hroom (by omega) hnew
      rw [Int.toNat_of_nonneg hlow] at hinsert
      exact ⟨m', by rw [step, hinsert]; rfl, h'⟩
  | remove szKey =>
      -- the list loses the first key that is equal in upper case, the only one
      obtain ⟨k, hk, heq⟩ := List.mem_map.mp hop
      have hlt : positionIn text L szKey < L.length :=
        List.findIdx_lt_length_of_exists ⟨k, hk, decide_eq_true heq⟩
      have hat : fold text (L.get ⟨_, hlt⟩) = upperFold szKey :=
        of_decide_eq_true (List.findIdx_getElem (w := hlt))
      obtain ⟨m', hremove, h'⟩ := remove_numbers h hroom (List.getElem?_eq_getElem hlt) hat
      exact ⟨m', by rw [step, hremove]; rfl, h'⟩
  | removeAt nIndex =>
      obtain ⟨hlow, hhigh⟩ := hop
      obtain ⟨m', hremove, h'⟩ := removeAt_numbers (n := nIndex.toNat) h hroom (by omega)
      rw [Int.toNat_of_nonneg hlow] at hremove
      exact ⟨m', by rw [step, hremove]; rfl, h'⟩
  | move nIndex nOffset =>
      obtain ⟨hlow, hhigh, hoff, hlow', hhigh'⟩ := hop
      obtain ⟨m', hmove, h'⟩ := move_numbers h hlow hhigh hoff hlow' hhigh'
      exact ⟨m', by rw [step, hmove]; rfl, h'⟩

/-- The stored values are a bijection between the keys and the indexes below the
    count, and `L` is the list of the keys ordered by value. -/
structure Contiguous (text : κ → CStr) (m : IStringMapToIndex κ) (L : List κ) : Prop where
  count : getCount m = L.length
  distinct : (L.map (fold text)).Nodup
  stored : ∃ l, enumerate m = some l ∧ (l.map Prod.snd).Perm ((List.range L.length).map Nat.cast) ∧
    l.Perm (numbered 0 L)
  found : ∀ (n : Nat) k key, L[n]? = some k → fold text k = upperFold key →
    lookup text m key = some (n : Int)
  absent : ∀ key, upperFold key ∉ L.map (fold text) → lookup text m key = none

theorem contiguous_of_numbers (h : Numbers text m L) : Contiguous text m L where
  count := h.count
  distinct := h.nodup
  stored := by
    obtain ⟨d, hrefines, hlists⟩ := h
    have hperm := hrefines.stored.lists.perm_of_lists hlists
    refine ⟨_, hrefines.enumerate, ?_, hperm⟩
    have hvalues := map_snd_numbered 0 L
    rw [← List.range_eq_range'] at hvalues
    exact hvalues ▸ hperm.map Prod.snd
  found := fun n k key hn hk => h.lookup_eq hn hk
  absent := fun key hkey => h.lookup_none hkey

end IStringMapToIndex

open IStringMapToIndex

/-- After every run whose operations are called as they assert, on fewer than
    `2 ^ 28` keys, the indexes are contiguous and the keys in their order are
    those of the run on a list. -/
theorem indexes_contiguous (ops : List (IndexOp CStr))
    (hasserted : ∀ pre op, pre ++ [op] <+: ops → op.Asserted id (keysRun pre).1)
    (hcount : ∀ pre, pre <+: ops → (keysRun pre).1.length < 2 ^ 28) :
    ∃ m, IStringMapToIndex.run ops = some (m, (keysRun ops).2) ∧
      Contiguous id m (keysRun ops).1 := by
  let allowed (L : List CStr) (op : IndexOp CStr) : Prop := L.length < 2 ^ 28 ∧ op.Asserted id L
  have hallowed : ∀ pre op, pre ++ [op] <+: ops → allowed (keysRun pre).1 op := by
    intro pre op hpre
    exact ⟨hcount pre ((List.prefix_append pre [op]).trans hpre), hasserted pre op hpre⟩
  obtain ⟨m, hrun, hnumbers⟩ := refines_run allowed numbers_new
    (fun m L op h hop => step_numbers h op hop.1 hop.2) ops hallowed
  exact ⟨m, hrun, contiguous_of_numbers hnumbers⟩

/-- Three keys, one of them inserted, one moved to the end, one removed. -/
theorem indexes_contiguous_moved :
    ∃ m : IStringMapToIndex CStr, (IStringMapToIndex.run
        [.add (CStr.lit "a"), .add (CStr.lit "b"), .insert 1 (CStr.lit "c"), .move 0 2,
          .removeAt 1]).map Prod.fst = some m ∧
      IStringMap.lookup id m (CStr.lit "C") = some 0 ∧
      IStringMap.lookup id m (CStr.lit "A") = some 1 ∧ IStringMap.getCount m = 2 := by
  let ops : List (IndexOp CStr) := [.add (CStr.lit "a"), .add (CStr.lit "b"),
    .insert 1 (CStr.lit "c"), .move 0 2, .removeAt 1]
  have hasserted : ∀ i : Fin ops.length, (ops.get i).Asserted id (keysRun (ops.take i)).1 := by
    decide
  have hcount : ∀ pre ∈ ops.inits, (keysRun pre).1.length < 2 ^ 28 := by decide
  have hkeys : (keysRun ops).1 = [CStr.lit "c", CStr.lit "a"] := by decide
  obtain ⟨m, hrun, hcontiguous⟩ := indexes_contiguous ops
    (forall_snoc_of_take hasserted)
    (fun pre hpre => hcount pre ((List.mem_inits _ _).mpr hpre))
  rw [hkeys] at hcontiguous
  refine ⟨m, by rw [hrun]; rfl, ?_, ?_, hcontiguous.count⟩
  · exact hcontiguous.found 0 (CStr.lit "c") (CStr.lit "C") rfl (by decide)
  · exact hcontiguous.found 1 (CStr.lit "a") (CStr.lit "A") rfl (by decide)

end Curl1C
