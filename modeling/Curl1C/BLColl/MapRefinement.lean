/-
  Curl1C.BLColl.MapRefinement

  `CIStringMap` is a finite map on names in upper case.

  The proof follows the one for `CNoCaseMap`; what differs is the policy about
  the size.  `InitHashTable` may decide to do nothing, and its loops end only
  for sizes that are not too large, so the bound on the size of the table is
  part of the invariant (`Refines`).

  The lemmas hold for stored keys of any kind as long as they spell the same
  all the time; the run in the main result is that of a map with copied keys.

  Main result: `iStringMap_refines`.
-/

import Curl1C.BLColl.IStringMap
import Curl1C.Lib.Refine
import Mathlib.Data.List.Infix

namespace Curl1C

open Lib HashTable

namespace IStringMap

variable {κ ν : Type}

/-! ## The finite map -/

/-- The bindings of a map. -/
abbrev Bindings (κ ν : Type) := Dict (List (BitVec 32)) κ ν

/-- An operation of a client. -/
inductive MapOp (κ ν : Type) where
  | index (key : κ) (init : ν)
  | setAt (key : κ) (newValue : ν)
  | removeKey (key : CStr)
  | removeAll
  | initHashTable (newSize : Nat)

/-- What an operation returns. -/
inductive Reply (ν : Type) where
  | done
  | flag (b : Bool)
  | value (v : ν)

variable (text : κ → CStr)

/-- The name a stored key spells, in upper case. -/
def fold (k : κ) : List (BitVec 32) := upperFold (text k)

/-- The hash value of a stored key. -/
def hashOf (k : κ) : Nat := hashKey (text k)

/-- An operation on the map, with its reply. -/
def step (m : IStringMap κ ν) : MapOp κ ν → Option (IStringMap κ ν × Reply ν)
  | .index key init =>
      (index text m key init).bind fun (m, id) => (m.valueAt id).map fun v => (m, .value v)
  | .setAt key newValue => (setAt text m key newValue).map fun m => (m, .done)
  | .removeKey key => (removeKey text m key).map fun (m, b) => (m, .flag b)
  | .removeAll => some (removeAll m, .done)
  | .initHashTable newSize => (initHashTable m newSize).map fun m => (m, .done)

/-- The same operation on the bindings. -/
def MapOp.spec (d : Bindings κ ν) : MapOp κ ν → Bindings κ ν × Reply ν
  | .index key init =>
      match d.lookup (fold text key) with
      | some (_, v) => (d, .value v)
      | none => (d.insert (fold text key) (key, init), .value init)
  | .setAt key newValue => (Dict.set d (fold text key) key newValue, .done)
  | .removeKey key => (d.erase (upperFold key), .flag (decide (upperFold key ∈ d)))
  | .removeAll => (∅, .done)
  | .initHashTable _ => (d, .done)

/-- A run of a client from an empty map with copied keys. -/
def run (ops : List (MapOp CStr ν)) : Option (IStringMap CStr ν × List (Reply ν)) :=
  replyRun (step id) new ops

/-- The same run on the bindings. -/
def bindingsRun (ops : List (MapOp CStr ν)) : Bindings CStr ν × List (Reply ν) :=
  specRun (MapOp.spec id) ∅ ops

/-! ## The relation -/

/-- The map has the bindings `d`, and its table is not too large. -/
structure Refines (m : IStringMap κ ν) (d : Bindings κ ν) : Prop
    extends HashMap.Refines (hashOf text) (fold text) m d where
  size : hashTableSize m ≤ 2 ^ 30 + 1

variable {text}

theorem refines_new : Refines text (new : IStringMap κ ν) ∅ :=
  ⟨HashMap.refines_none 0, (by decide : 32 ≤ 2 ^ 30 + 1)⟩

theorem isKey_iff (key : CStr) (k : κ) :
    isKey text key k = true ↔ fold text k = upperFold key := by
  rw [isKey, decide_eq_true_iff, compare_eq_zero_iff]
  rfl

theorem hashOf_eq {key : CStr} (k : κ) (hk : fold text k = upperFold key) :
    hashOf text k = hashKey key := hashKey_congr hk

/-- What the stored keys spell may change elsewhere. -/
theorem Refines.congr {m : IStringMap κ ν} {d : Bindings κ ν} {text' : κ → CStr}
    (h : Refines text m d) (htext : ∀ n ∈ m.nodes, text n.key = text' n.key) :
    Refines text' m d where
  toRefines := h.toRefines.congr (fun n hn => by rw [hashOf, hashOf, htext n hn])
    fun n hn => by rw [fold, fold, htext n hn]
  size := h.size

/-! ## Growing and shrinking -/

/-- The associations are all moved, if their count is exact. -/
theorem drain_eq {α : Type} (t : Buckets α) (nCount : Nat) (hcount : nCount = t.nodes.length)
    (hlt : nCount < 2 ^ 32) : drain nCount t = t.nodes := by
  induction t generalizing nCount with
  | nil => rfl
  | cons c rest ih =>
      have hnodes : Buckets.nodes (c :: rest) = c ++ Buckets.nodes rest := List.flatten_cons
      have hlen : nCount = c.length + (Buckets.nodes rest).length := by
        rw [hcount, hnodes, List.length_append]
      rw [drain, hnodes]
      split
      · have hc : c = [] := List.eq_nil_of_length_eq_zero (by omega)
        have hrest : Buckets.nodes rest = [] := List.eq_nil_of_length_eq_zero (by omega)
        rw [hc, hrest, List.nil_append]
      · rw [ih _ (by omega) (by omega)]

theorem moved_eq {m : IStringMap κ ν} {d : Bindings κ ν} (h : Refines text m d)
    (hroom : d.count < 2 ^ 32) : moved m = some m.nodes := by
  have hlen := h.length_nodes
  have hcount := h.count
  rw [moved]
  split
  · rename_i hzero
    rw [List.eq_nil_of_length_eq_zero (hlen.trans hzero)]
  · rename_i hpos
    cases ht : m.hashTable with
    | none =>
        rw [HashMap.nodes_eq_nil ht] at hlen
        exact absurd hlen.symm hpos
    | some t =>
        rw [HashMap.nodes_eq ht] at hlen ⊢
        rw [Option.map_some, drain_eq t m.count hlen.symm (by omega)]

/-- Doubling reaches every size up to `2 ^ 30`. -/
theorem doubling_eq {limit : Nat} (hlimit : limit ≤ 2 ^ 30) :
    ∃ b2, doubling limit 33 1 = some b2 ∧ b2 ≤ 2 ^ 30 := by
  -- the size before a pass is a power of two that 32 bits still hold
  have hgo : ∀ fuel j, j ≤ 30 → 30 < fuel + j →
      ∃ b2, doubling limit fuel (2 ^ j) = some b2 ∧ b2 ≤ 2 ^ 30 := by
    intro fuel
    induction fuel with
    | zero => intro j hj hfuel; omega
    | succ fuel ih =>
        intro j hj hfuel
        have hpow : 2 ^ j ≤ 2 ^ 30 := Nat.pow_le_pow_right (by decide) hj
        rw [doubling]
        split
        · have hlt : j < 30 := by
            rcases Nat.lt_or_ge j 30 with hlt | hge
            · exact hlt
            · obtain rfl : j = 30 := by omega
              omega
          have hnext : 2 ^ j * 2 % 2 ^ 32 = 2 ^ (j + 1) := by
            rw [← Nat.pow_succ]
            exact Nat.mod_eq_of_lt (Nat.pow_lt_pow_right (by decide) (by omega))
          rw [hnext]
          exact ih (j + 1) (by omega) (by omega)
        · exact ⟨_, rfl, hpow⟩
  exact hgo 33 0 (by decide) (by decide)

section Operations

variable {m : IStringMap κ ν} {d : Bindings κ ν} (h : Refines text m d)
include h

/-- `InitHashTable` changes no binding, whether it rehashes or not. -/
theorem initHashTable_refines {n : Nat} (hn : n ≤ 2 ^ 30) (hroom : d.count < 2 ^ 32) :
    ∃ m', initHashTable m n = some m' ∧ Refines text m' d ∧
      (m.count < n ∨ hashTableSize m < n ∨ m.hashTable ≠ none → m'.hashTable ≠ none) := by
  rw [initHashTable]
  split
  · obtain ⟨b2, hdouble, hb2⟩ : ∃ b2, doubling (max n defaultHashTableSize) 33 1 = some b2 ∧
        b2 ≤ 2 ^ 30 := doubling_eq (max_le hn (by decide))
    have hsize : (b2 + 1) % 2 ^ 32 = b2 + 1 := Nat.mod_eq_of_lt (by omega)
    refine ⟨m.rehash (b2 + 1) m.nodes, ?_, ⟨h.rehash (by omega), ?_⟩,
      fun _ => Option.some_ne_none _⟩
    · rw [hdouble, moved_eq h hroom, Option.bind_some, Option.map_some, hsize]
    · rw [hashTableSize, HashMap.rehash, Option.map_some, Buckets.length_refill,
        Buckets.length_empty]
      exact Nat.add_le_add_right hb2 1
  · rename_i hidle
    refine ⟨m, rfl, h, ?_⟩
    rintro (hlt | hlt | hsome)
    · exact absurd (Or.inl hlt) hidle
    · exact absurd (Or.inr hlt) hidle
    · exact hsome

/-- Before an insertion there is a table. -/
theorem grown_refines (hroom : d.count < 2 ^ 28) :
    ∃ m', grown m = some m' ∧ m'.hashTable ≠ none ∧ Refines text m' d := by
  have hcount := h.count
  rw [grown]
  split
  · rename_i hnone
    have ht : m.hashTable = none := Option.isNone_iff_eq_none.mp hnone
    have hsize : hashTableSize m = 32 := by rw [hashTableSize, ht]; rfl
    have hzero : m.count = 0 := by
      rw [hcount, h.empty ht]
      rfl
    obtain ⟨m', hinit, h', hsome⟩ := initHashTable_refines h (n := hashTableSize m) (by omega)
      (by omega)
    exact ⟨m', hinit, hsome (Or.inl (by omega)), h'⟩
  · rename_i hsome
    have ht : m.hashTable ≠ none := fun hnone => hsome (Option.isNone_iff_eq_none.mpr hnone)
    split
    · -- a table that is half full has at most `2 ^ 29` buckets
      obtain ⟨m', hinit, h', hsome'⟩ := initHashTable_refines h
        (n := hashTableSize m * 2 % 2 ^ 32) (by omega) (by omega)
      exact ⟨m', hinit, hsome' (Or.inr (Or.inr ht)), h'⟩
    · exact ⟨m, rfl, ht, h⟩

/-! ## Keys -/

theorem getAssocAt_entry (key : CStr) :
    (getAssocAt text m key).map Node.entry = d.lookup (upperFold key) :=
  h.find_entry (isKey_iff key) hashOf_eq

theorem getAssocAt_some {key : CStr} {n : Node κ ν} (hget : getAssocAt text m key = some n) :
    n ∈ m.nodes ∧ fold text n.key = upperFold key ∧ d.lookup (upperFold key) = some n.entry :=
  h.find_some (isKey_iff key) hashOf_eq hget

theorem getAssocAt_none {key : CStr} (hget : getAssocAt text m key = none) : upperFold key ∉ d :=
  h.find_none (isKey_iff key) hashOf_eq hget

/-! ## Insertion and removal -/

omit h in
theorem hashTableSize_push {v : Nat} {key : κ} {value : ν} {m' : IStringMap κ ν} {id : Nat}
    (hpush : m.push v key value = some (m', id)) : hashTableSize m' = hashTableSize m := by
  obtain ⟨t, ht, heq⟩ := Option.map_eq_some_iff.mp hpush
  obtain ⟨rfl, -⟩ := Prod.mk.inj heq
  rw [hashTableSize, hashTableSize, ht, Option.map_some, Option.map_some, Buckets.length_push]

omit h in
theorem hashTableSize_unlink (v : Nat) (p : κ → Bool) :
    hashTableSize (m.unlink v p) = hashTableSize m := by
  cases ht : m.hashTable <;> simp [hashTableSize, HashMap.unlink, ht]

omit h in
theorem hashTableSize_assignTo (id : Nat) (v : ν) :
    hashTableSize (m.assignTo id v) = hashTableSize m := by
  cases ht : m.hashTable <;> simp [hashTableSize, HashMap.assignTo, assign, ht]

theorem assignTo_refines {n : Node κ ν} (hn : n ∈ m.nodes) (v : ν) :
    Refines text (m.assignTo n.id v) (d.insert (fold text n.key) (n.key, v)) :=
  ⟨h.assignTo hn v, (hashTableSize_assignTo n.id v).trans_le h.size⟩

/-- `operator[]` refers to the value of the key. -/
theorem index_refines (key : κ) (init : ν) (hroom : d.count < 2 ^ 28) :
    ∃ m' n, index text m key init = some (m', n.id) ∧ n ∈ m'.nodes ∧
      fold text n.key = fold text key ∧
      ((d.lookup (fold text key) = some n.entry ∧ m' = m) ∨
       (fold text key ∉ d ∧ n.key = key ∧ n.value = init ∧
        Refines text m' (d.insert (fold text key) (key, init)))) := by
  rw [index]
  cases hget : getAssocAt text m (text key) with
  | some n =>
      obtain ⟨hn, hfold, hlookup⟩ := getAssocAt_some h hget
      exact ⟨m, n, rfl, hn, hfold, Or.inl ⟨hlookup, rfl⟩⟩
  | none =>
      have hnew : fold text key ∉ d := getAssocAt_none h hget
      obtain ⟨m₁, hgrow, ht₁, h₁⟩ := grown_refines h hroom
      obtain ⟨t, ht⟩ := Option.ne_none_iff_exists'.mp ht₁
      obtain ⟨m', n, hpush, hn, rfl, hvalue, h'⟩ := h₁.push ht hnew (by omega) init
      have hsize : hashTableSize m' ≤ 2 ^ 30 + 1 := (hashTableSize_push hpush).trans_le h₁.size
      exact ⟨m', n, by rw [hgrow]; exact hpush, hn, rfl, Or.inr ⟨hnew, rfl, hvalue, h', hsize⟩⟩

theorem setAt_refines (key : κ) (v : ν) (hroom : d.count < 2 ^ 28) :
    ∃ m', setAt text m key v = some m' ∧
      Refines text m' (Dict.set d (fold text key) key v) := by
  obtain ⟨m', n, hindex, hn, hfold, ⟨hlookup, rfl⟩ | ⟨hnew, hkey, -, h'⟩⟩ :=
    index_refines h key v hroom
  all_goals refine ⟨m'.assignTo n.id v, by rw [setAt, hindex]; rfl, ?_⟩
  · exact ⟨h.assignTo_set hn hfold hlookup key v, (hashTableSize_assignTo n.id v).trans_le h.size⟩
  · exact ⟨h'.assignTo_new hnew hn hkey v, (hashTableSize_assignTo n.id v).trans_le h'.size⟩

theorem removeKey_refines (key : CStr) (hroom : d.count < 2 ^ 28) :
    ∃ m', removeKey text m key = some (m', decide (upperFold key ∈ d)) ∧
      Refines text m' (d.erase (upperFold key)) := by
  rw [removeKey]
  cases hget : getAssocAt text m key with
  | none =>
      have hnot := getAssocAt_none h hget
      exact ⟨m, by simp [hnot], by rwa [Dict.erase_of_notMem hnot]⟩
  | some n =>
      have hmem : upperFold key ∈ d :=
        Finmap.mem_of_lookup_eq_some (getAssocAt_some h hget).2.2
      have hunlink : Refines text (m.unlink (hashKey key) (isKey text key))
          (d.erase (upperFold key)) :=
        ⟨h.unlink (isKey_iff key) hashOf_eq hmem (by omega),
          (hashTableSize_unlink _ _).trans_le h.size⟩
      have hless := Dict.count_erase_of_mem hmem
      have hsize := hunlink.size
      dsimp only
      -- shrinking asks for half the size, which is never too large
      split
      · obtain ⟨m', hshrink, h', -⟩ := initHashTable_refines hunlink
          (n := hashTableSize (m.unlink (hashKey key) (isKey text key)) / 2) (by omega) (by omega)
        exact ⟨m', by simp [hshrink, hmem], h'⟩
      · exact ⟨_, by simp [hmem], hunlink⟩

end Operations

theorem removeAll_refines (m : IStringMap κ ν) : Refines text (removeAll m) ∅ :=
  ⟨HashMap.refines_none m.nextId, (by decide : 32 ≤ 2 ^ 30 + 1)⟩

/-! ## Queries -/

/-- The queries are those of the finite map. -/
structure Agrees (text : κ → CStr) (m : IStringMap κ ν) (d : Bindings κ ν) : Prop where
  lookup : ∀ key, lookup text m key = (d.lookup (upperFold key)).map Prod.snd
  lookupKey : ∀ key, lookupKey text m key = (d.lookup (upperFold key)).map Prod.fst
  getCount : getCount m = d.count
  enumerate : ∃ l, enumerate m = some l ∧ Dict.Lists (fold text) l d

variable {m : IStringMap κ ν} {d : Bindings κ ν}

theorem agrees_of_refines (h : Refines text m d) : Agrees text m d where
  lookup := by
    intro key
    rw [← getAssocAt_entry h, Option.map_map]
    rfl
  lookupKey := by
    intro key
    rw [← getAssocAt_entry h, Option.map_map]
    rfl
  getCount := h.count
  enumerate := ⟨_, h.enumerate, h.stored.lists⟩

/-! ## Runs -/

/-- Every operation refines the one on the bindings. -/
theorem step_refines (h : Refines text m d) (op : MapOp κ ν) (hroom : d.count < 2 ^ 28)
    (hinit : ∀ n, op = .initHashTable n → n ≤ 2 ^ 30) :
    ∃ m', step text m op = some (m', (MapOp.spec text d op).2) ∧
      Refines text m' (MapOp.spec text d op).1 := by
  cases op with
  | index key init =>
      obtain ⟨m', n, hindex, hn, -, ⟨hlookup, rfl⟩ | ⟨hnot, -, hvalue, h'⟩⟩ :=
        index_refines h key init hroom
      · simp only [step, hindex, Option.bind_some, h.valueAt hn, MapOp.spec, hlookup]
        exact ⟨m', rfl, h⟩
      · simp only [step, hindex, Option.bind_some, h'.valueAt hn, MapOp.spec,
          Finmap.lookup_eq_none.mpr hnot, hvalue]
        exact ⟨m', rfl, h'⟩
  | setAt key v =>
      obtain ⟨m', hset, h'⟩ := setAt_refines h key v hroom
      exact ⟨m', by rw [step, hset]; rfl, h'⟩
  | removeKey key =>
      obtain ⟨m', hremove, h'⟩ := removeKey_refines h key hroom
      exact ⟨m', by rw [step, hremove]; rfl, h'⟩
  | removeAll => exact ⟨removeAll m, rfl, removeAll_refines m⟩
  | initHashTable n =>
      obtain ⟨m', hresize, h', -⟩ := initHashTable_refines h (hinit n rfl) (by omega)
      exact ⟨m', by rw [step, hresize]; rfl, h'⟩

end IStringMap

open IStringMap

end Curl1C
