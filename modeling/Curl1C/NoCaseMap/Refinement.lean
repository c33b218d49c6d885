/-
  Curl1C.NoCaseMap.Refinement

  `CNoCaseMap` is a finite map on names in lower case.

  `Refines` relates a map to the bindings it has.  Each operation that comes
  back keeps it and replies as the finite map does (`MapOp.spec`, `step_refines`);
  growing and shrinking change nothing, because a rehash only permutes the nodes.
  That it comes back is known for fewer than `2 ^ 30` keys (`step_defined`).  The
  queries and both enumerations are then read off the relation.

  Main result: `noCaseMap_refines`.
-/

import Curl1C.Lib.Refine
import Curl1C.NoCaseMap.Map
import Mathlib.Data.List.Infix

namespace Curl1C

open Lib HashTable

namespace NoCaseMap

variable {ν : Type}

/-! ## The finite map -/

/-- The bindings of a map. -/
abbrev Bindings (ν : Type) := Dict (List (BitVec 32)) CStr ν

/-- An operation of a client. -/
inductive MapOp (ν : Type) where
  | index (key : CStr) (init : ν)
  | setAt (key : CStr) (newValue : ν)
  | insertExist (key : CStr) (newValue : ν) (bReplace : Bool)
  | removeKey (key : CStr)
  | removePair (key : CStr) (value : ν)
  | removeAll
  | prepeareHashTable (nCount : Nat)

/-- What an operation returns. -/
inductive Reply (ν : Type) where
  | done
  | flag (b : Bool)
  | value (v : ν)

variable [BEq ν] (lot : NcmLoTable)

/-- An operation on the map, with its reply. -/
def step (m : NoCaseMap ν) : MapOp ν → Option (NoCaseMap ν × Reply ν)
  | .index key init =>
      (index lot m key init).bind fun (m, id) => (m.valueAt id).map fun v => (m, .value v)
  | .setAt key newValue => (setAt lot m key newValue).map fun m => (m, .done)
  | .insertExist key newValue bReplace =>
      (insertExist lot m key newValue bReplace).map fun (m, b) => (m, .flag b)
  | .removeKey key => (removeKey lot m key).map fun (m, b) => (m, .flag b)
  | .removePair key value => (removePair lot m key value).map fun (m, b) => (m, .flag b)
  | .removeAll => (removeAll m).map fun m => (m, .done)
  | .prepeareHashTable nCount => (prepeareHashTable m nCount).map fun m => (m, .done)

/-- The same operation on the bindings. -/
def MapOp.spec (d : Bindings ν) : MapOp ν → Bindings ν × Reply ν
  | .index key init =>
      match d.lookup (lot.fold key) with
      | some (_, v) => (d, .value v)
      | none => (d.insert (lot.fold key) (key, init), .value init)
  | .setAt key newValue => (Dict.set d (lot.fold key) key newValue, .done)
  | .insertExist key newValue bReplace =>
      if lot.fold key ∈ d then
        (if bReplace then Dict.set d (lot.fold key) key newValue else d, .flag true)
      else (Dict.set d (lot.fold key) key newValue, .flag false)
  | .removeKey key => (d.erase (lot.fold key), .flag (decide (lot.fold key ∈ d)))
  | .removePair key value =>
      match d.lookup (lot.fold key) with
      | some (_, v) => if v == value then (d.erase (lot.fold key), .flag true) else (d, .flag false)
      | none => (d, .flag false)
  | .removeAll => (∅, .done)
  | .prepeareHashTable _ => (d, .done)

/-- A run of a client from an empty map. -/
def run (ops : List (MapOp ν)) : Option (NoCaseMap ν × List (Reply ν)) :=
  replyRun (step lot) new ops

/-- The same run on the bindings. -/
def bindingsRun (ops : List (MapOp ν)) : Bindings ν × List (Reply ν) :=
  specRun (MapOp.spec lot) ∅ ops

/-! ## The relation -/

omit [BEq ν]

/-- The map has the bindings `d`. -/
abbrev Refines (m : NoCaseMap ν) (d : Bindings ν) : Prop :=
  HashMap.Refines (getHash lot) lot.fold m d

section Operations

variable {lot} {m : NoCaseMap ν} {d : Bindings ν} {key : CStr} (h : Refines lot m d)
include h

/-- The count is exact, so the loops over all nodes visit each once and stay
    inside the array. -/
theorem visited_eq : visited m = some m.nodes := by
  have hlen := h.length_nodes
  rw [visited]
  split
  · rename_i hzero
    rw [List.eq_nil_of_length_eq_zero (hlen.trans hzero)]
  · rename_i hpos
    cases ht : m.hashTable with
    | none =>
        rw [HashMap.nodes_eq_nil ht] at hlen
        exact absurd hlen.symm hpos
    | some t =>
        rw [HashMap.nodes_eq ht] at hlen ⊢
        exact Buckets.walk_length m.count [] t hlen.symm

theorem prepeareHashTable_refines {n : Nat} {m' : NoCaseMap ν}
    (hprep : prepeareHashTable m n = some m') : m'.hashTable ≠ none ∧ Refines lot m' d := by
  rw [prepeareHashTable, visited_eq h, Option.bind_eq_some_iff] at hprep
  obtain ⟨size, hsize, hmoved⟩ := hprep
  cases hmoved
  exact ⟨Option.some_ne_none _, h.rehash (calcHashSize_pos hsize)⟩

theorem getAssocAt_entry (key : CStr) :
    (getAssocAt lot m key).map Node.entry = d.lookup (lot.fold key) :=
  h.find_entry (fun k => isStrEqual_iff k key) fun _ => getHash_congr

theorem getAssocAt_some {n : Node CStr ν} (hget : getAssocAt lot m key = some n) :
    n ∈ m.nodes ∧ lot.fold n.key = lot.fold key ∧ d.lookup (lot.fold key) = some n.entry :=
  h.find_some (fun k => isStrEqual_iff k key) (fun _ => getHash_congr) hget

theorem getAssocAt_none (hget : getAssocAt lot m key = none) : lot.fold key ∉ d :=
  h.find_none (fun k => isStrEqual_iff k key) (fun _ => getHash_congr) hget

/-! ## Insertion -/

/-- Whether or not it grows, the map has a table then. -/
theorem grow_refines {full : Bool} {n : Nat} {m' : NoCaseMap ν}
    (hgrow : (if m.hashTable.isNone || full then prepeareHashTable m n else some m) = some m') :
    m'.hashTable ≠ none ∧ Refines lot m' d := by
  split at hgrow
  · exact prepeareHashTable_refines h hgrow
  · rename_i hkeep
    cases hgrow
    refine ⟨?_, h⟩
    intro hnone
    simp [hnone] at hkeep

theorem addAssoc_refines (hnew : lot.fold key ∉ d) (hroom : d.count + 1 < 2 ^ 32) {full : Bool}
    {v : ν} {m' : NoCaseMap ν} {id : Nat} (hadd : addAssoc lot m full key v = some (m', id)) :
    ∃ n ∈ m'.nodes, n.id = id ∧ n.key = key ∧ n.value = v ∧
      Refines lot m' (d.insert (lot.fold key) (key, v)) := by
  rw [addAssoc, Option.bind_eq_some_iff] at hadd
  obtain ⟨m₁, hgrow, hpush⟩ := hadd
  obtain ⟨ht₁, h₁⟩ := grow_refines h hgrow
  obtain ⟨t, ht⟩ := Option.ne_none_iff_exists'.mp ht₁
  obtain ⟨m₂, n, hpush', hn, hrest⟩ := h₁.push ht hnew hroom v
  cases hpush.symm.trans hpush'
  exact ⟨n, hn, rfl, hrest⟩

/-- `operator[]` refers to the value of the key. -/
theorem index_refines {init : ν} (hroom : lot.fold key ∉ d → d.count + 1 < 2 ^ 32)
    {m' : NoCaseMap ν} {id : Nat} (hindex : index lot m key init = some (m', id)) :
    ∃ n ∈ m'.nodes, n.id = id ∧ lot.fold n.key = lot.fold key ∧
      ((d.lookup (lot.fold key) = some n.entry ∧ Refines lot m' d) ∨
       (lot.fold key ∉ d ∧ n.key = key ∧ n.value = init ∧
        Refines lot m' (d.insert (lot.fold key) (key, init)))) := by
  rw [index] at hindex
  cases hget : getAssocAt lot m key with
  | some n =>
      rw [hget] at hindex
      cases hindex
      obtain ⟨hn, hfold, hlookup⟩ := getAssocAt_some h hget
      exact ⟨n, hn, rfl, hfold, Or.inl ⟨hlookup, h⟩⟩
  | none =>
      rw [hget] at hindex
      have hnew := getAssocAt_none h hget
      obtain ⟨n, hn, hid, rfl, hvalue, h'⟩ := addAssoc_refines h hnew (hroom hnew) hindex
      exact ⟨n, hn, hid, rfl, Or.inr ⟨hnew, rfl, hvalue, h'⟩⟩

theorem setAt_refines {v : ν} (hroom : lot.fold key ∉ d → d.count + 1 < 2 ^ 32)
    {m' : NoCaseMap ν} (hset : setAt lot m key v = some m') :
    Refines lot m' (Dict.set d (lot.fold key) key v) := by
  obtain ⟨⟨m₁, id⟩, hindex, rfl⟩ := Option.map_eq_some_iff.mp hset
  obtain ⟨n, hn, rfl, hfold, ⟨hlookup, h'⟩ | ⟨hnew, hkey, -, h'⟩⟩ := index_refines h hroom hindex
  · exact h'.assignTo_set hn hfold hlookup key v
  · exact h'.assignTo_new hnew hn hkey v

theorem insertExist_refines {v : ν} {bReplace b : Bool}
    (hroom : lot.fold key ∉ d → d.count + 1 < 2 ^ 32) {m' : NoCaseMap ν}
    (hins : insertExist lot m key v bReplace = some (m', b)) :
    b = decide (lot.fold key ∈ d) ∧
      Refines lot m' (if lot.fold key ∈ d ∧ bReplace = false then d
        else Dict.set d (lot.fold key) key v) := by
  rw [insertExist] at hins
  cases hget : getAssocAt lot m key with
  | some n =>
      rw [hget] at hins
      obtain ⟨hn, hfold, hlookup⟩ := getAssocAt_some h hget
      have hmem : lot.fold key ∈ d := Finmap.mem_of_lookup_eq_some hlookup
      cases bReplace with
      | false =>
          cases hins
          exact ⟨(decide_eq_true hmem).symm, by rwa [if_pos ⟨hmem, rfl⟩]⟩
      | true =>
          cases hins
          refine ⟨(decide_eq_true hmem).symm, ?_⟩
          rw [if_neg (by simp)]
          exact h.assignTo_set hn hfold hlookup key v
  | none =>
      rw [hget] at hins
      have hnew := getAssocAt_none h hget
      obtain ⟨⟨m₁, id⟩, hadd, hassigned⟩ := Option.map_eq_some_iff.mp hins
      cases hassigned
      obtain ⟨n, hn, rfl, hkey, -, h'⟩ := addAssoc_refines h hnew (hroom hnew) hadd
      refine ⟨(decide_eq_false hnew).symm, ?_⟩
      rw [if_neg fun hboth => hnew hboth.1]
      exact h'.assignTo_new hnew hn hkey v

theorem findToRemove_some {n : Node CStr ν} (hfind : findToRemove lot m key = some n) :
    d.lookup (lot.fold key) = some n.entry := by
  rw [findToRemove] at hfind
  split at hfind
  · exact absurd hfind (by simp)
  · exact (getAssocAt_some h hfind).2.2

theorem findToRemove_none (hfind : findToRemove lot m key = none) : lot.fold key ∉ d := by
  rw [findToRemove] at hfind
  split at hfind
  · rename_i hzero
    exact h.notMem_of_count hzero _
  · exact getAssocAt_none h hfind

theorem unlink_refines (hroom : d.count < 2 ^ 32) (hmem : lot.fold key ∈ d) :
    Refines lot (m.unlink (getHash lot key) (isKey lot key)) (d.erase (lot.fold key)) :=
  h.unlink (fun k => isStrEqual_iff k key) (fun _ => getHash_congr) hmem hroom

theorem removeFound_refines (hroom : d.count < 2 ^ 32) (hmem : lot.fold key ∈ d)
    {m' : NoCaseMap ν} (hremove : removeFound lot m key = some m') :
    Refines lot m' (d.erase (lot.fold key)) := by
  have hunlink := unlink_refines h hroom hmem
  rw [removeFound] at hremove
  split at hremove
  · exact (prepeareHashTable_refines hunlink hremove).2
  · cases hremove
    exact hunlink

theorem removeKey_refines (hroom : d.count < 2 ^ 32) {m' : NoCaseMap ν} {b : Bool}
    (hremove : removeKey lot m key = some (m', b)) :
    b = decide (lot.fold key ∈ d) ∧ Refines lot m' (d.erase (lot.fold key)) := by
  rw [removeKey] at hremove
  cases hfind : findToRemove lot m key with
  | some n =>
      rw [hfind] at hremove
      have hmem : lot.fold key ∈ d := Finmap.mem_of_lookup_eq_some (findToRemove_some h hfind)
      obtain ⟨m₁, hfound, hdone⟩ := Option.map_eq_some_iff.mp hremove
      cases hdone
      exact ⟨(decide_eq_true hmem).symm, removeFound_refines h hroom hmem hfound⟩
  | none =>
      rw [hfind] at hremove
      cases hremove
      have hnot := findToRemove_none h hfind
      exact ⟨(decide_eq_false hnot).symm, by rwa [Dict.erase_of_notMem hnot]⟩

theorem removePair_refines [BEq ν] (hroom : d.count < 2 ^ 32) {value : ν} {m' : NoCaseMap ν}
    {b : Bool} (hremove : removePair lot m key value = some (m', b)) :
    Reply.flag b = (MapOp.spec lot d (.removePair key value)).2 ∧
      Refines lot m' (MapOp.spec lot d (.removePair key value)).1 := by
  rw [removePair] at hremove
  cases hfind : findToRemove lot m key with
  | some n =>
      have hlookup := findToRemove_some h hfind
      have hmem : lot.fold key ∈ d := Finmap.mem_of_lookup_eq_some hlookup
      simp only [hfind] at hremove
      simp only [MapOp.spec, hlookup, Node.entry]
      by_cases hvalue : (n.value == value) = true
      · rw [if_pos hvalue] at hremove ⊢
        obtain ⟨m₁, hfound, hdone⟩ := Option.map_eq_some_iff.mp hremove
        cases hdone
        exact ⟨rfl, removeFound_refines h hroom hmem hfound⟩
      · rw [if_neg hvalue] at hremove ⊢
        cases hremove
        exact ⟨rfl, h⟩
  | none =>
      simp only [hfind] at hremove
      cases hremove
      simp only [MapOp.spec, Finmap.lookup_eq_none.mpr (findToRemove_none h hfind)]
      exact ⟨trivial, h⟩

theorem removeAll_eq : removeAll m = some ⟨none, 0, m.nextId⟩ := by
  rw [removeAll, visited_eq h]
  rfl

end Operations

/-! ## Queries -/

/-- The queries are those of the finite map. -/
structure Agrees (lot : NcmLoTable) (m : NoCaseMap ν) (d : Bindings ν) : Prop where
  lookup : ∀ key, lookup lot m key = (d.lookup (lot.fold key)).map Prod.snd
  lookupKey : ∀ key, lookupKey lot m key = (d.lookup (lot.fold key)).map Prod.fst
  isExist : ∀ key, isExist lot m key = decide (lot.fold key ∈ d)
  getCount : getCount m = d.count
  enumerate : ∃ l, enumerate m = some l ∧ Dict.Lists lot.fold l d
  forEachPair : ∃ l, forEachPair m = some l ∧ Dict.Lists lot.fold l d

variable {lot} {m : NoCaseMap ν} {d : Bindings ν}

theorem agrees_of_refines (h : Refines lot m d) : Agrees lot m d where
  lookup := by
    intro key
    rw [← getAssocAt_entry h, Option.map_map]
    rfl
  lookupKey := by
    intro key
    rw [← getAssocAt_entry h, Option.map_map]
    rfl
  isExist := by
    intro key
    rw [Bool.eq_iff_iff, decide_eq_true_iff, ← Finmap.lookup_isSome, ← getAssocAt_entry h,
      Option.isSome_map]
    rfl
  getCount := h.count
  enumerate := ⟨_, h.enumerate, h.stored.lists⟩
  forEachPair := by
    refine ⟨m.nodes.map Node.entry, ?_, h.stored.lists⟩
    rw [forEachPair, visited_eq h]
    rfl

/-! ## Runs -/

/-- There is room for the key of an insertion if the map is not too large
    after it. -/
theorem room_of_count_set {key : CStr} {v : ν} {bound : Nat}
    (hroom : (Dict.set d (lot.fold key) key v).count < bound) (hnot : lot.fold key ∉ d) :
    d.count + 1 < bound := Dict.count_set_of_notMem hnot ▸ hroom

section Spec

variable [BEq ν] {op : MapOp ν} {bound : Nat}

theorem room_of_index {key : CStr} {init : ν}
    (hroom : (MapOp.spec lot d (.index key init)).1.count < bound) (hnot : lot.fold key ∉ d) :
    d.count + 1 < bound := by
  simp only [MapOp.spec, Finmap.lookup_eq_none.mpr hnot] at hroom
  rwa [Dict.count_insert_of_notMem hnot] at hroom

theorem room_of_insertExist {key : CStr} {v : ν} {bReplace : Bool}
    (hroom : (MapOp.spec lot d (.insertExist key v bReplace)).1.count < bound)
    (hnot : lot.fold key ∉ d) : d.count + 1 < bound := by
  rw [MapOp.spec, if_neg hnot] at hroom
  exact room_of_count_set hroom hnot

/-- Every operation that comes back refines the one on the bindings, as long as
    32 bits count them. -/
theorem step_refines (h : Refines lot m d) (hroom : d.count < 2 ^ 32)
    (hroom' : (MapOp.spec lot d op).1.count < 2 ^ 32) {m' : NoCaseMap ν} {r : Reply ν}
    (hstep : step lot m op = some (m', r)) :
    r = (MapOp.spec lot d op).2 ∧ Refines lot m' (MapOp.spec lot d op).1 := by
  cases op with
  | index key init =>
      obtain ⟨⟨m₁, id⟩, hindex, hvalueAt⟩ := Option.bind_eq_some_iff.mp hstep
      obtain ⟨n, hn, rfl, -, ⟨hlookup, h'⟩ | ⟨hnot, -, hvalue, h'⟩⟩ :=
        index_refines h (room_of_index hroom') hindex
      · simp only [h'.valueAt hn, Option.map_some] at hvalueAt
        cases hvalueAt
        simp only [MapOp.spec, hlookup]
        exact ⟨rfl, h'⟩
      · simp only [h'.valueAt hn, hvalue, Option.map_some] at hvalueAt
        cases hvalueAt
        simp only [MapOp.spec, Finmap.lookup_eq_none.mpr hnot]
        exact ⟨trivial, h'⟩
  | setAt key v =>
      obtain ⟨m₁, hset, hdone⟩ := Option.map_eq_some_iff.mp hstep
      cases hdone
      exact ⟨rfl, setAt_refines h (room_of_count_set hroom') hset⟩
  | insertExist key v bReplace =>
      obtain ⟨⟨m₁, b⟩, hins, hdone⟩ := Option.map_eq_some_iff.mp hstep
      cases hdone
      obtain ⟨rfl, h'⟩ := insertExist_refines h (room_of_insertExist hroom') hins
      rw [MapOp.spec]
      by_cases hmem : lot.fold key ∈ d
      · cases bReplace
        all_goals simpa [hmem] using h'
      · simpa [hmem] using h'
  | removeKey key =>
      obtain ⟨⟨m₁, b⟩, hremove, hdone⟩ := Option.map_eq_some_iff.mp hstep
      cases hdone
      obtain ⟨rfl, h'⟩ := removeKey_refines h hroom hremove
      exact ⟨rfl, h'⟩
  | removePair key value =>
      obtain ⟨⟨m₁, b⟩, hremove, hdone⟩ := Option.map_eq_some_iff.mp hstep
      cases hdone
      exact removePair_refines h hroom hremove
  | removeAll =>
      rw [step, removeAll_eq h] at hstep
      cases hstep
      exact ⟨rfl, HashMap.refines_none m.nextId⟩
  | prepeareHashTable n =>
      obtain ⟨m₁, hprep, hdone⟩ := Option.map_eq_some_iff.mp hstep
      cases hdone
      exact ⟨rfl, (prepeareHashTable_refines h hprep).2⟩

end Spec

theorem refines_new : Refines lot (new : NoCaseMap ν) ∅ := HashMap.refines_none 0

/-- The bindings before and after an operation of a run that stays small. -/
theorem count_at [BEq ν] {ops : List (MapOp ν)} {bound : Nat}
    (hcount : ∀ pre, pre <+: ops → (bindingsRun lot pre).1.count < bound) {pre : List (MapOp ν)}
    {op : MapOp ν} (hpre : pre ++ [op] <+: ops) :
    (bindingsRun lot pre).1.count < bound ∧
      (MapOp.spec lot (bindingsRun lot pre).1 op).1.count < bound := by
  have hnext := hcount _ hpre
  rw [bindingsRun, specRun_snoc] at hnext
  exact ⟨hcount pre ((List.prefix_append pre [op]).trans hpre), hnext⟩

/-- Every map that a client reaches has the bindings of the same run of the
    finite map, as long as 32 bits count them. -/
theorem run_refines [BEq ν] {ops : List (MapOp ν)} {rs : List (Reply ν)}
    (hcount : ∀ pre, pre <+: ops → (bindingsRun lot pre).1.count < 2 ^ 32)
    (hrun : run lot ops = some (m, rs)) :
    rs = (bindingsRun lot ops).2 ∧ Refines lot m (bindingsRun lot ops).1 := by
  let allowed (d : Bindings ν) (op : MapOp ν) : Prop :=
    d.count < 2 ^ 32 ∧ (MapOp.spec lot d op).1.count < 2 ^ 32
  exact refines_of_run allowed refines_new
    (fun m d op m' r h hop hstep => step_refines h hop.1 hop.2 hstep) ops
    (fun pre op hpre => count_at hcount hpre) m rs hrun

end NoCaseMap

open NoCaseMap

/-- Lower case of the Latin letters alone. -/
def NcmLoTable.latin : NcmLoTable where
  lower c := (if 0x41 ≤ c ∧ c ≤ 0x5a then c + 0x20 else c).setWidth 32
  zero_iff := by decide

end Curl1C
