/-
  Curl1C.Lib.HashMap

  Maps kept in a hash table that is allocated later and counts its nodes.

  The count is a 32-bit counter of its own and not the number of nodes; that
  the two agree is part of `Refines`, the relation between a map and the
  bindings it has.  The primitives below are what the operations of such a map
  are made of; when to rehash and into how many buckets is left to the map.
-/

import Curl1C.Lib.HashTable

namespace Curl1C.Lib

open HashTable

/-- A map: the table (none before the first insertion), the count of its nodes,
    and the address of the next one. -/
structure HashMap (κ ν : Type*) where
  hashTable : Option (Buckets (Node κ ν))
  count : Nat
  nextId : Nat

namespace HashMap

variable {φ κ ν : Type*}

/-! ## Primitives -/

/-- All nodes. -/
def nodes (m : HashMap κ ν) : List (Node κ ν) := (m.hashTable.map Buckets.nodes).getD []

/-- The node with a hash value and a key. -/
def find (m : HashMap κ ν) (h : Nat) (p : κ → Bool) : Option (Node κ ν) :=
  m.hashTable.bind fun t => (t.chain h).find? (hit h p)

/-- Puts a new node in front of its chain; the result is a reference to its
    value. -/
def push (m : HashMap κ ν) (h : Nat) (key : κ) (value : ν) : Option (HashMap κ ν × Nat) :=
  m.hashTable.map fun t =>
    (⟨some (t.push h ⟨m.nextId, h, key, value⟩), (m.count + 1) % 2 ^ 32, m.nextId + 1⟩, m.nextId)

/-- Takes the node with a hash value and a key out of its chain. -/
def unlink (m : HashMap κ ν) (h : Nat) (p : κ → Bool) : HashMap κ ν :=
  ⟨m.hashTable.map fun t => t.edit h (List.eraseP (hit h p)),
    (m.count + (2 ^ 32 - 1)) % 2 ^ 32, m.nextId⟩

/-- Moves nodes into a new table. -/
def rehash (m : HashMap κ ν) (size : Nat) (l : List (Node κ ν)) : HashMap κ ν :=
  ⟨some (Buckets.refill Node.hash (Buckets.empty size) l), m.count, m.nextId⟩

/-- The value a reference refers to. -/
def valueAt (m : HashMap κ ν) (id : Nat) : Option ν :=
  (m.nodes.find? fun n => decide (n.id = id)).map Node.value

/-- An assignment through a reference. -/
def assignTo (m : HashMap κ ν) (id : Nat) (value : ν) : HashMap κ ν :=
  ⟨m.hashTable.map fun t => assign t id value, m.count, m.nextId⟩

/-- Where an iteration starts. -/
def startPosition (m : HashMap κ ν) : Position := if m.count = 0 then .null else .beforeStart

/-- The node an iteration is at, and the position after it. -/
def nextAssoc (m : HashMap κ ν) (pos : Position) : Option (Position × κ × ν) :=
  m.hashTable.bind fun t =>
    match pos with
    | .null => none
    | .beforeStart => advance t t.firstChain
    | .node id => advance t (t.deref Node.id id)

/-- The loop of a client from the start to the end. -/
def enumerate (m : HashMap κ ν) : Option (List (κ × ν)) :=
  iterate m.nextAssoc m.count m.startPosition

/-! ## Bindings -/

variable (hash : κ → Nat) (fold : κ → φ)

/-- The map has the bindings `d`. -/
structure Refines (m : HashMap κ ν) (d : Dict φ κ ν) : Prop where
  count : m.count = d.count
  table : ∀ t, m.hashTable = some t → Holds hash fold t m.nextId d
  empty : m.hashTable = none → d = ∅

variable {hash fold} {m : HashMap κ ν} {d : Dict φ κ ν} {t : Buckets (Node κ ν)} {n : Node κ ν}

theorem refines_of_holds {c next : Nat} (hcount : c = d.count) (hholds : Holds hash fold t next d) :
    Refines hash fold ⟨some t, c, next⟩ d where
  count := hcount
  table := by
    intro t' ht'
    obtain rfl := Option.some.inj ht'
    exact hholds
  empty := nofun

theorem refines_none (next : Nat) : Refines hash fold (⟨none, 0, next⟩ : HashMap κ ν) ∅ where
  count := rfl
  table := nofun
  empty := fun _ => rfl

theorem nodes_eq (ht : m.hashTable = some t) : m.nodes = t.nodes := by
  rw [nodes, ht]
  rfl

theorem nodes_eq_nil (ht : m.hashTable = none) : m.nodes = [] := by
  rw [nodes, ht]
  rfl

theorem hashTable_of_mem (hn : n ∈ m.nodes) : ∃ t, m.hashTable = some t ∧ n ∈ t.nodes := by
  cases ht : m.hashTable with
  | none =>
      rw [nodes_eq_nil ht] at hn
      exact absurd hn List.not_mem_nil
  | some t => exact ⟨t, rfl, nodes_eq ht ▸ hn⟩

theorem Refines.stored (h : Refines hash fold m d) : Stored hash fold m.nodes m.nextId d := by
  cases ht : m.hashTable with
  | none =>
      rw [h.empty ht, nodes_eq_nil ht]
      exact stored_nil m.nextId
  | some t =>
      rw [nodes_eq ht]
      exact (h.table t ht).stored

/-- The count is exact. -/
theorem Refines.length_nodes (h : Refines hash fold m d) : m.nodes.length = m.count := by
  rw [h.count, h.stored.lists.count_eq, List.length_map]

/-- No node sits outside the bucket of its hash value. -/
theorem Refines.placed (h : Refines hash fold m d) (ht : m.hashTable = some t) :
    Buckets.Placed Node.hash t := (h.table t ht).placed

theorem Refines.rehash (h : Refines hash fold m d) {size : Nat} (hsize : 0 < size) :
    Refines hash fold (m.rehash size m.nodes) d :=
  refines_of_holds h.count (h.stored.refill hsize)

/-- Only the hash values and the folds of the stored keys matter. -/
theorem Refines.congr {hash' : κ → Nat} {fold' : κ → φ} (h : Refines hash fold m d)
    (hhash : ∀ n ∈ m.nodes, hash n.key = hash' n.key)
    (hfold : ∀ n ∈ m.nodes, fold n.key = fold' n.key) : Refines hash' fold' m d where
  count := h.count
  table := by
    intro t ht
    rw [nodes_eq ht] at hhash hfold
    obtain ⟨hpos, hplaced, hstored⟩ := h.table t ht
    refine ⟨hpos, hplaced, ⟨?_, hstored.ids, hstored.below, ?_⟩⟩
    · intro n hn
      rw [hstored.hashed n hn, hhash n hn]
    · refine hstored.lists.congr_fold fun e he => ?_
      obtain ⟨n, hn, rfl⟩ := List.mem_map.mp he
      exact hfold n hn
  empty := h.empty

section DecEq

variable [DecidableEq φ]

theorem Refines.mem_of_mem (h : Refines hash fold m d) (hn : n ∈ m.nodes) : fold n.key ∈ d :=
  Finmap.mem_of_lookup_eq_some (h.stored.lookup_of_mem hn)

omit [DecidableEq φ] in
/-- A map that counts no nodes has no bindings. -/
theorem Refines.notMem_of_count (h : Refines hash fold m d) (hzero : m.count = 0) (f : φ) :
    f ∉ d := by
  intro hmem
  have hpos : 0 < d.count := Finset.card_pos.mpr ⟨f, Finmap.mem_keys.mpr hmem⟩
  have hcount := h.count
  omega

theorem Refines.push (h : Refines hash fold m d) (ht : m.hashTable = some t) {key : κ}
    (hnew : fold key ∉ d) (hroom : d.count + 1 < 2 ^ 32) (value : ν) :
    ∃ m' n, m.push (hash key) key value = some (m', n.id) ∧ n ∈ m'.nodes ∧ n.key = key ∧
      n.value = value ∧ Refines hash fold m' (d.insert (fold key) (key, value)) := by
  have hcount : (m.count + 1) % 2 ^ 32 = Dict.count (d.insert (fold key) (key, value)) := by
    rw [Dict.count_insert_of_notMem hnew, h.count, Nat.mod_eq_of_lt hroom]
  refine ⟨_, ⟨m.nextId, hash key, key, value⟩, ?_, ?_, rfl, rfl,
    refines_of_holds hcount ((h.table t ht).push value hnew)⟩
  · rw [HashMap.push, ht]
    rfl
  · exact (Buckets.nodes_push (h.table t ht).pos _).mem_iff.mpr List.mem_cons_self

omit [DecidableEq φ] in
theorem Refines.valueAt (h : Refines hash fold m d) (hn : n ∈ m.nodes) :
    m.valueAt n.id = some n.value := by
  have hids := h.stored.ids
  obtain ⟨u, v, hsplit⟩ := List.append_of_mem hn
  have hother : u.find? (fun k => decide (k.id = n.id)) = none := by
    refine List.find?_eq_none.mpr fun k hk heq => ?_
    exact Buckets.ident_ne_of_nodup (hsplit ▸ hids) k hk (of_decide_eq_true heq)
  rw [HashMap.valueAt, hsplit, List.find?_append, hother]
  simp

theorem Refines.assignTo (h : Refines hash fold m d) (hn : n ∈ m.nodes) (v : ν) :
    Refines hash fold (m.assignTo n.id v) (d.insert (fold n.key) (n.key, v)) := by
  have hmem := h.mem_of_mem hn
  obtain ⟨t, ht, hn⟩ := hashTable_of_mem hn
  rw [HashMap.assignTo, ht]
  refine refines_of_holds ?_ ((h.table t ht).assign hn v)
  rw [Dict.count_insert_of_mem hmem]
  exact h.count

/-- An assignment to the value of a key that is there sets the key. -/
theorem Refines.assignTo_set (h : Refines hash fold m d) (hn : n ∈ m.nodes) {f : φ}
    (hfold : fold n.key = f) (hlookup : d.lookup f = some n.entry) (k : κ) (v : ν) :
    Refines hash fold (m.assignTo n.id v) (Dict.set d f k v) := by
  rw [Dict.set_of_lookup hlookup, ← hfold]
  exact h.assignTo hn v

/-- So does an assignment to a value that was just added. -/
theorem Refines.assignTo_new {k : κ} {init : ν} (hnew : fold k ∉ d)
    (h : Refines hash fold m (d.insert (fold k) (k, init))) (hn : n ∈ m.nodes) (hkey : n.key = k)
    (v : ν) : Refines hash fold (m.assignTo n.id v) (Dict.set d (fold k) k v) := by
  have hassign := h.assignTo hn v
  rw [hkey, Finmap.insert_insert] at hassign
  rwa [Dict.set_of_notMem hnew]

omit [DecidableEq φ] in
theorem nodes_assignTo (m : HashMap κ ν) (id : Nat) (v : ν) :
    (m.assignTo id v).nodes = m.nodes.map (assignNode id v) := by
  cases ht : m.hashTable with
  | none => rw [nodes_eq_nil ht, HashMap.assignTo, ht]; rfl
  | some t =>
      rw [nodes_eq ht, ← nodes_assign]
      exact nodes_eq (by rw [HashMap.assignTo, ht]; rfl)

section Find

variable {p : κ → Bool} {f : φ} {v : Nat} (h : Refines hash fold m d)
  (hp : ∀ k, p k = true ↔ fold k = f) (hhash : ∀ k, fold k = f → hash k = v)
include h hp hhash

theorem Refines.find_entry : (m.find v p).map Node.entry = d.lookup f := by
  rw [find]
  cases ht : m.hashTable with
  | none =>
      rw [h.empty ht]
      rfl
  | some t => exact (h.table t ht).lookup_eq hp hhash

/-- The node that a key leads to. -/
theorem Refines.find_some (hfind : m.find v p = some n) :
    n ∈ m.nodes ∧ fold n.key = f ∧ d.lookup f = some n.entry := by
  rw [find] at hfind
  obtain ⟨t, ht, hfind⟩ := Option.bind_eq_some_iff.mp hfind
  rw [nodes_eq ht]
  exact (h.table t ht).find?_some hp hhash hfind

theorem Refines.find_none (hfind : m.find v p = none) : f ∉ d := by
  have hentry := h.find_entry hp hhash
  rw [hfind] at hentry
  exact Finmap.lookup_eq_none.mp hentry.symm

theorem Refines.unlink (hmem : f ∈ d) (hroom : d.count < 2 ^ 32) :
    Refines hash fold (m.unlink v p) (d.erase f) := by
  have hpos : 0 < d.count := Finset.card_pos.mpr ⟨f, Finmap.mem_keys.mpr hmem⟩
  have hcount := h.count
  have hless : (m.count + (2 ^ 32 - 1)) % 2 ^ 32 = Dict.count (d.erase f) := by
    rw [Dict.count_erase_of_mem hmem]
    omega
  cases ht : m.hashTable with
  | none =>
      rw [h.empty ht] at hmem
      exact absurd hmem Finmap.notMem_empty
  | some t =>
      rw [HashMap.unlink, ht]
      exact refines_of_holds hless ((h.table t ht).eraseP hp hhash)

end Find

end DecEq

/-! ## Iteration -/

/-- A position from which an iteration goes on with the nodes `w`, when it has
    returned the nodes `u`. -/
def Ahead (u : List (Node κ ν)) : List (Node κ ν) → Position → Prop
  | [], pos => pos = .null
  | n :: _, pos => pos = .node n.id ∨ u = [] ∧ pos = .beforeStart

theorem ahead_positionOf (u w : List (Node κ ν)) : Ahead u w (positionOf w.head?) := by
  cases w with
  | nil => rfl
  | cons n w => exact Or.inl rfl

theorem Ahead.ne_null {u w : List (Node κ ν)} {pos : Position} (h : Ahead u (n :: w) pos) :
    pos ≠ .null := by
  rcases h with rfl | ⟨-, rfl⟩
  all_goals exact nofun

theorem Refines.ahead_start (h : Refines hash fold m d) : Ahead [] m.nodes m.startPosition := by
  have hlen := h.length_nodes
  rw [startPosition]
  cases hnodes : m.nodes with
  | nil =>
      rw [hnodes] at hlen
      exact if_pos hlen.symm
  | cons n w =>
      rw [hnodes] at hlen
      exact Or.inr ⟨rfl, if_neg (by rw [← hlen]; exact Nat.succ_ne_zero _)⟩

/-- A step of an iteration returns the next node. -/
theorem Refines.nextAssoc (h : Refines hash fold m d) {u w : List (Node κ ν)} {pos : Position}
    (hnodes : m.nodes = u ++ n :: w) (hpos : Ahead u (n :: w) pos) :
    m.nextAssoc pos = some (positionOf w.head?, n.key, n.value) := by
  obtain ⟨t, ht, -⟩ := hashTable_of_mem (n := n) (m := m) (by simp [hnodes])
  rw [nodes_eq ht] at hnodes
  rw [HashMap.nextAssoc, ht]
  rcases hpos with rfl | ⟨rfl, rfl⟩
  · exact (h.table t ht).advance_deref hnodes
  · exact (h.table t ht).advance_firstChain hnodes

theorem Refines.iterate_eq (h : Refines hash fold m d) {u w : List (Node κ ν)} {pos : Position}
    {fuel : Nat} (hnodes : m.nodes = u ++ w) (hfuel : w.length ≤ fuel) (hpos : Ahead u w pos) :
    iterate m.nextAssoc fuel pos = some (w.map Node.entry) := by
  induction w generalizing u pos fuel with
  | nil =>
      rw [show pos = .null from hpos, iterate_null]
      rfl
  | cons n w ih =>
      obtain ⟨fuel, rfl, hleft⟩ := exists_fuel hfuel
      have hrest : m.nodes = (u ++ [n]) ++ w := by rw [hnodes, List.append_assoc]; rfl
      rw [iterate_succ hpos.ne_null (h.nextAssoc hnodes hpos),
        ih hrest hleft (ahead_positionOf _ w)]
      rfl

/-- An iteration returns the bindings, in the order of the buckets. -/
theorem Refines.enumerate (h : Refines hash fold m d) :
    m.enumerate = some (m.nodes.map Node.entry) := by
  rw [HashMap.enumerate, ← h.length_nodes]
  exact h.iterate_eq (List.nil_append _).symm (Nat.le_refl _) h.ahead_start

end HashMap

end Curl1C.Lib
