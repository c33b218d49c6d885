/-
  Curl1C.Lib.HashTable

  Hash tables with chaining as finite maps on folded keys.

  A node has an address, the hash value of its key, the key and a value.
  `Stored` is what has to hold of the nodes of a table wherever they are, and
  `Holds` adds that each is in its bucket.  Every change a table goes through
  (a new node, an unlinked one, an assignment through a reference, a rehash)
  keeps `Holds` for the `Dict` changed accordingly; so a map that is built
  from these is a finite map, whatever it does about its size.

  Keys are compared by a predicate on stored keys, so that the key of a query
  may be of another type than the keys of the nodes.
-/

import Curl1C.Lib.Buckets
import Curl1C.Lib.Dict

namespace Curl1C.Lib

/-- A node of a table, with its address. -/
structure Node (κ ν : Type*) where
  id : Nat
  hash : Nat
  key : κ
  value : ν
deriving DecidableEq

/-- The binding a node stands for. -/
def Node.entry {κ ν : Type*} (n : Node κ ν) : κ × ν := (n.key, n.value)

/-- Where an iterator over a table is: at its end, in front of the first node,
    or at a node that it has not returned yet. -/
inductive Position where
  | null
  | beforeStart
  | node (id : Nat)
deriving DecidableEq

namespace HashTable

variable {φ κ ν : Type*}

/-! ## Operations -/

/-- The position of a node, or the end. -/
def positionOf : Option (Node κ ν) → Position
  | none => .null
  | some n => .node n.id

/-- Assigns to the value of the node at the address `id`. -/
def assignNode (id : Nat) (v : ν) (n : Node κ ν) : Node κ ν :=
  if n.id = id then { n with value := v } else n

/-- Assigns to the value of the node at the address `id`, in a table. -/
def assign (t : Buckets (Node κ ν)) (id : Nat) (v : ν) : Buckets (Node κ ν) :=
  t.map fun c => c.map (assignNode id v)

/-- A node matches a hash value and a predicate on keys. -/
def hit (h : Nat) (p : κ → Bool) (n : Node κ ν) : Bool := decide (n.hash = h) && p n.key

/-- Returns the head of a chain and goes on to the node after it. -/
def advance (t : Buckets (Node κ ν)) : List (Node κ ν) → Option (Position × κ × ν)
  | [] => none
  | n :: c => some (positionOf (Buckets.next Node.hash t n c), n.key, n.value)

/-- What an iterator returns from a position to the end; `none` if it does not
    get there in `fuel` steps. -/
def iterate (next : Position → Option (Position × κ × ν)) : Nat → Position → Option (List (κ × ν))
  | _, .null => some []
  | 0, _ => none
  | fuel + 1, pos =>
      (next pos).bind fun (pos, k, v) => (iterate next fuel pos).map ((k, v) :: ·)

variable (hash : κ → Nat) (fold : κ → φ)

/-- Nodes with their hash values, at different addresses below `next`, with the
    bindings of a map. -/
structure Stored (l : List (Node κ ν)) (next : Nat) (d : Dict φ κ ν) : Prop where
  hashed : ∀ n ∈ l, n.hash = hash n.key
  ids : (l.map Node.id).Nodup
  below : ∀ n ∈ l, n.id < next
  lists : Dict.Lists fold (l.map Node.entry) d

/-- A table with the bindings of a map. -/
structure Holds (t : Buckets (Node κ ν)) (next : Nat) (d : Dict φ κ ν) : Prop where
  pos : 0 < t.length
  placed : Buckets.Placed Node.hash t
  stored : Stored hash fold t.nodes next d

variable {hash fold} {l l' : List (Node κ ν)} {t : Buckets (Node κ ν)} {next : Nat}
  {d : Dict φ κ ν} {n : Node κ ν}

/-! ## Nodes wherever they are -/

theorem stored_nil (next : Nat) : Stored hash fold ([] : List (Node κ ν)) next ∅ where
  hashed := by simp
  ids := by simp
  below := by simp
  lists := Dict.lists_nil

theorem Stored.perm (h : Stored hash fold l next d) (hperm : l.Perm l') :
    Stored hash fold l' next d where
  hashed := fun n hn => h.hashed n (hperm.mem_iff.mpr hn)
  ids := (hperm.map _).nodup_iff.mp h.ids
  below := fun n hn => h.below n (hperm.mem_iff.mpr hn)
  lists := h.lists.perm (hperm.map _)

section DecEq

variable [DecidableEq φ]

theorem Stored.cons (h : Stored hash fold l next d) {k : κ} (v : ν) (hnew : fold k ∉ d) :
    Stored hash fold (⟨next, hash k, k, v⟩ :: l) (next + 1) (d.insert (fold k) (k, v)) where
  hashed := by
    intro n hn
    rcases List.mem_cons.mp hn with rfl | hn
    · rfl
    · exact h.hashed n hn
  ids := by
    refine List.nodup_cons.mpr ⟨fun hmem => ?_, h.ids⟩
    obtain ⟨n, hn, hid⟩ := List.mem_map.mp hmem
    exact absurd hid (h.below n hn).ne
  below := by
    intro n hn
    rcases List.mem_cons.mp hn with rfl | hn
    · exact Nat.lt_succ_self next
    · exact Nat.lt_succ_of_lt (h.below n hn)
  lists := h.lists.cons (e := (k, v)) hnew

theorem Stored.tail (h : Stored hash fold (n :: l) next d) :
    Stored hash fold l next (d.erase (fold n.key)) where
  hashed := fun m hm => h.hashed m (List.mem_cons_of_mem n hm)
  ids := (List.nodup_cons.mp h.ids).2
  below := fun m hm => h.below m (List.mem_cons_of_mem n hm)
  lists := h.lists.tail

/-- A node can be searched for by its folded key. -/
theorem Stored.find?_eq (h : Stored hash fold l next d) (f : φ) :
    (l.find? fun n => decide (fold n.key = f)).map Node.entry = d.lookup f := by
  rw [← h.lists.find?_eq, List.find?_map]
  rfl

omit [DecidableEq φ] in
/-- Two nodes with the same folded key are the same. -/
theorem Stored.eq_of_fold_eq (h : Stored hash fold l next d) {m : Node κ ν} (hn : n ∈ l)
    (hm : m ∈ l) (heq : fold n.key = fold m.key) : n = m := by
  have hnodup := h.lists.nodup
  rw [List.map_map] at hnodup
  exact List.inj_on_of_nodup_map hnodup hn hm heq

theorem Stored.lookup_of_mem (h : Stored hash fold l next d) (hn : n ∈ l) :
    d.lookup (fold n.key) = some n.entry :=
  h.lists.lookup_eq_some_iff.mpr ⟨List.mem_map_of_mem hn, rfl⟩

theorem Stored.eraseP (h : Stored hash fold l next d) {p : Node κ ν → Bool} {f : φ}
    (hp : ∀ n ∈ l, p n = true ↔ fold n.key = f) :
    Stored hash fold (l.eraseP p) next (d.erase f) := by
  rcases List.exists_or_eq_self_of_eraseP p l with heq | ⟨n, u, v, hu, hpn, rfl, heq⟩
  · have hnone : f ∉ d := by
      intro hmem
      obtain ⟨e, he, hfold⟩ := h.lists.mem_iff.mp hmem
      obtain ⟨n, hn, rfl⟩ := List.mem_map.mp he
      exact List.eraseP_eq_self_iff.mp heq n hn ((hp n hn).mpr hfold)
    rw [heq, Dict.erase_of_notMem hnone]
    exact h
  · have hfold : fold n.key = f := (hp n (by simp)).mp hpn
    rw [heq, ← hfold]
    exact (h.perm List.perm_middle).tail

omit [DecidableEq φ] in
/-- An assignment changes one node. -/
theorem Stored.map_assignNode {a b : List (Node κ ν)} (h : Stored hash fold (a ++ n :: b) next d)
    (v : ν) : (a ++ n :: b).map (assignNode n.id v) = a ++ { n with value := v } :: b := by
  have hids := h.ids
  have hother : ∀ m ∈ a ++ b, assignNode n.id v m = m := by
    intro m hm
    have hne : m.id ≠ n.id := by
      rw [(List.perm_middle.map Node.id).nodup_iff, List.map_cons, List.nodup_cons] at hids
      exact fun heq => hids.1 (heq ▸ List.mem_map_of_mem hm)
    rw [assignNode, if_neg hne]
  rw [List.map_append, List.map_cons, List.map_congr_left (fun m hm => hother m (by simp [hm])),
    List.map_congr_left (l := b) (fun m hm => hother m (by simp [hm])), List.map_id', List.map_id',
    assignNode, if_pos rfl]

/-- An assignment changes one binding. -/
theorem Stored.assign (h : Stored hash fold l next d) (hn : n ∈ l) (v : ν) :
    Stored hash fold (l.map (assignNode n.id v)) next (d.insert (fold n.key) (n.key, v)) := by
  obtain ⟨a, b, rfl⟩ := List.append_of_mem hn
  rw [h.map_assignNode]
  have hfront := h.perm List.perm_middle
  refine Stored.perm ?_ List.perm_middle.symm
  constructor
  · intro m hm
    rcases List.mem_cons.mp hm with rfl | hm
    · exact hfront.hashed n List.mem_cons_self
    · exact hfront.hashed m (List.mem_cons_of_mem n hm)
  · exact hfront.ids
  · intro m hm
    rcases List.mem_cons.mp hm with rfl | hm
    · exact hfront.below n List.mem_cons_self
    · exact hfront.below m (List.mem_cons_of_mem n hm)
  · exact hfront.lists.assign v

/-! ## Nodes in their buckets -/

omit [DecidableEq φ] in
theorem Stored.refill (h : Stored hash fold l next d) {size : Nat} (hsize : 0 < size) :
    Holds hash fold (Buckets.refill Node.hash (Buckets.empty size) l) next d where
  pos := by rwa [Buckets.length_refill, Buckets.length_empty]
  placed := (Buckets.placed_empty size).refill (by rwa [Buckets.length_empty]) l
  stored := by
    have hperm : (Buckets.refill Node.hash (Buckets.empty size) l).nodes.Perm
        (l ++ (Buckets.empty size).nodes) :=
      Buckets.nodes_refill (by rwa [Buckets.length_empty]) l
    rw [Buckets.nodes_empty, List.append_nil] at hperm
    exact h.perm hperm.symm

theorem Holds.push (h : Holds hash fold t next d) {k : κ} (v : ν) (hnew : fold k ∉ d) :
    Holds hash fold (t.push (hash k) ⟨next, hash k, k, v⟩) (next + 1)
      (d.insert (fold k) (k, v)) where
  pos := by rw [Buckets.length_push]; exact h.pos
  placed := h.placed.push h.pos rfl
  stored := (h.stored.cons v hnew).perm (Buckets.nodes_push h.pos _).symm

omit [DecidableEq φ] in
theorem nodes_assign (t : Buckets (Node κ ν)) (id : Nat) (v : ν) :
    (assign t id v).nodes = t.nodes.map (assignNode id v) :=
  List.map_flatten.symm

omit [DecidableEq φ] in
theorem placed_assign (hplaced : Buckets.Placed Node.hash t) (id : Nat) (v : ν) :
    Buckets.Placed Node.hash (assign t id v) := by
  intro i c hc n hn
  rw [assign, List.getElem?_map] at hc
  obtain ⟨c', hc', rfl⟩ := Option.map_eq_some_iff.mp hc
  obtain ⟨n', hn', rfl⟩ := List.mem_map.mp hn
  have hhash : (assignNode id v n').hash = n'.hash := by
    rw [assignNode]
    split <;> rfl
  rw [hhash, assign, List.length_map]
  exact hplaced i c' hc' n' hn'

theorem Holds.assign (h : Holds hash fold t next d) (hn : n ∈ t.nodes) (v : ν) :
    Holds hash fold (assign t n.id v) next (d.insert (fold n.key) (n.key, v)) where
  pos := by rw [HashTable.assign, List.length_map]; exact h.pos
  placed := placed_assign h.placed n.id v
  stored := by
    rw [nodes_assign]
    exact h.stored.assign hn v

section Hit

variable {p : κ → Bool} {f : φ} {v : Nat} (h : Holds hash fold t next d)
  (hp : ∀ k, p k = true ↔ fold k = f) (hhash : ∀ k, fold k = f → hash k = v)
include h hp hhash

omit [DecidableEq φ] in
theorem Holds.hit_iff : ∀ n ∈ t.nodes, hit v p n = true ↔ fold n.key = f := by
  intro n hn
  rw [hit, Bool.and_eq_true, decide_eq_true_iff, hp, h.stored.hashed n hn]
  exact ⟨fun hboth => hboth.2, fun hfold => ⟨hhash n.key hfold, hfold⟩⟩

omit [DecidableEq φ] in
theorem Holds.hash_of_hit : ∀ n ∈ t.nodes, hit v p n = true → n.hash = v := by
  intro n hn hhit
  rw [h.stored.hashed n hn]
  exact hhash n.key ((h.hit_iff hp hhash n hn).mp hhit)

/-- Searching the chain of a key is looking up the key. -/
theorem Holds.lookup_eq : ((t.chain v).find? (hit v p)).map Node.entry = d.lookup f := by
  rw [Buckets.find?_chain h.placed h.pos (h.hash_of_hit hp hhash), ← h.stored.find?_eq f]
  have hsame : t.nodes.filter (hit v p) = t.nodes.filter fun n => decide (fold n.key = f) := by
    refine List.filter_congr fun n hn => ?_
    rw [Bool.eq_iff_iff, h.hit_iff hp hhash n hn, decide_eq_true_iff]
  rw [← List.head?_filter, ← List.head?_filter, hsame]

/-- The node that a search finds. -/
theorem Holds.find?_some (hfind : (t.chain v).find? (hit v p) = some n) :
    n ∈ t.nodes ∧ fold n.key = f ∧ d.lookup f = some n.entry := by
  have hlookup := h.lookup_eq hp hhash
  rw [hfind] at hlookup
  rw [Buckets.find?_chain h.placed h.pos (h.hash_of_hit hp hhash)] at hfind
  have hn := List.mem_of_find?_eq_some hfind
  exact ⟨hn, (h.hit_iff hp hhash n hn).mp (List.find?_some hfind), hlookup.symm⟩

/-- Unlinking the node of a key removes the key. -/
theorem Holds.eraseP :
    Holds hash fold (t.edit v (List.eraseP (hit v p))) next (d.erase f) where
  pos := by rw [Buckets.length_edit]; exact h.pos
  placed := h.placed.eraseP h.pos _
  stored := by
    rw [Buckets.nodes_eraseP h.placed h.pos (h.hash_of_hit hp hhash)]
    exact h.stored.eraseP (h.hit_iff hp hhash)

end Hit

end DecEq

/-! ## Iteration -/

/-- An iteration that has a node ahead has a step left for it. -/
theorem exists_fuel {α : Type*} {a : α} {w : List α} {fuel : Nat} (h : (a :: w).length ≤ fuel) :
    ∃ k, fuel = k + 1 ∧ w.length ≤ k := by
  rw [List.length_cons] at h
  exact ⟨fuel - 1, by omega, by omega⟩

theorem iterate_null (next : Position → Option (Position × κ × ν)) (fuel : Nat) :
    iterate next fuel .null = some [] := by
  cases fuel <;> rfl

theorem iterate_succ {next : Position → Option (Position × κ × ν)} {fuel : Nat}
    {pos pos' : Position} {k : κ} {v : ν} (hpos : pos ≠ .null)
    (hnext : next pos = some (pos', k, v)) :
    iterate next (fuel + 1) pos = (iterate next fuel pos').map ((k, v) :: ·) := by
  rw [iterate, hnext, Option.bind_some]
  exact hpos

theorem Holds.advance_deref (h : Holds hash fold t next d) {u v : List (Node κ ν)}
    (hnodes : t.nodes = u ++ n :: v) :
    advance t (Buckets.deref Node.id t n.id) = some (positionOf v.head?, n.key, n.value) := by
  obtain ⟨s, hderef, hnext⟩ := Buckets.deref_next h.placed h.stored.ids hnodes
  rw [hderef, advance, hnext]

theorem Holds.advance_firstChain (h : Holds hash fold t next d) {v : List (Node κ ν)}
    (hnodes : t.nodes = n :: v) :
    advance t (Buckets.firstChain t) = some (positionOf v.head?, n.key, n.value) := by
  obtain ⟨s, hfirst, hnext⟩ := Buckets.firstChain_next h.placed hnodes
  rw [hfirst, advance, hnext]

end HashTable

end Curl1C.Lib
