/-
  Curl1C.Lib.Buckets

  Hash tables with chaining, over an arbitrary type of nodes.

  A table is an array of chains.  `nodes` lists everything it holds, bucket by
  bucket; what an operation does to one chain is restated as what it does to
  `nodes`, so that a user of the library never looks at a bucket again.

  The loops that go over a whole table come in two kinds: `walk` is driven by
  a count of nodes and checks no bound (`none` when it leaves the array), and
  `next` goes from a node to the one after it, as an iterator does.
-/

import Mathlib.Data.List.GetD
import Mathlib.Data.List.Perm.Basic
import Mathlib.Data.List.TakeWhile

namespace Curl1C.Lib

/-- An array of chains. -/
abbrev Buckets (α : Type*) := List (List α)

namespace Buckets

variable {α : Type*}

/-! ## Tables -/

/-- The table of `n` empty buckets. -/
def empty (n : Nat) : Buckets α := List.replicate n []

/-- Everything in the table, bucket by bucket. -/
def nodes (t : Buckets α) : List α := t.flatten

/-- The chain that a hash value selects. -/
def chain (t : Buckets α) (h : Nat) : List α := t.getD (h % t.length) []

/-- Replaces the chain that a hash value selects. -/
def edit (t : Buckets α) (h : Nat) (f : List α → List α) : Buckets α :=
  t.modify (h % t.length) f

/-- Puts a node in front of its chain. -/
def push (t : Buckets α) (h : Nat) (a : α) : Buckets α := t.edit h (a :: ·)

/-- Every node is in the bucket of its hash value. -/
def Placed (hash : α → Nat) (t : Buckets α) : Prop :=
  ∀ i c, t[i]? = some c → ∀ a ∈ c, hash a % t.length = i

variable {hash : α → Nat} {t : Buckets α} {h : Nat}

@[simp] theorem length_empty (n : Nat) : (empty n : Buckets α).length = n := List.length_replicate

@[simp] theorem nodes_empty (n : Nat) : (empty n : Buckets α).nodes = [] := by
  simp [nodes, empty]

@[simp] theorem length_edit (t : Buckets α) (h : Nat) (f : List α → List α) :
    (t.edit h f).length = t.length := List.length_modify ..

@[simp] theorem length_push (t : Buckets α) (h : Nat) (a : α) :
    (t.push h a).length = t.length := length_edit ..

theorem placed_empty (n : Nat) : Placed hash (empty n) := by
  intro i c hc a ha
  obtain rfl : c = [] := List.eq_of_mem_replicate (List.mem_of_getElem? hc)
  exact absurd ha List.not_mem_nil

/-- A table is the chain of a hash value between the buckets before it and the
    buckets after it. -/
theorem exists_split (ht : 0 < t.length) (h : Nat) :
    ∃ pre post, t = pre ++ t.chain h :: post ∧ pre.length = h % t.length ∧
      ∀ f, t.edit h f = pre ++ f (t.chain h) :: post := by
  have hlt : h % t.length < t.length := Nat.mod_lt h ht
  have hchain : t.chain h = t[h % t.length] := by
    rw [chain, List.getD_eq_getElem _ [] hlt]
  refine ⟨t.take (h % t.length), t.drop (h % t.length + 1), ?_, ?_, ?_⟩
  · rw [hchain, List.getElem_cons_drop, List.take_append_drop]
  · rw [List.length_take, Nat.min_eq_left (Nat.le_of_lt hlt)]
  · intro f
    rw [edit, List.modify_eq_take_cons_drop hlt, hchain]

/-- The nodes outside the chain of a hash value have other hash values. -/
theorem Placed.split (hplaced : Placed hash t) (ht : 0 < t.length) (h : Nat) :
    ∃ u v, t.nodes = u ++ t.chain h ++ v ∧ (∀ f, (t.edit h f).nodes = u ++ f (t.chain h) ++ v) ∧
      ∀ a, a ∈ u ∨ a ∈ v → hash a % t.length ≠ h % t.length := by
  obtain ⟨pre, post, hsplit, hpre, hedit⟩ := exists_split ht h
  refine ⟨pre.flatten, post.flatten, ?_, ?_, ?_⟩
  · conv_lhs => rw [hsplit]
    simp [nodes]
  · intro f
    simp [nodes, hedit f]
  · rintro a (ha | ha) heq
    · obtain ⟨c, hc, hac⟩ := List.mem_flatten.mp ha
      obtain ⟨i, hi, rfl⟩ := List.getElem_of_mem hc
      have hget : t[i]? = some pre[i] := by
        rw [hsplit, List.getElem?_append_left hi, List.getElem?_eq_getElem hi]
      have := hplaced i _ hget a hac
      omega
    · obtain ⟨c, hc, hac⟩ := List.mem_flatten.mp ha
      obtain ⟨i, hi, rfl⟩ := List.getElem_of_mem hc
      have hget : t[pre.length + (i + 1)]? = some post[i] := by
        rw [hsplit, List.getElem?_append_right (Nat.le_add_right _ _), Nat.add_sub_cancel_left,
          List.getElem?_cons_succ, List.getElem?_eq_getElem hi]
      have := hplaced _ _ hget a hac
      omega

theorem Placed.edit (hplaced : Placed hash t) {f : List α → List α}
    (hf : ∀ a ∈ f (t.chain h), hash a % t.length = h % t.length) : Placed hash (t.edit h f) := by
  intro i c hc a ha
  rw [length_edit]
  rw [Buckets.edit, List.getElem?_modify] at hc
  obtain ⟨c', hc', rfl⟩ := Option.map_eq_some_iff.mp hc
  by_cases hi : h % t.length = i
  · rw [if_pos hi] at ha
    have hchain : t.chain h = c' := by rw [chain, List.getD_eq_getElem?_getD, hi, hc']; rfl
    rw [hf a (hchain ▸ ha), hi]
  · rw [if_neg hi] at ha
    exact hplaced i c' hc' a ha

theorem Placed.mem_chain (hplaced : Placed hash t) (ht : 0 < t.length) {a : α} (ha : a ∈ t.chain h) :
    hash a % t.length = h % t.length := by
  refine hplaced _ (t.chain h) ?_ a ha
  rw [chain, List.getD_eq_getElem _ _ (Nat.mod_lt h ht),
    List.getElem?_eq_getElem (Nat.mod_lt h ht)]

/-! ## One chain and the whole table -/

theorem nodes_push (ht : 0 < t.length) (a : α) : (t.push h a).nodes.Perm (a :: t.nodes) := by
  obtain ⟨pre, post, hsplit, -, hedit⟩ := exists_split ht h
  have hnodes : t.nodes = pre.flatten ++ (t.chain h ++ post.flatten) := by
    conv_lhs => rw [hsplit]
    simp [nodes]
  rw [push, nodes, hedit, hnodes]
  simp only [List.flatten_append, List.flatten_cons, List.cons_append]
  exact List.perm_middle

theorem Placed.push (hplaced : Placed hash t) (ht : 0 < t.length) {a : α} (ha : hash a = h) :
    Placed hash (t.push h a) := by
  refine hplaced.edit fun b hb => ?_
  rcases List.mem_cons.mp hb with rfl | hb
  · rw [ha]
  · exact hplaced.mem_chain ht hb

section Select

variable {p : α → Bool} (hplaced : Placed hash t) (ht : 0 < t.length)
  (hp : ∀ a ∈ t.nodes, p a = true → hash a = h)
include hplaced ht hp

/-- A search of one chain finds what a search of the whole table would. -/
theorem find?_chain : (t.chain h).find? p = t.nodes.find? p := by
  obtain ⟨u, v, hnodes, -, hout⟩ := hplaced.split ht h
  have hu : u.find? p = none := by
    refine List.find?_eq_none.mpr fun a ha hpa => hout a (Or.inl ha) ?_
    rw [hp a (by simp [hnodes, ha]) hpa]
  have hv : v.find? p = none := by
    refine List.find?_eq_none.mpr fun a ha hpa => hout a (Or.inr ha) ?_
    rw [hp a (by simp [hnodes, ha]) hpa]
  simp [hnodes, List.find?_append, hu, hv]

/-- Unlinking from one chain unlinks from the whole table. -/
theorem nodes_eraseP : (t.edit h (List.eraseP p)).nodes = t.nodes.eraseP p := by
  obtain ⟨u, v, hnodes, hedit, hout⟩ := hplaced.split ht h
  have hu : ∀ a ∈ u, ¬ p a = true := by
    intro a ha hpa
    refine hout a (Or.inl ha) ?_
    rw [hp a (by simp [hnodes, ha]) hpa]
  have hv : ∀ a ∈ v, ¬ p a = true := by
    intro a ha hpa
    refine hout a (Or.inr ha) ?_
    rw [hp a (by simp [hnodes, ha]) hpa]
  rw [hedit, hnodes, List.append_assoc, List.append_assoc, List.eraseP_append_right _ hu,
    List.eraseP_append]
  split
  · rfl
  · rename_i hany
    rw [List.eraseP_of_forall_not hv, List.eraseP_of_forall_not]
    exact fun a ha hpa => hany (List.any_eq_true.mpr ⟨a, ha, hpa⟩)

end Select

theorem Placed.eraseP (hplaced : Placed hash t) (ht : 0 < t.length) (p : α → Bool) :
    Placed hash (t.edit h (List.eraseP p)) :=
  hplaced.edit fun _ ha => hplaced.mem_chain ht (List.mem_of_mem_eraseP ha)

/-! ## Rehashing -/

/-- Moves nodes one by one into a table. -/
def refill (hash : α → Nat) (t : Buckets α) (l : List α) : Buckets α :=
  l.foldl (fun t a => t.push (hash a) a) t

@[simp] theorem length_refill (hash : α → Nat) (l : List α) (t : Buckets α) :
    (refill hash t l).length = t.length := by
  induction l generalizing t with
  | nil => rfl
  | cons a l ih => exact (ih _).trans (length_push ..)

/-- Moving nodes loses none and doubles none. -/
theorem nodes_refill (ht : 0 < t.length) (l : List α) :
    (refill hash t l).nodes.Perm (l ++ t.nodes) := by
  induction l generalizing t with
  | nil => exact List.Perm.refl _
  | cons a l ih =>
      have hrest := ih (t := t.push (hash a) a) (by rwa [length_push])
      refine hrest.trans ?_
      exact ((nodes_push ht a).append_left l).trans List.perm_middle

theorem Placed.refill (hplaced : Placed hash t) (ht : 0 < t.length) (l : List α) :
    Placed hash (refill hash t l) := by
  induction l generalizing t with
  | nil => exact hplaced
  | cons a l ih => exact ih (hplaced.push ht rfl) (by rwa [length_push])

/-! ## Loops driven by a count -/

/-- Goes on to the next node; `none` means past the end of the array. -/
def skip : List α → Buckets α → Option (α × List α × Buckets α)
  | a :: c, rest => some (a, c, rest)
  | [], [] => none
  | [], c :: rest => skip c rest

/-- The nodes a loop visits that was told to visit `n`, from the chain `c` on. -/
def walk : Nat → List α → Buckets α → Option (List α)
  | 0, _, _ => some []
  | n + 1, c, rest => (skip c rest).bind fun (a, c, rest) => (walk n c rest).map (a :: ·)

theorem skip_eq (c : List α) (rest : Buckets α) :
    (∃ a c' rest', skip c rest = some (a, c', rest') ∧
      c ++ rest.nodes = a :: (c' ++ nodes rest')) ∨
    (skip c rest = none ∧ c ++ rest.nodes = []) := by
  induction rest generalizing c with
  | nil =>
      cases c with
      | nil => exact Or.inr ⟨rfl, rfl⟩
      | cons a c => exact Or.inl ⟨a, c, [], rfl, rfl⟩
  | cons d rest ih =>
      cases c with
      | nil => simpa [skip, nodes] using ih d
      | cons a c => exact Or.inl ⟨a, c, d :: rest, rfl, rfl⟩

/-- A loop that is told the number of nodes visits each node once, and ends
    inside the array. -/
theorem walk_length (n : Nat) (c : List α) (rest : Buckets α) (hn : n = (c ++ rest.nodes).length) :
    walk n c rest = some (c ++ rest.nodes) := by
  induction n generalizing c rest with
  | zero => rw [List.eq_nil_of_length_eq_zero hn.symm, walk]
  | succ n ih =>
      rcases skip_eq c rest with ⟨a, c', rest', hskip, heq⟩ | ⟨-, heq⟩
      · have hlen : n = (c' ++ nodes rest').length := by
          rw [heq, List.length_cons] at hn
          omega
        simp [walk, hskip, ih c' rest' hlen, heq]
      · rw [heq] at hn
        exact absurd hn (Nat.succ_ne_zero n)

/-! ## Iteration -/

/-- The first node from a bucket on. -/
def scan : Buckets α → Option α
  | [] => none
  | [] :: rest => scan rest
  | (a :: _) :: _ => some a

theorem scan_eq (t : Buckets α) : scan t = t.nodes.head? := by
  induction t with
  | nil => rfl
  | cons c rest ih =>
      cases c with
      | nil => simpa [scan, nodes] using ih
      | cons a c => rfl

/-- The chain of the first bucket that is not empty. -/
def firstChain : Buckets α → List α
  | [] => []
  | [] :: rest => firstChain rest
  | (a :: c) :: _ => a :: c

/-- The node after the head `a` of a chain: the next one of the chain, or else
    the first one of the buckets after it. -/
def next (hash : α → Nat) (t : Buckets α) (a : α) : List α → Option α
  | b :: _ => some b
  | [] => scan (t.drop (hash a % t.length + 1))

/-- What comes after a node is the rest of its chain and then the buckets after
    its own. -/
theorem next_split {pre post : Buckets α} {r s : List α} {a : α}
    (hplaced : Placed hash (pre ++ (r ++ a :: s) :: post)) :
    next hash (pre ++ (r ++ a :: s) :: post) a s = (s ++ nodes post).head? := by
  have hmod := hplaced pre.length (r ++ a :: s) (by simp) a (by simp)
  cases s with
  | nil =>
      rw [next, hmod, scan_eq, List.nil_append]
      simp
  | cons b s => rfl

/-- The first chain begins with the first node. -/
theorem firstChain_next {a : α} {v : List α} (hplaced : Placed hash t) (hnodes : t.nodes = a :: v) :
    ∃ s, firstChain t = a :: s ∧ next hash t a s = v.head? := by
  have hsplit : ∀ t : Buckets α, t.nodes = a :: v → ∃ pre s post, t = pre ++ (a :: s) :: post ∧
      firstChain t = a :: s ∧ v = s ++ nodes post := by
    intro t ht
    induction t with
    | nil => simp [nodes] at ht
    | cons c rest ih =>
        cases c with
        | nil =>
            obtain ⟨pre, s, post, rfl, hfirst, hv⟩ := ih (by simpa [nodes] using ht)
            exact ⟨[] :: pre, s, post, rfl, hfirst, hv⟩
        | cons b s =>
            simp only [nodes, List.flatten_cons, List.cons_append, List.cons.injEq] at ht
            obtain ⟨rfl, rfl⟩ := ht
            exact ⟨[], s, rest, rfl, rfl, rfl⟩
  obtain ⟨pre, s, post, rfl, hfirst, rfl⟩ := hsplit t hnodes
  exact ⟨s, hfirst, next_split (r := []) hplaced⟩

section Deref

variable {ι : Type*} [DecidableEq ι] (ident : α → ι)

/-- The chain from the node `i` on. -/
def deref (t : Buckets α) (i : ι) : List α :=
  firstChain (t.map fun c => c.dropWhile fun a => ident a ≠ i)

variable {ident}

theorem dropWhile_ident {i : ι} {a : α} {u v : List α} (hu : ∀ b ∈ u, ident b ≠ i)
    (ha : ident a = i) : (u ++ a :: v).dropWhile (fun b => ident b ≠ i) = a :: v := by
  rw [List.dropWhile_append_of_pos (by simpa using hu)]
  simp [ha]

omit [DecidableEq ι] in
theorem ident_ne_of_nodup {a : α} {u v : List α} (hids : ((u ++ a :: v).map ident).Nodup) :
    ∀ b ∈ u, ident b ≠ ident a := by
  intro b hb heq
  rw [List.map_append, List.map_cons, List.nodup_append] at hids
  exact hids.2.2 (ident b) (List.mem_map_of_mem hb) (ident a) (by simp) heq

/-- A node is found in its bucket alone. -/
theorem deref_split {i : ι} {pre post : Buckets α} {a : α} {r s : List α}
    (hother : ∀ b ∈ nodes pre ++ r, ident b ≠ i) (ha : ident a = i) :
    deref ident (pre ++ (r ++ a :: s) :: post) i = a :: s := by
  induction pre with
  | nil =>
      rw [deref, List.nil_append, List.map_cons,
        dropWhile_ident (fun b hb => hother b (List.mem_append_right _ hb)) ha]
      rfl
  | cons c pre ih =>
      have hnil : c.dropWhile (fun b => ident b ≠ i) = [] := by
        refine List.dropWhile_eq_nil_iff.mpr fun b hb => ?_
        simpa using hother b (by simp [nodes, hb])
      have hrest := ih fun b hb => hother b (by
        rcases List.mem_append.mp hb with hb | hb
        · simp only [nodes, List.flatten_cons, List.append_assoc]
          exact List.mem_append_right c (List.mem_append_left r hb)
        · exact List.mem_append_right _ hb)
      rw [deref, List.cons_append, List.map_cons, hnil]
      exact hrest

/-- From a node an iterator goes to the one after it in `nodes`. -/
theorem deref_next {a : α} {u v : List α} (hplaced : Placed hash t)
    (hids : (t.nodes.map ident).Nodup) (hnodes : t.nodes = u ++ a :: v) :
    ∃ s, deref ident t (ident a) = a :: s ∧ next hash t a s = v.head? := by
  obtain ⟨c, hc, hac⟩ := List.mem_flatten.mp (show a ∈ t.flatten by
    rw [← nodes, hnodes]
    simp)
  obtain ⟨pre, post, rfl⟩ := List.append_of_mem hc
  obtain ⟨r, s, rfl⟩ := List.append_of_mem hac
  have hnodes' : nodes (pre ++ (r ++ a :: s) :: post) =
      (nodes pre ++ r) ++ a :: (s ++ nodes post) := by
    simp [nodes]
  have hother := ident_ne_of_nodup (hnodes' ▸ hids)
  -- no other node has the identity of `a`, so both splittings are the same
  have hv : v = s ++ nodes post := by
    have hdrop := dropWhile_ident (v := v) (ident_ne_of_nodup (hnodes ▸ hids)) rfl
    rw [← hnodes, hnodes', dropWhile_ident hother rfl] at hdrop
    exact (List.cons.inj hdrop).2.symm
  exact ⟨s, deref_split hother rfl, hv ▸ next_split hplaced⟩

end Deref

end Buckets

end Curl1C.Lib
