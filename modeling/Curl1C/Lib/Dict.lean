/-
  Curl1C.Lib.Dict

  Finite maps whose keys are compared after folding (upper or lower case), and
  the lists that enumerate them.

  A `Dict` binds a folded key to the spelling it was first given and to a
  value.  `Lists fold l d` says that the list `l` of spellings and values has
  every binding of `d` exactly once; a table is shown to be a finite map by
  following such a list through its operations.
-/

import Mathlib.Data.Finmap

namespace Curl1C.Lib

/-- A finite map from folded keys to a spelling of the key and a value. -/
abbrev Dict (φ κ ν : Type*) := Finmap fun _ : φ => κ × ν

namespace Dict

variable {φ κ ν : Type*} [DecidableEq φ]

/-- The number of bindings. -/
def count (d : Dict φ κ ν) : Nat := d.keys.card

/-- Binds a key to a value.  A key that is bound already keeps its spelling. -/
def set (d : Dict φ κ ν) (f : φ) (k : κ) (v : ν) : Dict φ κ ν :=
  d.insert f (((d.lookup f).map Prod.fst).getD k, v)

omit [DecidableEq φ] in
/-- The list has every binding exactly once. -/
def Lists (fold : κ → φ) (l : List (κ × ν)) (d : Dict φ κ ν) : Prop :=
  d.entries = ↑(l.map fun e => (⟨fold e.1, e⟩ : (_ : φ) × κ × ν))

variable {fold : κ → φ} {l l' : List (κ × ν)} {d : Dict φ κ ν} {e : κ × ν}

theorem set_of_lookup {f : φ} {k : κ} {v : ν} {x : κ × ν} (h : d.lookup f = some x) :
    d.set f k v = d.insert f (x.1, v) := by
  rw [set, h]
  rfl

theorem set_of_notMem {f : φ} {k : κ} {v : ν} (h : f ∉ d) : d.set f k v = d.insert f (k, v) := by
  rw [set, Finmap.lookup_eq_none.mpr h]
  rfl

theorem erase_insert {f : φ} {x : κ × ν} (h : f ∉ d) : (d.insert f x).erase f = d := by
  refine Finmap.ext_lookup fun g => ?_
  by_cases hg : g = f
  · rw [hg, Finmap.lookup_erase, Finmap.lookup_eq_none.mpr h]
  · rw [Finmap.lookup_erase_ne hg, Finmap.lookup_insert_of_ne d hg]

theorem insert_erase {f : φ} {x : κ × ν} : (d.erase f).insert f x = d.insert f x := by
  refine Finmap.ext_lookup fun g => ?_
  by_cases hg : g = f
  · rw [hg, Finmap.lookup_insert, Finmap.lookup_insert]
  · rw [Finmap.lookup_insert_of_ne _ hg, Finmap.lookup_erase_ne hg, Finmap.lookup_insert_of_ne d hg]

theorem erase_of_notMem {f : φ} (h : f ∉ d) : d.erase f = d := by
  refine Finmap.ext_lookup fun g => ?_
  by_cases hg : g = f
  · rw [hg, Finmap.lookup_erase, Finmap.lookup_eq_none.mpr h]
  · rw [Finmap.lookup_erase_ne hg]

theorem count_insert_of_notMem {f : φ} {x : κ × ν} (h : f ∉ d) :
    count (d.insert f x) = d.count + 1 := by
  have hkeys : (d.insert f x).keys = insert f d.keys := by
    ext g
    simp [Finmap.mem_keys]
  rw [count, hkeys, Finset.card_insert_of_notMem (by rwa [Finmap.mem_keys]), count]

theorem count_insert_of_mem {f : φ} {x : κ × ν} (h : f ∈ d) :
    count (d.insert f x) = d.count := by
  have hkeys : (d.insert f x).keys = d.keys := by
    ext g
    simp only [Finmap.mem_keys, Finmap.mem_insert, or_iff_right_iff_imp]
    rintro rfl
    exact h
  rw [count, hkeys, count]

theorem count_set_of_notMem {f : φ} {k : κ} {v : ν} (h : f ∉ d) :
    count (d.set f k v) = d.count + 1 := by
  rw [set_of_notMem h, count_insert_of_notMem h]

theorem count_set_le (d : Dict φ κ ν) (f : φ) (k : κ) (v : ν) :
    count (d.set f k v) ≤ d.count + 1 := by
  by_cases h : f ∈ d
  · rw [set, count_insert_of_mem h]
    exact Nat.le_succ _
  · rw [count_set_of_notMem h]

/-- What a key is bound to after an assignment. -/
theorem map_snd_lookup_set (d : Dict φ κ ν) (f g : φ) (k : κ) (v : ν) :
    ((d.set f k v).lookup g).map Prod.snd =
      if g = f then some v else (d.lookup g).map Prod.snd := by
  by_cases h : g = f
  · rw [if_pos h, set, h, Finmap.lookup_insert]
    rfl
  · rw [if_neg h, set, Finmap.lookup_insert_of_ne d h]

/-- What a key is bound to after a removal. -/
theorem map_snd_lookup_erase (d : Dict φ κ ν) (f g : φ) :
    ((d.erase f).lookup g).map Prod.snd = if g = f then none else (d.lookup g).map Prod.snd := by
  by_cases h : g = f
  · rw [if_pos h, h, Finmap.lookup_erase]
    rfl
  · rw [if_neg h, Finmap.lookup_erase_ne h]

theorem count_erase_of_mem {f : φ} (h : f ∈ d) : count (d.erase f) = d.count - 1 := by
  rw [count, Finmap.keys_erase, Finset.card_erase_of_mem (Finmap.mem_keys.mpr h), count]

theorem count_erase_le (d : Dict φ κ ν) (f : φ) : count (d.erase f) ≤ d.count := by
  rw [count, Finmap.keys_erase]
  exact Finset.card_le_card (Finset.erase_subset f d.keys)

/-! ## Lists and their maps -/

omit [DecidableEq φ] in
theorem lists_nil : Lists fold ([] : List (κ × ν)) ∅ := rfl

omit [DecidableEq φ] in
theorem Lists.perm (h : Lists fold l d) (hperm : l.Perm l') : Lists fold l' d :=
  h.trans (Multiset.coe_eq_coe.mpr (hperm.map _))

omit [DecidableEq φ] in
/-- Only what the keys of the list fold to matters. -/
theorem Lists.congr_fold {fold' : κ → φ} (h : Lists fold l d)
    (hfold : ∀ e ∈ l, fold e.1 = fold' e.1) : Lists fold' l d := by
  rw [Lists, h, List.map_congr_left fun e he => by rw [hfold e he]]

omit [DecidableEq φ] in
/-- The bindings determine the list up to its order. -/
theorem Lists.perm_of_lists (h : Lists fold l d) (h' : Lists fold l' d) : l.Perm l' := by
  have hinj : Function.Injective fun e : κ × ν => (⟨fold e.1, e⟩ : (_ : φ) × κ × ν) := by
    intro e e' heq
    exact eq_of_heq (Sigma.mk.inj heq).2
  exact (List.map_perm_map_iff hinj).mp (Multiset.coe_eq_coe.mp (h.symm.trans h'))

omit [DecidableEq φ] in
theorem Lists.count_eq (h : Lists fold l d) : d.count = l.length := by
  have hcard : d.count = d.entries.card := Multiset.card_map ..
  rw [hcard, h, Multiset.coe_card, List.length_map]

omit [DecidableEq φ] in
/-- No two keys of the list fold to the same. -/
theorem Lists.nodup (h : Lists fold l d) : (l.map fun e => fold e.1).Nodup := by
  have hkeys : d.entries.keys.Nodup := d.nodupKeys.nodup_keys
  rw [h, Multiset.coe_keys, Multiset.coe_nodup] at hkeys
  simpa [List.keys, Function.comp_def] using hkeys

omit [DecidableEq φ] in
theorem exists_lists (hnodup : (l.map fun e => fold e.1).Nodup) : ∃ d, Lists fold l d := by
  have hkeys : (l.map fun e => (⟨fold e.1, e⟩ : (_ : φ) × κ × ν)).NodupKeys := by
    rw [List.NodupKeys]
    simpa [List.keys, Function.comp_def] using hnodup
  exact ⟨⟨_, Multiset.coe_nodupKeys.mpr hkeys⟩, rfl⟩

/-- A binding is found in the list. -/
theorem Lists.lookup_eq_some_iff (h : Lists fold l d) {f : φ} :
    d.lookup f = some e ↔ e ∈ l ∧ fold e.1 = f := by
  rw [Finmap.lookup_eq_some_iff, h, Multiset.mem_coe, List.mem_map]
  constructor
  · rintro ⟨e', he', heq⟩
    simp only [Sigma.mk.injEq, heq_eq_eq] at heq
    obtain ⟨rfl, rfl⟩ := heq
    exact ⟨he', rfl⟩
  · rintro ⟨he, rfl⟩
    exact ⟨e, he, rfl⟩

theorem Lists.mem_iff (h : Lists fold l d) {f : φ} : f ∈ d ↔ ∃ e ∈ l, fold e.1 = f := by
  rw [Finmap.mem_iff]
  exact exists_congr fun e => h.lookup_eq_some_iff

/-- Searching the list is looking up the key. -/
theorem Lists.find?_eq (h : Lists fold l d) (f : φ) :
    l.find? (fun e => decide (fold e.1 = f)) = d.lookup f := by
  cases hfind : l.find? fun e => decide (fold e.1 = f) with
  | some e =>
      have hfold : fold e.1 = f := by simpa using List.find?_some hfind
      exact (h.lookup_eq_some_iff.mpr ⟨List.mem_of_find?_eq_some hfind, hfold⟩).symm
  | none =>
      symm
      rw [Finmap.lookup_eq_none]
      intro hmem
      obtain ⟨e, he, hfold⟩ := h.mem_iff.mp hmem
      exact List.find?_eq_none.mp hfind e he (decide_eq_true hfold)

theorem Lists.cons (h : Lists fold l d) (hnew : fold e.1 ∉ d) :
    Lists fold (e :: l) (d.insert (fold e.1) e) := by
  rw [Lists, Finmap.entries_insert_of_notMem hnew, h]
  rfl

theorem Lists.tail (h : Lists fold (e :: l) d) : Lists fold l (d.erase (fold e.1)) := by
  have hnodup := h.nodup
  rw [List.map_cons, List.nodup_cons] at hnodup
  obtain ⟨d', hd'⟩ := exists_lists hnodup.2
  have hnew : fold e.1 ∉ d' := by
    intro hmem
    obtain ⟨e', he', heq⟩ := hd'.mem_iff.mp hmem
    exact hnodup.1 (List.mem_map.mpr ⟨e', he', heq⟩)
  have heq : d'.insert (fold e.1) e = d := Finmap.ext ((hd'.cons hnew).trans h.symm)
  rwa [← heq, erase_insert hnew]

/-- Giving the first key of the list another value. -/
theorem Lists.assign (h : Lists fold (e :: l) d) (v : ν) :
    Lists fold ((e.1, v) :: l) (d.insert (fold e.1) (e.1, v)) := by
  have hcons := h.tail.cons (e := (e.1, v)) Finmap.notMem_erase_self
  rwa [insert_erase] at hcons

end Dict

end Curl1C.Lib
