/-
  Curl1C.Dispatch.Find

  Name lookup of contextimpl.hpp: the number of a method or property from its
  name, and the name from the number.

  The declarations of a context form a chain of types that ends at `first_def`;
  the templates go through it from the last declaration to the first, and
  `M::val` is the number of declarations before `M`.  A chain is the list of
  the declarations in reverse order.

  `fndselector` picks one of four searches from the number of declarations.
  They use three comparison routines, and all but two copy the lowered query
  into a buffer of 512 bytes on the stack; `none` means that the query does
  not fit into it.

  Main result: `find_eq_index`.
-/

import Curl1C.Lib.Buckets
import Curl1C.Lib.Numbering
import Curl1C.Text
import Mathlib.Data.List.Induction

namespace Curl1C

open Lib

/-! ## Lower case -/

/-- The table `lotable`: lower case of a byte. -/
structure LoTable where
  lower : Byte → Byte
  idem : ∀ c, lower (lower c) = lower c
  zero_iff : ∀ c, lower c = 0 ↔ c = 0

/-- A text with every byte in lower case. -/
def LoTable.fold (lot : LoTable) (s : CStr) : List Byte := s.bytes.map lot.lower

/-- The names of a method or property. -/
structure Decl where
  engName : CStr
  rusName : CStr
deriving DecidableEq

/-- Both names of a declaration. -/
def Decl.names (d : Decl) : List CStr := [d.engName, d.rusName]

/-- One of the names of the declaration is `q`, ignoring case. -/
def Decl.Named (lot : LoTable) (d : Decl) (q : CStr) : Prop :=
  lot.fold d.rusName = lot.fold q ∨ lot.fold d.engName = lot.fold q

instance (lot : LoTable) (d : Decl) (q : CStr) : Decidable (d.Named lot q) :=
  inferInstanceAs (Decidable (_ ∨ _))

/-- The names of different declarations do not coincide, ignoring case. -/
def DistinctNames (lot : LoTable) (decls : List Decl) : Prop :=
  decls.Pairwise fun d e => ∀ a ∈ d.names, ∀ b ∈ e.names, lot.fold a ≠ lot.fold b

namespace StrFind

variable (lot : LoTable)

/-! ## Comparison -/

/-- Copies a string in lower case; the result is the text in the buffer. -/
def makelower : List Byte → List Byte
  | [] => []
  | c :: ptr => if lot.lower c = 0 then [] else lot.lower c :: makelower ptr

/-- The comparison loop: goes on while the bytes agree after `f` and `g`, and
    then compares the bytes it stopped at. -/
def compare (f g : Byte → Byte) : List Byte → List Byte → Bool
  | [], ptr2 => decide (0 = symbol ptr2)
  | c :: ptr1, ptr2 =>
      if c ≠ 0 ∧ f c = g (symbol ptr2) then compare f g ptr1 ptr2.tail
      else decide (c = symbol ptr2)

/-- Compares any two strings. -/
def compareUU (ptr1 ptr2 : List Byte) : Bool := compare lot.lower lot.lower ptr1 ptr2

/-- Compares a string in lower case with any string. -/
def compareLU (ptr1 ptr2 : List Byte) : Bool := compare id lot.lower ptr1 ptr2

/-- Compares two strings in lower case. -/
def compareLL (ptr1 ptr2 : List Byte) : Bool := compare id id ptr1 ptr2

/-- `BYTE buf[512]` on the stack, filled with a text and its NUL. -/
def stackBuf (text : List Byte) : Option (List Byte) :=
  if text.length < 512 then some text else none

/-! ## The searches -/

/-- `nofnd_pol::Find`. -/
def nofndFind (_name : Option CStr) : Option Int := some (-1)

/-- `onefnd_pol::Find`. -/
def onefndFind (d : Decl) (name : Option CStr) : Option Int :=
  match name with
  | none => some (-1)
  | some name =>
      if compareUU lot name.bytes d.rusName.bytes || compareUU lot name.bytes d.engName.bytes
      then some 0 else some (-1)

/-- `simplefnd_pol::find`, on the chain from one declaration back. -/
def simplefndFrom (buf : List Byte) : List Decl → Int
  | [] => -1
  | d :: prev =>
      if compareLU lot buf d.rusName.bytes || compareLU lot buf d.engName.bytes
      then prev.length else simplefndFrom buf prev

/-- `simplefnd_pol::Find`. -/
def simplefndFind (chain : List Decl) (name : Option CStr) : Option Int :=
  match name with
  | none => some (-1)
  | some name => (stackBuf (makelower lot name.bytes)).map fun buf => simplefndFrom lot buf chain

/-- `hs_find_nearest_bigger`: counts up to the next size of the list. -/
def nearestBigger (i : Nat) : Nat := ([13, 19, 29, 37, 47, 53].find? (i ≤ ·)).getD 0

/-- `hashsizes`. -/
def hashsizes (i : Nat) : Nat := if i < 53 then nearestBigger i else (i + i / 2) ||| 1

/-- A pair of a name and a number in the hash table. -/
structure Assoc where
  hash : BitVec 32
  strKey : List Byte
  pos : Int
deriving DecidableEq

/-- `GetHash`, from the value `hash` of the bytes before: the hash value and
    the lowered text it writes to the buffer. -/
def getHash (hash : BitVec 32) : List Byte → BitVec 32 × List Byte
  | [] => (hash, [])
  | c :: key =>
      let symb := lot.lower c
      if symb = 0 then (hash, [])
      else
        let (hash, buf) := getHash ((hash <<< 1) ^^^ symb.setWidth 32) key
        (hash, symb :: buf)

/-- The association that `Insert` makes for a name. -/
def newAssoc (name : CStr) (pos : Int) : Assoc :=
  let (hash, strKey) := getHash lot 0 name.bytes
  ⟨hash, strKey, pos⟩

/-- `hashfnd_pol::Insert`. -/
def insert (t : Buckets Assoc) (name : CStr) (pos : Int) : Buckets Assoc :=
  let a := newAssoc lot name pos
  t.push a.hash.toNat a

/-- `hashfnd_pol::AddNames`. -/
def addNames (t : Buckets Assoc) : List Decl → Buckets Assoc
  | [] => t
  | d :: prev =>
      addNames (insert lot (insert lot t d.rusName prev.length) d.engName prev.length) prev

/-- `hashfnd_pol::OnInitFirstObject`: the table of a chain. -/
def onInitFirstObject (chain : List Decl) : Buckets Assoc :=
  addNames lot (Buckets.empty (hashsizes (chain.length * 2))) chain

/-- `hashfnd_pol::find`. -/
def hashfndFind (t : Buckets Assoc) (name : Option CStr) : Option Int :=
  match name with
  | none => some (-1)
  | some name =>
      let (hash, text) := getHash lot 0 name.bytes
      (stackBuf text).map fun buf =>
        match (t.chain hash.toNat).find? fun a => a.hash = hash && compareLL a.strKey buf with
        | some a => a.pos
        | none => -1

end StrFind

open StrFind

/-- The search policies. -/
inductive FndPol where
  | nofnd
  | onefnd
  | simplefnd
  | hashfnd

/-- `fndselector`, from the number of declarations. -/
def fndselector (count : Nat) : FndPol :=
  if count = 0 then .nofnd
  else if count = 1 then .onefnd
  else if count < 4 then .simplefnd
  else .hashfnd

/-- `fndselector<T>::type::Find`, after the first object was initialised. -/
def findName (lot : LoTable) (decls : List Decl) (name : Option CStr) : Option Int :=
  match fndselector decls.length, decls.reverse with
  | .onefnd, d :: _ => onefndFind lot d name
  | .simplefnd, chain => simplefndFind lot chain name
  | .hashfnd, chain => hashfndFind lot (onInitFirstObject lot chain) name
  | _, _ => nofndFind name

/-- `getname::finder::fill`: the array of names. -/
def fillNames : List Decl → List (CStr × CStr)
  | [] => []
  | d :: prev => fillNames prev ++ [(d.engName, d.rusName)]

/-- `getname::finder::GetName`. -/
def getName (decls : List Decl) (dwMethod dwLang : Nat) : Option CStr :=
  if dwMethod < decls.length ∧ dwLang < 2 then
    (fillNames decls.reverse)[dwMethod]?.map fun names => if dwLang = 0 then names.1 else names.2
  else none

/-- The number of a declaration in a chain is the number of those before it. -/
theorem getElem?_reverse_cons {α : Type*} {d e : α} {prev : List α} {i : Nat} :
    (d :: prev).reverse[i]? = some e ↔
      prev.reverse[i]? = some e ∨ (i = prev.length ∧ e = d) := by
  rw [List.reverse_cons, getElem?_snoc, List.length_reverse]

/-! ## What the comparisons decide -/

theorem LoTable.zero_notMem_fold (lot : LoTable) (s : CStr) : (0 : Byte) ∉ lot.fold s := by
  intro hmem
  obtain ⟨c, hc, hzero⟩ := List.mem_map.mp hmem
  exact s.nulFree ((lot.zero_iff c).mp hzero ▸ hc)

theorem LoTable.lower_of_mem_fold (lot : LoTable) {s : CStr} {c : Byte} (hc : c ∈ lot.fold s) :
    lot.lower c = c := by
  obtain ⟨b, -, rfl⟩ := List.mem_map.mp hc
  exact lot.idem b

namespace StrFind

variable {lot : LoTable}

/-- The loop compares the texts after `f` and `g`, if `g` takes the NUL for
    nothing else and a byte that stops it cannot be the same in both texts. -/
theorem compare_iff {f g : Byte → Byte} {p₁ p₂ : List Byte} (h₁ : (0 : Byte) ∉ p₁)
    (h₂ : (0 : Byte) ∉ p₂) (hstop : ∀ c ∈ p₁, f c ≠ g 0) (hsame : ∀ c ∈ p₁, f c = g c) :
    compare f g p₁ p₂ = true ↔ p₁.map f = p₂.map g := by
  induction p₁ generalizing p₂ with
  | nil =>
      cases p₂ with
      | nil => exact iff_of_true rfl rfl
      | cons d p₂ =>
          have hd : (0 : Byte) ≠ d := fun heq => h₂ (heq ▸ List.mem_cons_self)
          exact iff_of_false (by rw [compare]; exact fun h => hd (of_decide_eq_true h)) (by simp)
  | cons c p₁ ih =>
      have hc : c ≠ 0 := fun heq => h₁ (heq ▸ List.mem_cons_self)
      cases p₂ with
      | nil =>
          -- the NUL of the second text stops the loop at `c`
          have hcond : ¬ (c ≠ 0 ∧ f c = g (symbol [])) := fun h => hstop c List.mem_cons_self h.2
          rw [compare, if_neg hcond]
          exact iff_of_false (fun h => hc (of_decide_eq_true h)) (by simp)
      | cons d p₂ =>
          have hrest := ih (List.not_mem_of_not_mem_cons h₁) (List.not_mem_of_not_mem_cons h₂)
            (fun b hb => hstop b (List.mem_cons_of_mem c hb))
            (fun b hb => hsame b (List.mem_cons_of_mem c hb))
          rw [compare, List.map_cons, List.map_cons, List.cons_eq_cons]
          by_cases hcd : f c = g d
          · rw [if_pos ⟨hc, hcd⟩, List.tail_cons, hrest, and_iff_right hcd]
          · have hne : c ≠ d := fun heq => hcd (heq ▸ hsame c List.mem_cons_self)
            rw [if_neg fun h => hcd h.2]
            exact iff_of_false (fun h => hne (of_decide_eq_true h)) (fun h => hcd h.1)

theorem compareUU_iff (s t : CStr) :
    compareUU lot s.bytes t.bytes = true ↔ lot.fold s = lot.fold t := by
  refine compare_iff s.nulFree t.nulFree (fun c hc heq => ?_) (fun c _ => rfl)
  have hzero : lot.lower c = 0 := heq.trans ((lot.zero_iff 0).mpr rfl)
  exact s.nulFree ((lot.zero_iff c).mp hzero ▸ hc)

theorem compareLU_iff (s t : CStr) :
    compareLU lot (lot.fold s) t.bytes = true ↔ lot.fold s = lot.fold t := by
  rw [compareLU, compare_iff (lot.zero_notMem_fold s) t.nulFree, List.map_id]
  · rfl
  · intro c hc heq
    have hzero : c = 0 := heq.trans ((lot.zero_iff 0).mpr rfl)
    exact lot.zero_notMem_fold s (hzero ▸ hc)
  · intro c hc
    exact (lot.lower_of_mem_fold hc).symm

theorem compareLL_iff (s t : CStr) :
    compareLL (lot.fold s) (lot.fold t) = true ↔ lot.fold s = lot.fold t := by
  rw [compareLL, compare_iff (lot.zero_notMem_fold s) (lot.zero_notMem_fold t), List.map_id,
    List.map_id]
  · intro c hc heq
    have hzero : c = 0 := heq
    exact lot.zero_notMem_fold s (hzero ▸ hc)
  · exact fun c _ => rfl

theorem makelower_bytes (s : CStr) : makelower lot s.bytes = lot.fold s := by
  have hgo : ∀ p : List Byte, (0 : Byte) ∉ p → makelower lot p = p.map lot.lower := by
    intro p hp
    induction p with
    | nil => rfl
    | cons c p ih =>
        have hc : lot.lower c ≠ 0 := fun hzero =>
          hp ((lot.zero_iff c).mp hzero ▸ List.mem_cons_self)
        rw [makelower, if_neg hc, ih (List.not_mem_of_not_mem_cons hp), List.map_cons]
  exact hgo s.bytes s.nulFree

/-- The buffer holds the lowered text, whatever the hash value. -/
theorem getHash_snd (s : CStr) : (getHash lot 0 s.bytes).2 = lot.fold s := by
  have hgo : ∀ (p : List Byte) (h : BitVec 32), (0 : Byte) ∉ p →
      (getHash lot h p).2 = p.map lot.lower := by
    intro p
    induction p with
    | nil => exact fun _ _ => rfl
    | cons c p ih =>
        intro h hp
        have hc : lot.lower c ≠ 0 := fun hzero =>
          hp ((lot.zero_iff c).mp hzero ▸ List.mem_cons_self)
        simp only [getHash, if_neg hc, List.map_cons]
        rw [ih _ (List.not_mem_of_not_mem_cons hp)]
  exact hgo s.bytes 0 s.nulFree

/-- The hash value is a function of the lowered text. -/
theorem getHash_congr {s t : CStr} (hst : lot.fold s = lot.fold t) :
    getHash lot 0 s.bytes = getHash lot 0 t.bytes := by
  have hgo : ∀ (p q : List Byte) (h : BitVec 32), p.map lot.lower = q.map lot.lower →
      getHash lot h p = getHash lot h q := by
    intro p
    induction p with
    | nil =>
        intro q h hpq
        rw [List.map_eq_nil_iff.mp hpq.symm]
    | cons c p ih =>
        intro q h hpq
        cases q with
        | nil => simp at hpq
        | cons d q =>
            obtain ⟨hcd, hrest⟩ := List.cons.inj hpq
            simp only [getHash, hcd, ih q _ hrest]
  exact hgo s.bytes t.bytes 0 hst

/-! ## The searches -/

/-- What a search of a chain may answer: the number of a declaration with the
    name, or -1 if there is none. -/
def Answer (lot : LoTable) (decls : List Decl) (q : CStr) (r : Int) : Prop :=
  (∃ (i : Nat) (d : Decl), decls[i]? = some d ∧ d.Named lot q ∧ r = i) ∨ (r = -1 ∧ ∀ d ∈ decls, ¬ d.Named lot q)

theorem stackBuf_fold {q : CStr} (hq : q.length < 512) :
    stackBuf (lot.fold q) = some (lot.fold q) := by
  have hlen : (lot.fold q).length < 512 := by rwa [LoTable.fold, List.length_map]
  rw [stackBuf, if_pos hlen]

theorem onefndFind_answer (d : Decl) (q : CStr) :
    ∃ r, onefndFind lot d (some q) = some r ∧ Answer lot [d] q r := by
  have htest : (compareUU lot q.bytes d.rusName.bytes || compareUU lot q.bytes d.engName.bytes) = true
      ↔ d.Named lot q := by
    rw [Bool.or_eq_true, compareUU_iff, compareUU_iff, Decl.Named, eq_comm,
      eq_comm (a := lot.fold q)]
  by_cases hnamed : d.Named lot q
  · exact ⟨0, if_pos (htest.mpr hnamed), Or.inl ⟨0, d, rfl, hnamed, rfl⟩⟩
  · exact ⟨-1, if_neg fun h => hnamed (htest.mp h), Or.inr ⟨rfl, by simpa using hnamed⟩⟩

theorem simplefndFrom_answer (q : CStr) (chain : List Decl) :
    Answer lot chain.reverse q (simplefndFrom lot (lot.fold q) chain) := by
  induction chain with
  | nil => exact Or.inr ⟨rfl, by simp⟩
  | cons d prev ih =>
      have htest : (compareLU lot (lot.fold q) d.rusName.bytes ||
          compareLU lot (lot.fold q) d.engName.bytes) = true ↔ d.Named lot q := by
        rw [Bool.or_eq_true, compareLU_iff, compareLU_iff, Decl.Named, eq_comm,
          eq_comm (a := lot.fold q)]
      rw [simplefndFrom]
      by_cases hnamed : d.Named lot q
      · rw [if_pos (htest.mpr hnamed)]
        exact Or.inl ⟨prev.length, d, getElem?_reverse_cons.mpr (Or.inr ⟨rfl, rfl⟩), hnamed, rfl⟩
      · rw [if_neg fun h => hnamed (htest.mp h)]
        rcases ih with ⟨i, e, hget, he, hr⟩ | ⟨hr, hnone⟩
        · exact Or.inl ⟨i, e, getElem?_reverse_cons.mpr (Or.inl hget), he, hr⟩
        · refine Or.inr ⟨hr, fun e he => ?_⟩
          rcases List.mem_cons.mp (List.mem_reverse.mp he) with rfl | he
          · exact hnamed
          · exact hnone e (List.mem_reverse.mpr he)

theorem simplefndFind_answer (chain : List Decl) {q : CStr} (hq : q.length < 512) :
    ∃ r, simplefndFind lot chain (some q) = some r ∧ Answer lot chain.reverse q r := by
  refine ⟨_, ?_, simplefndFrom_answer q chain⟩
  simp only [simplefndFind, makelower_bytes, stackBuf_fold hq, Option.map_some]

/-! ## The hash table -/

theorem newAssoc_strKey (name : CStr) (pos : Int) :
    (newAssoc lot name pos).strKey = lot.fold name := getHash_snd name

theorem newAssoc_hash (name : CStr) (pos : Int) :
    (newAssoc lot name pos).hash = (getHash lot 0 name.bytes).1 := rfl

theorem hashsizes_pos (i : Nat) : 0 < hashsizes i := by
  rw [hashsizes]
  split
  · rename_i hi
    have hsome : ([13, 19, 29, 37, 47, 53].find? (i ≤ ·)).isSome = true :=
      List.find?_isSome.mpr ⟨53, by simp, by simpa using hi.le⟩
    obtain ⟨n, hn⟩ := Option.isSome_iff_exists.mp hsome
    have hmem := List.mem_of_find?_eq_some hn
    rw [nearestBigger, hn]
    revert hmem
    simp only [List.mem_cons, List.not_mem_nil, or_false, Option.getD_some]
    omega
  · exact Nat.lt_of_lt_of_le Nat.one_pos Nat.right_le_or

/-- Every association is in the bucket of its hash value. -/
abbrev Placed (t : Buckets Assoc) : Prop := Buckets.Placed (fun a : Assoc => a.hash.toNat) t

@[simp] theorem length_insert (t : Buckets Assoc) (name : CStr) (pos : Int) :
    (insert lot t name pos).length = t.length := Buckets.length_push ..

theorem mem_insert {t : Buckets Assoc} (ht : 0 < t.length) {name : CStr} {pos : Int} {a : Assoc} :
    a ∈ (insert lot t name pos).nodes ↔ a = newAssoc lot name pos ∨ a ∈ t.nodes := by
  rw [insert, (Buckets.nodes_push ht _).mem_iff, List.mem_cons]

theorem placed_insert {t : Buckets Assoc} (hplaced : Placed t) (ht : 0 < t.length) (name : CStr)
    (pos : Int) : Placed (insert lot t name pos) := hplaced.push ht rfl

/-- The table holds the names of the declarations besides what it held before,
    each in its bucket. -/
structure Holds (lot : LoTable) (chain : List Decl) (t t' : Buckets Assoc) : Prop where
  size : t'.length = t.length
  placed : Placed t'
  mem : ∀ a, a ∈ t'.nodes ↔ a ∈ t.nodes ∨ ∃ (i : Nat) (d : Decl),
    chain.reverse[i]? = some d ∧ (a = newAssoc lot d.rusName i ∨ a = newAssoc lot d.engName i)

theorem addNames_holds (chain : List Decl) (t : Buckets Assoc) (ht : 0 < t.length)
    (hplaced : Placed t) : Holds lot chain t (addNames lot t chain) := by
  induction chain generalizing t with
  | nil => exact ⟨rfl, hplaced, by simp [addNames]⟩
  | cons d prev ih =>
      -- the chain has the newest declaration in front, so the number of `d` is
      -- that of the declarations behind it
      have hrus : Placed (insert lot t d.rusName prev.length) := placed_insert hplaced ht _ _
      have hpos : 0 < (insert lot t d.rusName prev.length).length := by rwa [length_insert]
      have heng : Placed (insert lot (insert lot t d.rusName prev.length) d.engName prev.length) :=
        placed_insert hrus hpos _ _
      obtain ⟨hsize, hplaced', hmem⟩ := ih _ (by rwa [length_insert]) heng
      refine ⟨hsize.trans (by rw [length_insert, length_insert]), hplaced', fun a => ?_⟩
      rw [addNames, hmem, mem_insert hpos, mem_insert ht]
      constructor
      · rintro ((rfl | rfl | ha) | ⟨i, e, hget, ha⟩)
        · exact Or.inr ⟨prev.length, d, getElem?_reverse_cons.mpr (Or.inr ⟨rfl, rfl⟩), Or.inr rfl⟩
        · exact Or.inr ⟨prev.length, d, getElem?_reverse_cons.mpr (Or.inr ⟨rfl, rfl⟩), Or.inl rfl⟩
        · exact Or.inl ha
        · exact Or.inr ⟨i, e, getElem?_reverse_cons.mpr (Or.inl hget), ha⟩
      · rintro (ha | ⟨i, e, hget, ha⟩)
        · exact Or.inl (Or.inr (Or.inr ha))
        · rcases getElem?_reverse_cons.mp hget with hget | ⟨rfl, rfl⟩
          · exact Or.inr ⟨i, e, hget, ha⟩
          · rcases ha with ha | ha
            · exact Or.inl (Or.inr (Or.inl ha))
            · exact Or.inl (Or.inl ha)

theorem onInitFirstObject_holds (chain : List Decl) :
    Holds lot chain (Buckets.empty (hashsizes (chain.length * 2))) (onInitFirstObject lot chain) :=
  addNames_holds chain _ (by simpa using hashsizes_pos _) (Buckets.placed_empty _)

/-- An association matches a query exactly when its name does. -/
theorem newAssoc_matches (name q : CStr) (pos : Int) :
    ((newAssoc lot name pos).hash = (getHash lot 0 q.bytes).1 &&
      compareLL (newAssoc lot name pos).strKey (lot.fold q)) = true ↔
    lot.fold name = lot.fold q := by
  rw [newAssoc_strKey, newAssoc_hash, Bool.and_eq_true, compareLL_iff, decide_eq_true_iff]
  constructor
  · exact fun h => h.2
  · exact fun h => ⟨by rw [getHash_congr h], h⟩

theorem hashfndFind_answer (chain : List Decl) {q : CStr} (hq : q.length < 512) :
    ∃ r, hashfndFind lot (onInitFirstObject lot chain) (some q) = some r ∧
      Answer lot chain.reverse q r := by
  obtain ⟨hsize, hplaced, hmem⟩ := @onInitFirstObject_holds lot chain
  have hpos : 0 < (onInitFirstObject lot chain).length := by
    rw [hsize, Buckets.length_empty]
    exact hashsizes_pos _
  let p : Assoc → Bool := fun a =>
    a.hash = (getHash lot 0 q.bytes).1 && compareLL a.strKey (lot.fold q)
  -- a match has the hash of the query, so its chain holds every match
  have hfind := Buckets.find?_chain (h := (getHash lot 0 q.bytes).1.toNat) (p := p) hplaced hpos
    (fun a _ hp => by
      have hhash := ((Bool.and_eq_true _ _).mp hp).1
      rw [decide_eq_true_iff.mp hhash])
  have heq : hashfndFind lot (onInitFirstObject lot chain) (some q) = some
      (match (onInitFirstObject lot chain).nodes.find? p with
        | some a => a.pos
        | none => -1) := by
    simp only [hashfndFind, getHash_snd, stackBuf_fold hq, Option.map_some, ← hfind, p]
  refine ⟨_, heq, ?_⟩
  cases hcase : (onInitFirstObject lot chain).nodes.find? p with
  | some a =>
      have hpa := List.find?_some hcase
      rcases (hmem a).mp (List.mem_of_find?_eq_some hcase) with ha | ⟨i, d, hget, rfl | rfl⟩
      · simp at ha
      · exact Or.inl ⟨i, d, hget, Or.inl ((newAssoc_matches _ _ _).mp hpa), rfl⟩
      · exact Or.inl ⟨i, d, hget, Or.inr ((newAssoc_matches _ _ _).mp hpa), rfl⟩
  | none =>
      refine Or.inr ⟨rfl, fun d hd hnamed => ?_⟩
      obtain ⟨i, hget⟩ := List.getElem?_of_mem hd
      have hnone := List.find?_eq_none.mp hcase
      rcases hnamed with hrus | heng
      · exact hnone _ ((hmem _).mpr (Or.inr ⟨i, d, hget, Or.inl rfl⟩))
          ((newAssoc_matches _ _ _).mpr hrus)
      · exact hnone _ ((hmem _).mpr (Or.inr ⟨i, d, hget, Or.inr rfl⟩))
          ((newAssoc_matches _ _ _).mpr heng)

end StrFind

/-! ## Whatever the policy -/

theorem findName_answer (lot : LoTable) (decls : List Decl) {q : CStr} (hq : q.length < 512) :
    ∃ r, findName lot decls (some q) = some r ∧ Answer lot decls q r := by
  rcases lt_or_ge decls.length 2 with hfew | hmany
  · match decls with
    | [] => exact ⟨-1, rfl, Or.inr ⟨rfl, by simp⟩⟩
    | [d] => exact onefndFind_answer d q
  · have hchain : decls.reverse.reverse = decls := List.reverse_reverse decls
    by_cases hsimple : decls.length < 4
    · have hpol : fndselector decls.length = .simplefnd := by
        rw [fndselector, if_neg (by omega), if_neg (by omega), if_pos hsimple]
      obtain ⟨r, hr, hanswer⟩ := @simplefndFind_answer lot decls.reverse q hq
      exact ⟨r, by simpa only [findName, hpol] using hr, hchain ▸ hanswer⟩
    · have hpol : fndselector decls.length = .hashfnd := by
        rw [fndselector, if_neg (by omega), if_neg (by omega), if_neg hsimple]
      obtain ⟨r, hr, hanswer⟩ := @hashfndFind_answer lot decls.reverse q hq
      exact ⟨r, by simpa only [findName, hpol] using hr, hchain ▸ hanswer⟩

theorem Decl.Named.exists_name {lot : LoTable} {d : Decl} {q : CStr} (hnamed : d.Named lot q) :
    ∃ a ∈ d.names, lot.fold a = lot.fold q := by
  rcases hnamed with hrus | heng
  · exact ⟨d.rusName, by simp [Decl.names], hrus⟩
  · exact ⟨d.engName, by simp [Decl.names], heng⟩

/-- At most one declaration has a name. -/
theorem DistinctNames.index_unique {lot : LoTable} {decls : List Decl} {q : CStr}
    (hdistinct : DistinctNames lot decls) {i j : Nat} {d e : Decl} (hi : decls[i]? = some d)
    (hj : decls[j]? = some e) (hd : d.Named lot q) (he : e.Named lot q) : i = j := by
  obtain ⟨hi', rfl⟩ := List.getElem?_eq_some_iff.mp hi
  obtain ⟨hj', rfl⟩ := List.getElem?_eq_some_iff.mp hj
  obtain ⟨a, ha, hqa⟩ := hd.exists_name
  obtain ⟨b, hb, hqb⟩ := he.exists_name
  have hpair := List.pairwise_iff_getElem.mp hdistinct
  rcases Nat.lt_trichotomy i j with hlt | heq | hgt
  · exact absurd (hqa.trans hqb.symm) (hpair i j hi' hj' hlt a ha b hb)
  · exact heq
  · exact absurd (hqb.trans hqa.symm) (hpair j i hj' hi' hgt b hb a ha)

theorem fillNames_reverse (decls : List Decl) :
    fillNames decls.reverse = decls.map fun d => (d.engName, d.rusName) := by
  induction decls using List.reverseRecOn with
  | nil => rfl
  | append_singleton decls d ih => simp [fillNames, ih]

/-- `GetName` returns one of the names of the declaration with the number. -/
theorem getName_eq (lot : LoTable) {decls : List Decl} {i lang : Nat} (hi : i < decls.length)
    (hlang : lang < 2) :
    ∃ d name, decls[i]? = some d ∧ getName decls i lang = some name ∧ d.Named lot name := by
  have hget : decls[i]? = some decls[i] := List.getElem?_eq_getElem hi
  refine ⟨decls[i], if lang = 0 then decls[i].engName else decls[i].rusName, hget, ?_, ?_⟩
  · rw [getName, if_pos ⟨hi, hlang⟩, fillNames_reverse, List.getElem?_map, hget]
    rfl
  · split
    · exact Or.inr rfl
    · exact Or.inl rfl

/-- For every number of declarations, and so for every search policy, the
    search returns the number of the declaration with the name, and -1 if there
    is none; and the number of every name that `GetName` returns. -/
theorem find_eq_index (lot : LoTable) (decls : List Decl) (hdistinct : DistinctNames lot decls) :
    (∀ q : CStr, q.length < 512 →
      (∀ (i : Nat) (d : Decl), decls[i]? = some d → d.Named lot q →
        findName lot decls (some q) = some (i : Int)) ∧
      ((∀ d ∈ decls, ¬ d.Named lot q) → findName lot decls (some q) = some (-1))) ∧
    ∀ i < decls.length, ∀ lang < 2, ∃ name, getName decls i lang = some name ∧
      (name.length < 512 → findName lot decls (some name) = some (i : Int)) := by
  have hindex : ∀ q : CStr, q.length < 512 → ∀ (i : Nat) (d : Decl), decls[i]? = some d →
      d.Named lot q →
      findName lot decls (some q) = some (i : Int) := by
    intro q hq i d hget hnamed
    obtain ⟨r, hr, ⟨j, e, hget', hnamed', rfl⟩ | ⟨-, hnone⟩⟩ := findName_answer lot decls hq
    · rw [hr, hdistinct.index_unique hget hget' hnamed hnamed']
    · exact absurd hnamed (hnone d (List.mem_of_getElem? hget))
  refine ⟨fun q hq => ⟨hindex q hq, fun hnone => ?_⟩, fun i hi lang hlang => ?_⟩
  · obtain ⟨r, hr, ⟨j, e, hget, hnamed, -⟩ | ⟨rfl, -⟩⟩ := findName_answer lot decls hq
    · exact absurd hnamed (hnone e (List.mem_of_getElem? hget))
    · exact hr
  · obtain ⟨d, name, hget, hname, hnamed⟩ := getName_eq lot hi hlang
    exact ⟨name, hname, fun hshort => hindex name hshort i d hget hnamed⟩

/-- Lower case of the Latin letters alone. -/
def LoTable.latin : LoTable where
  lower c := if 0x41 ≤ c ∧ c ≤ 0x5a then c + 0x20 else c
  idem := by decide +kernel
  zero_iff := by decide +kernel

/-- Four of the methods of the component, by their Latin names. -/
def someMethods : List Decl :=
  ["Version", "ComponentsVersion", "easy_setopt", "easy_perform"].map fun name =>
    ⟨CStr.lit name, CStr.lit name⟩

theorem find_eq_index_someMethods :
    findName LoTable.latin someMethods (some (CStr.lit "EASY_SETOPT")) = some 2 ∧
    findName LoTable.latin someMethods (some (CStr.lit "easy")) = some (-1) := by
  have hfind := (find_eq_index LoTable.latin someMethods (by
    unfold DistinctNames
    decide)).1
  refine ⟨(hfind _ (by decide)).1 2 _ rfl (by decide), ?_⟩
  exact (hfind _ (by decide)).2 (by decide)

end Curl1C
