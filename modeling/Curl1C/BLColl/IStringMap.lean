/-
  Curl1C.BLColl.IStringMap

  `CIStringMap` of istrmap.h: a hash table from names to values that ignores
  the case of the names.

  A node keeps either a copy of its key or the pointer it was given
  (`bUseExternalKeys`).  Stored keys are of a type `κ` here, and `text` is what
  they spell: a copied key spells itself, the spelling of a pointer is what is
  in memory when the map looks.

  One routine, `InitHashTable`, makes the table larger and smaller, and does
  nothing if it is asked for too little.  `none` is a loop that does not end or
  a pointer that is not there.  `m_nHashTableSize` is the length of the array,
  or 32 while there is none; addresses are numbers that are not used twice, and
  `CPlex` blocks and `m_nBlockSize` are left out.  So are the byte counts of
  `new CAssoc*[n]` and of the `memset` behind it: `sizeof(CAssoc*) * n` wraps in 32
  bits from `n = 2 ^ 30` on, which is what `InitHashTable` comes to if it is asked
  for more than `2 ^ 29`.
-/

import Curl1C.Lib.HashMap
import Curl1C.Text

namespace Curl1C

open Lib HashTable

/-! ## Keys -/

/-- `m_CS1251_upper`: upper case in code page 1251, row by row. -/
def cs1251Upper : List Nat :=
  [0x00, 0x01, 0x02, 0x03, 0x04, 0x05, 0x06, 0x07, 0x08, 0x09, 0x0A, 0x0B, 0x0C, 0x0D, 0x0E, 0x0F,
   0x10, 0x11, 0x12, 0x13, 0x14, 0x15, 0x16, 0x17, 0x18, 0x19, 0x1A, 0x1B, 0x1C, 0x1D, 0x1E, 0x1F,
   0x20, 0x21, 0x22, 0x23, 0x24, 0x25, 0x26, 0x27, 0x28, 0x29, 0x2A, 0x2B, 0x2C, 0x2D, 0x2E, 0x2F,
   0x30, 0x31, 0x32, 0x33, 0x34, 0x35, 0x36, 0x37, 0x38, 0x39, 0x3A, 0x3B, 0x3C, 0x3D, 0x3E, 0x3F,
   0x40, 0x41, 0x42, 0x43, 0x44, 0x45, 0x46, 0x47, 0x48, 0x49, 0x4A, 0x4B, 0x4C, 0x4D, 0x4E, 0x4F,
   0x50, 0x51, 0x52, 0x53, 0x54, 0x55, 0x56, 0x57, 0x58, 0x59, 0x5A, 0x5B, 0x5C, 0x5D, 0x5E, 0x5F,
   0x60, 0x41, 0x42, 0x43, 0x44, 0x45, 0x46, 0x47, 0x48, 0x49, 0x4A, 0x4B, 0x4C, 0x4D, 0x4E, 0x4F,
   0x50, 0x51, 0x52, 0x53, 0x54, 0x55, 0x56, 0x57, 0x58, 0x59, 0x5A, 0x7B, 0x7C, 0x7D, 0x7E, 0x7F,
   0x80, 0x81, 0x82, 0x83, 0x84, 0x85, 0x86, 0x87, 0x88, 0x89, 0x8A, 0x8B, 0x8C, 0x8D, 0x8E, 0x8F,
   0x90, 0x91, 0x92, 0x93, 0x94, 0x95, 0x96, 0x97, 0x98, 0x99, 0x9A, 0x9B, 0x9C, 0x9D, 0x9E, 0x9F,
   0xA0, 0xA1, 0xA2, 0xA3, 0xA4, 0xA5, 0xA6, 0xA7, 0xA8, 0xA9, 0xAA, 0xAB, 0xAC, 0xAD, 0xAE, 0xAF,
   0xB0, 0xB1, 0xB2, 0xB3, 0xB4, 0xB5, 0xB6, 0xB7, 0xA8, 0xB9, 0xBA, 0xBB, 0xBC, 0xBD, 0xBE, 0xBF,
   0xC0, 0xC1, 0xC2, 0xC3, 0xC4, 0xC5, 0xC6, 0xC7, 0xC8, 0xC9, 0xCA, 0xCB, 0xCC, 0xCD, 0xCE, 0xCF,
   0xD0, 0xD1, 0xD2, 0xD3, 0xD4, 0xD5, 0xD6, 0xD7, 0xD8, 0xD9, 0xDA, 0xDB, 0xDC, 0xDD, 0xDE, 0xDF,
   0xC0, 0xC1, 0xC2, 0xC3, 0xC4, 0xC5, 0xC6, 0xC7, 0xC8, 0xC9, 0xCA, 0xCB, 0xCC, 0xCD, 0xCE, 0xCF,
   0xD0, 0xD1, 0xD2, 0xD3, 0xD4, 0xD5, 0xD6, 0xD7, 0xD8, 0xD9, 0xDA, 0xDB, 0xDC, 0xDD, 0xDE, 0xDF]

/-- Upper case of a byte. -/
def upper (ch : Byte) : BitVec 32 := BitVec.ofNat 32 (cs1251Upper.getD ch.toNat 0)

/-- A name with every byte in upper case. -/
def upperFold (s : CStr) : List (BitVec 32) := s.bytes.map upper

theorem upperFold_append (s t : CStr) : upperFold (s ++ t) = upperFold s ++ upperFold t :=
  List.map_append

/-- `CIStringMap`: `m_pHashTable`, `m_nCount`, and the next address. -/
abbrev IStringMap (κ ν : Type) := HashMap κ ν

namespace IStringMap

/-- `HashKey`, from the accumulators of the bytes before. -/
def hashKeyFrom (x1 x2 : BitVec 32) : List Byte → BitVec 32
  | [] => x1 + x2
  | ch :: key =>
      if ch = 0 then x1 + x2
      else
        let x1 := x1 + (x2.rotateLeft 4 + 0xe5fc82a9)
        let x2 := x2 + (x1.rotateLeft 4 + upper ch)
        hashKeyFrom x1 x2 key

/-- `HashKey`. -/
def hashKey (key : CStr) : Nat := (hashKeyFrom 0x14f2affc 0xfac5bd8f key.bytes).toNat

/-- `Compare`, on the rest of both keys. -/
def compare : List Byte → List Byte → BitVec 32
  | key1, [] => upper (symbol key1) - upper 0
  | key1, ch2 :: key2 =>
      let result := upper (symbol key1) - upper ch2
      if result = 0 ∧ ch2 ≠ 0 then compare key1.tail key2 else result

/-! ## The table -/

variable {κ ν : Type} (text : κ → CStr)

/-- `DEFAULT_HASH_TABLE_SIZE`. -/
def defaultHashTableSize : Nat := 32

/-- `CIStringMap()`. -/
def new : IStringMap κ ν := ⟨none, 0, 0⟩

/-- `m_nHashTableSize`. -/
def hashTableSize (m : IStringMap κ ν) : Nat :=
  (m.hashTable.map List.length).getD defaultHashTableSize

/-- The loop of `InitHashTable` that doubles `b2`; `b2` wraps to 0 when it is
    past `2 ^ 31`. -/
def doubling (limit : Nat) : Nat → Nat → Option Nat
  | 0, _ => none
  | fuel + 1, b2 => if b2 < limit then doubling limit fuel (b2 * 2 % 2 ^ 32) else some b2

/-- The loop of `InitHashTable` that moves the associations: bucket by bucket,
    as long as `nCount` is not used up. -/
def drain {α : Type} : Nat → Buckets α → List α
  | _, [] => []
  | nCount, c :: rest =>
      if nCount = 0 then [] else c ++ drain ((nCount + (2 ^ 32 - c.length % 2 ^ 32)) % 2 ^ 32) rest

/-- The associations that `InitHashTable` moves. -/
def moved (m : IStringMap κ ν) : Option (List (Node κ ν)) :=
  if m.count = 0 then some [] else m.hashTable.map fun t => drain m.count t

/-- `InitHashTable`. -/
def initHashTable (m : IStringMap κ ν) (newSize : Nat) : Option (IStringMap κ ν) :=
  if m.count < newSize ∨ hashTableSize m < newSize then
    (doubling (max newSize defaultHashTableSize) 33 1).bind fun b2 =>
      (moved m).map fun nodes => m.rehash ((b2 + 1) % 2 ^ 32) nodes
  else some m

/-- A stored key is the key, as the loops over one chain test it. -/
def isKey (key : CStr) (k : κ) : Bool := decide (compare (text k).bytes key.bytes = 0)

/-- `GetAssocAt`. -/
def getAssocAt (m : IStringMap κ ν) (key : CStr) : Option (Node κ ν) :=
  m.find (hashKey key) (isKey text key)

/-! ## Operations -/

/-- The table before an insertion: allocated if there is none, larger if it is
    half full. -/
def grown (m : IStringMap κ ν) : Option (IStringMap κ ν) :=
  if m.hashTable.isNone then initHashTable m (hashTableSize m)
  else if hashTableSize m ≤ m.count * 2 % 2 ^ 32 then
    initHashTable m (hashTableSize m * 2 % 2 ^ 32)
  else some m

/-- `operator[]`: a reference to the value.  A new value holds what its
    constructor leaves, `init`. -/
def index (m : IStringMap κ ν) (key : κ) (init : ν) : Option (IStringMap κ ν × Nat) :=
  match getAssocAt text m (text key) with
  | some n => some (m, n.id)
  | none => (grown m).bind fun m => m.push (hashKey (text key)) key init

/-- `SetAt`.  What the constructor of a new value leaves is assigned over. -/
def setAt (m : IStringMap κ ν) (key : κ) (newValue : ν) : Option (IStringMap κ ν) :=
  (index text m key newValue).map fun (m, id) => m.assignTo id newValue

/-- `RemoveKey`. -/
def removeKey (m : IStringMap κ ν) (key : CStr) : Option (IStringMap κ ν × Bool) :=
  match getAssocAt text m key with
  | some _ =>
      let m := m.unlink (hashKey key) (isKey text key)
      (if defaultHashTableSize < hashTableSize m ∧ m.count * 8 % 2 ^ 32 < hashTableSize m
        then initHashTable m (hashTableSize m / 2) else some m).map fun m => (m, true)
  | none => some (m, false)

/-- `RemoveAll`. -/
def removeAll (m : IStringMap κ ν) : IStringMap κ ν := ⟨none, 0, m.nextId⟩

/-! ## Queries -/

/-- `Lookup`. -/
def lookup (m : IStringMap κ ν) (key : CStr) : Option ν := (getAssocAt text m key).map Node.value

/-- `LookupKey`. -/
def lookupKey (m : IStringMap κ ν) (key : CStr) : Option κ := (getAssocAt text m key).map Node.key

/-- `GetCount`. -/
def getCount (m : IStringMap κ ν) : Nat := m.count

/-- `GetStartPosition`. -/
def getStartPosition (m : IStringMap κ ν) : Position := m.startPosition

/-- `GetNextAssoc`: the next position, the key and the value. -/
def getNextAssoc (m : IStringMap κ ν) (rNextPosition : Position) : Option (Position × κ × ν) :=
  m.nextAssoc rNextPosition

/-- The loop of a client from `GetStartPosition` to the end. -/
def enumerate (m : IStringMap κ ν) : Option (List (κ × ν)) :=
  iterate (getNextAssoc m) m.count (getStartPosition m)

end IStringMap

/-! ## What the keys are compared by -/

theorem upper_eq_zero_iff (ch : Byte) : upper ch = 0 ↔ ch = 0 := by
  revert ch
  decide +kernel

theorem upper_sub_eq_zero_iff (c d : Byte) : upper c - upper d = 0 ↔ upper c = upper d := by
  constructor
  · intro h
    bv_omega
  · intro h
    rw [h, BitVec.sub_self]
    rfl

namespace IStringMap

/-- Keys are equal under `Compare` exactly if they are equal in upper case. -/
theorem compare_eq_zero_iff (s t : CStr) :
    compare s.bytes t.bytes = 0 ↔ upperFold s = upperFold t := by
  have hupper : ∀ ch, upper ch = upper 0 → ch = 0 := fun ch heq =>
    (upper_eq_zero_iff ch).mp (heq.trans ((upper_eq_zero_iff 0).mpr rfl))
  -- along the second text, which is what stops the loop
  have hgo : ∀ p q : List Byte, (0 : Byte) ∉ p → (0 : Byte) ∉ q →
      (compare p q = 0 ↔ p.map upper = q.map upper) := by
    intro p q hp hq
    induction q generalizing p with
    | nil => rw [compare, upper_sub_eq_zero_iff, fold_symbol_eq_zero_iff hupper hp, List.map_nil]
    | cons d q ih =>
        have hd : d ≠ 0 := fun heq => hq (heq ▸ List.mem_cons_self)
        have hrest := ih p.tail (fun h => hp (List.mem_of_mem_tail h))
          (List.not_mem_of_not_mem_cons hq)
        rw [compare, List.map_cons, map_fold_eq_cons_iff hupper hd, ← hrest]
        by_cases hsame : upper (symbol p) = upper d
        · rw [if_pos ⟨(upper_sub_eq_zero_iff _ _).mpr hsame, hd⟩, and_iff_right hsame]
        · have hne : upper (symbol p) - upper d ≠ 0 := fun heq =>
            hsame ((upper_sub_eq_zero_iff _ _).mp heq)
          rw [if_neg fun h => hne h.1]
          exact iff_of_false hne fun h => hsame h.1
  exact hgo s.bytes t.bytes s.nulFree t.nulFree

/-- Keys in the same upper case have the same hash value. -/
theorem hashKey_congr {s t : CStr} (hst : upperFold s = upperFold t) : hashKey s = hashKey t := by
  have hgo : ∀ (p q : List Byte) (x1 x2 : BitVec 32), p.map upper = q.map upper →
      hashKeyFrom x1 x2 p = hashKeyFrom x1 x2 q := by
    intro p
    induction p with
    | nil =>
        intro q x1 x2 hpq
        rw [List.map_eq_nil_iff.mp hpq.symm]
    | cons c p ih =>
        intro q x1 x2 hpq
        cases q with
        | nil => simp at hpq
        | cons d q =>
            obtain ⟨hcd, hrest⟩ := List.cons.inj hpq
            have hzero : c = 0 ↔ d = 0 := by
              rw [← upper_eq_zero_iff c, ← upper_eq_zero_iff d, hcd]
            simp only [hashKeyFrom, hcd, hzero, ih q _ _ hrest]
  rw [hashKey, hashKey, hgo s.bytes t.bytes _ _ hst]

end IStringMap

end Curl1C
