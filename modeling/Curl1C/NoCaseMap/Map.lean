/-
  Curl1C.NoCaseMap.Map

  `CNoCaseMap` of nocasemap.hpp: a hash table from names to values that ignores
  the case of the names.

  The table grows when a key is inserted and shrinks when one is removed, at
  three different loads.  The loops that go over all nodes (`visited`) are told
  their number by `m_nCount` and test no bound, so they leave the array if the
  count is not exact; `none` is such a loop, or a pointer that is not there.

  `m_nHashTableSize` is the length of the array it was allocated with.  The
  addresses of nodes are numbers that are not used twice; the free list of
  `CPlex` blocks is left out.  So are the byte counts of `new CAssoc*[n]` and of the
  `memset` behind it: `sizeof(CAssoc*) * n` wraps in 32 bits from `n = 2 ^ 30` on,
  which is what `PrepeareHashTable` comes to from about `7.2e8` keys on.
-/

import Curl1C.Lib.HashMap
import Curl1C.NoCaseMap.HashSize
import Curl1C.Text

namespace Curl1C

open Lib HashTable

/-- The table `m_lotable`: lower case of a byte. -/
structure NcmLoTable where
  lower : Byte → BitVec 32
  zero_iff : ∀ c, lower c = 0 ↔ c = 0

/-- A text with every byte in lower case. -/
def NcmLoTable.fold (lot : NcmLoTable) (s : CStr) : List (BitVec 32) := s.bytes.map lot.lower

/-- `CNoCaseMap`: `m_pHashTable`, `m_nCount`, and the next address. -/
abbrev NoCaseMap (ν : Type) := HashMap CStr ν

namespace NoCaseMap

variable {ν : Type} (lot : NcmLoTable)

/-! ## Keys -/

/-- `IsStrEqual`, on the rest of both texts. -/
def isStrEqual : List Byte → List Byte → Bool
  | ptr1, [] =>
      if lot.lower (symbol ptr1) ≠ lot.lower 0 then false else decide (symbol ptr1 = 0)
  | ptr1, s2 :: ptr2 =>
      if lot.lower (symbol ptr1) ≠ lot.lower s2 then false
      else if s2 = 0 then decide (symbol ptr1 = 0)
      else isStrEqual ptr1.tail ptr2

/-- `GetHash`, from the value `h` of the bytes before. -/
def getHashFrom (h : BitVec 32) : List Byte → BitVec 32
  | [] => h
  | c :: key =>
      if lot.lower c = 0 then h else getHashFrom ((h ^^^ lot.lower c) * 16777619) key

/-- `GetHash`. -/
def getHash (key : CStr) : Nat := (getHashFrom lot 2166136261 key.bytes).toNat

/-- A stored key is the key, as the loops over one chain test it. -/
def isKey (key k : CStr) : Bool := isStrEqual lot k.bytes key.bytes

/-! ## The table -/

/-- `CNoCaseMap()`. -/
def new : NoCaseMap ν := ⟨none, 0, 0⟩

/-- `m_nHashTableSize`. -/
def hashTableSize (m : NoCaseMap ν) : Nat := (m.hashTable.map List.length).getD 0

/-- The nodes a loop over all of them visits: it starts at the first bucket and
    stops after `m_nCount` nodes. -/
def visited (m : NoCaseMap ν) : Option (List (Node CStr ν)) :=
  if m.count = 0 then some [] else m.hashTable.bind fun t => Buckets.walk m.count [] t

/-- `PrepeareHashTable`. -/
def prepeareHashTable (m : NoCaseMap ν) (nCount : Nat) : Option (NoCaseMap ν) :=
  (calcHashSize nCount).bind fun newHashSize =>
    (visited m).map fun nodes => m.rehash newHashSize nodes

/-- `GetAssocAt`. -/
def getAssocAt (m : NoCaseMap ν) (key : CStr) : Option (Node CStr ν) :=
  m.find (getHash lot key) (isKey lot key)

/-- The insertion of a key that is not there (`NewAssoc` and the constructor of
    `assoc`), after enlarging the table if there is none or it is `full`; the
    result is a reference to the value. -/
def addAssoc (m : NoCaseMap ν) (full : Bool) (key : CStr) (value : ν) :
    Option (NoCaseMap ν × Nat) :=
  (if m.hashTable.isNone || full then prepeareHashTable m ((m.count + 1) % 2 ^ 32) else some m).bind
    fun m => m.push (getHash lot key) key value

/-! ## Operations -/

/-- `operator[]`.  A new value holds what its constructor leaves, `init`. -/
def index (m : NoCaseMap ν) (key : CStr) (init : ν) : Option (NoCaseMap ν × Nat) :=
  match getAssocAt lot m key with
  | some n => some (m, n.id)
  | none => addAssoc lot m (decide (hashTableSize m * 3 % 2 ^ 32 / 4 ≤ m.count)) key init

/-- `SetAt`.  What the constructor of a new value leaves is assigned over. -/
def setAt (m : NoCaseMap ν) (key : CStr) (newValue : ν) : Option (NoCaseMap ν) :=
  (index lot m key newValue).map fun (m, id) => m.assignTo id newValue

/-- `InsertExist`; the load at which it grows is not that of `operator[]`. -/
def insertExist (m : NoCaseMap ν) (key : CStr) (newValue : ν) (bReplace : Bool) :
    Option (NoCaseMap ν × Bool) :=
  match getAssocAt lot m key with
  | some n => if !bReplace then some (m, true) else some (m.assignTo n.id newValue, true)
  | none =>
      (addAssoc lot m (decide (hashTableSize m / 3 * 2 ≤ m.count)) key newValue).map fun (m, id) =>
        (m.assignTo id newValue, false)

/-- The search of `RemoveKey` and `RemovePair`. -/
def findToRemove (m : NoCaseMap ν) (key : CStr) : Option (Node CStr ν) :=
  if m.count = 0 then none else getAssocAt lot m key

/-- What `RemoveKey` and `RemovePair` do to a key they found. -/
def removeFound (m : NoCaseMap ν) (key : CStr) : Option (NoCaseMap ν) :=
  let m := m.unlink (getHash lot key) (isKey lot key)
  if m.count < hashTableSize m / 2 then prepeareHashTable m m.count else some m

/-- `RemoveKey`. -/
def removeKey (m : NoCaseMap ν) (key : CStr) : Option (NoCaseMap ν × Bool) :=
  match findToRemove lot m key with
  | some _ => (removeFound lot m key).map fun m => (m, true)
  | none => some (m, false)

/-- `RemovePair`. -/
def removePair [BEq ν] (m : NoCaseMap ν) (key : CStr) (value : ν) :
    Option (NoCaseMap ν × Bool) :=
  match findToRemove lot m key with
  | some n =>
      if n.value == value then (removeFound lot m key).map fun m => (m, true)
      else some (m, false)
  | none => some (m, false)

/-- `RemoveAll`: destroys every node, then `DeleteAll`. -/
def removeAll (m : NoCaseMap ν) : Option (NoCaseMap ν) :=
  (visited m).map fun _ => ⟨none, 0, m.nextId⟩

/-! ## Queries -/

/-- `IsExist`. -/
def isExist (m : NoCaseMap ν) (key : CStr) : Bool := (getAssocAt lot m key).isSome

/-- `Lookup`. -/
def lookup (m : NoCaseMap ν) (key : CStr) : Option ν := (getAssocAt lot m key).map Node.value

/-- `LookupKey`. -/
def lookupKey (m : NoCaseMap ν) (key : CStr) : Option CStr := (getAssocAt lot m key).map Node.key

/-- `GetCount`. -/
def getCount (m : NoCaseMap ν) : Nat := m.count

/-- `IsEmpty`. -/
def isEmpty (m : NoCaseMap ν) : Bool := decide (m.count ≠ 0)

/-- `GetStartPosition`. -/
def getStartPosition (m : NoCaseMap ν) : Position := m.startPosition

/-- `GetNextAssoc`: the next position, the key and the value.  Its loop to the
    first bucket that is not empty has no bound either. -/
def getNextAssoc (m : NoCaseMap ν) (rNextPosition : Position) : Option (Position × CStr × ν) :=
  m.nextAssoc rNextPosition

/-- The loop of a client from `GetStartPosition` to the end. -/
def enumerate (m : NoCaseMap ν) : Option (List (CStr × ν)) :=
  iterate (getNextAssoc m) m.count (getStartPosition m)

/-- `ForEachPair`: the pairs that the operation is called with. -/
def forEachPair (m : NoCaseMap ν) : Option (List (CStr × ν)) :=
  (visited m).map fun nodes => nodes.map Node.entry

end NoCaseMap

/-! ## What the keys are compared by -/

namespace NoCaseMap

variable {lot : NcmLoTable}

/-- Two keys are equal exactly if they are in lower case. -/
theorem isStrEqual_iff (s t : CStr) :
    isStrEqual lot s.bytes t.bytes = true ↔ lot.fold s = lot.fold t := by
  have hlower : ∀ c, lot.lower c = lot.lower 0 → c = 0 := fun c heq =>
    (lot.zero_iff c).mp (heq.trans ((lot.zero_iff 0).mpr rfl))
  have hgo : ∀ p q : List Byte, (0 : Byte) ∉ p → (0 : Byte) ∉ q →
      (isStrEqual lot p q = true ↔ p.map lot.lower = q.map lot.lower) := by
    intro p q hp hq
    induction q generalizing p with
    | nil =>
        rw [isStrEqual, List.map_nil, ← fold_symbol_eq_zero_iff hlower hp]
        by_cases hend : lot.lower (symbol p) = lot.lower 0
        · rw [if_neg (not_not.mpr hend)]
          exact iff_of_true (decide_eq_true (hlower _ hend)) hend
        · rw [if_pos hend]
          exact iff_of_false Bool.false_ne_true hend
    | cons d q ih =>
        have hd : d ≠ 0 := fun heq => hq (heq ▸ List.mem_cons_self)
        have hrest := ih p.tail (fun h => hp (List.mem_of_mem_tail h))
          (List.not_mem_of_not_mem_cons hq)
        rw [isStrEqual, List.map_cons, map_fold_eq_cons_iff hlower hd, ← hrest]
        by_cases hsame : lot.lower (symbol p) = lot.lower d
        · rw [if_neg (not_not.mpr hsame), if_neg hd, and_iff_right hsame]
        · rw [if_pos hsame]
          exact iff_of_false Bool.false_ne_true fun h => hsame h.1
  exact hgo s.bytes t.bytes s.nulFree t.nulFree

/-- Equal keys have equal hash values. -/
theorem getHash_congr {s t : CStr} (hst : lot.fold s = lot.fold t) :
    getHash lot s = getHash lot t := by
  have hgo : ∀ (p q : List Byte) (h : BitVec 32), p.map lot.lower = q.map lot.lower →
      getHashFrom lot h p = getHashFrom lot h q := by
    intro p
    induction p with
    | nil =>
        intro q h hpq
        rw [List.map_eq_nil_iff.mp hpq.symm]
    | cons c p ih =>
        intro q h hpq
        cases q with
        | nil => simp at hpq
        | cons d q =>
            obtain ⟨hcd, hrest⟩ := List.cons.inj hpq
            simp only [getHashFrom, hcd, ih q _ hrest]
  rw [getHash, getHash, hgo s.bytes t.bytes _ hst]

end NoCaseMap

end Curl1C
