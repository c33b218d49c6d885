/-
  Curl1C.Text

  Byte strings as the component handles them: NUL-terminated C strings
  (`char *`, MFC `CString`, 1C strings) and counted `std::string` data.

  A `CStr` carries the proof that none of its bytes is NUL, so the text of a C
  string and its `strlen` cannot disagree.  A `std::string` is a plain byte
  list; the two meet where the code calls `c_str()` or builds a `std::string`
  from a `char *`.
-/

import Mathlib.Algebra.Group.Nat.Defs
import Mathlib.Data.List.TakeWhile

namespace Curl1C

abbrev Byte := BitVec 8

/-! ## C strings -/

/-- The text of a NUL-terminated string: the bytes in front of the NUL. -/
structure CStr where
  bytes : List Byte
  nulFree : (0 : Byte) ∉ bytes
deriving DecidableEq

namespace CStr

theorem zero_notMem_takeWhile (buf : List Byte) :
    (0 : Byte) ∉ buf.takeWhile (fun b => decide (b ≠ 0)) := by
  intro hmem
  have h := List.mem_takeWhile_imp hmem
  simp at h

/-- The C string that starts at the first byte of `buf`: everything up to the
    first NUL (`std::string::c_str()` read through a `char *`). -/
def ofBuf (buf : List Byte) : CStr :=
  ⟨buf.takeWhile (fun b => decide (b ≠ 0)), zero_notMem_takeWhile buf⟩

/-- An ASCII string literal of the source. -/
def lit (s : String) : CStr :=
  ofBuf (s.toByteArray.data.toList.map UInt8.toBitVec)

/-- The code page 1251 of a text in UTF-8 that has only ASCII and Russian
    letters. -/
def toCp1251 : List Byte → List Byte
  | [] => []
  | [b] => [b]
  | b :: c :: rest =>
      if b = 0xD0 then (if c = 0x81 then 0xA8 else c + 0x30) :: toCp1251 rest
      else if b = 0xD1 then (if c = 0x91 then 0xB8 else c + 0x70) :: toCp1251 rest
      else b :: toCp1251 (c :: rest)

/-- A Russian string literal of the source, which is in code page 1251. -/
def ansi (s : String) : CStr :=
  ofBuf (toCp1251 (s.toByteArray.data.toList.map UInt8.toBitVec))

/-- `operator+`, `CString::operator+=`. -/
def append (s t : CStr) : CStr :=
  ⟨s.bytes ++ t.bytes, by
    rw [List.mem_append, not_or]
    exact ⟨s.nulFree, t.nulFree⟩⟩

instance : Append CStr := ⟨append⟩

/-- `strlen`, `CString::GetLength`. -/
def length (s : CStr) : Nat := s.bytes.length

/-- `CString::IsEmpty`. -/
def isEmpty (s : CStr) : Bool := s.bytes.isEmpty

/-- A default-constructed `CString`. -/
def empty : CStr := ⟨[], by simp⟩

@[ext] theorem ext {s t : CStr} (h : s.bytes = t.bytes) : s = t := by
  cases s
  cases t
  simpa using h

@[simp] theorem isEmpty_iff (s : CStr) : s.isEmpty = true ↔ s = empty := by
  rw [isEmpty, List.isEmpty_iff]
  constructor
  · intro h
    exact CStr.ext h
  · rintro rfl
    rfl

@[simp] theorem append_empty (s : CStr) : s ++ empty = s := CStr.ext (List.append_nil s.bytes)

@[simp] theorem empty_append (s : CStr) : empty ++ s = s := CStr.ext (List.nil_append s.bytes)

theorem length_append (s t : CStr) : (s ++ t).length = s.length + t.length := List.length_append

@[simp] theorem take_length (s : CStr) : s.bytes.take s.length = s.bytes :=
  List.take_length

end CStr

/-- The byte a `char *` into a C string points to, the rest of whose text is
    `ptr`; at the end it is the NUL. -/
def symbol (ptr : List Byte) : Byte := ptr.headD 0

@[simp] theorem symbol_nil : symbol [] = 0 := rfl

@[simp] theorem symbol_cons (c : Byte) (ptr : List Byte) : symbol (c :: ptr) = c := rfl

section Folded

variable {α : Type} {fold : Byte → α} {ptr : List Byte}

/-- A comparison that folds the case meets the NUL at the end of the text only. -/
theorem fold_symbol_eq_zero_iff (hfold : ∀ c, fold c = fold 0 → c = 0) (hptr : (0 : Byte) ∉ ptr) :
    fold (symbol ptr) = fold 0 ↔ ptr.map fold = [] := by
  cases ptr with
  | nil => exact iff_of_true rfl rfl
  | cons c ptr =>
      have hc : c ≠ 0 := fun heq => hptr (heq ▸ List.mem_cons_self)
      exact iff_of_false (fun heq => hc (hfold c heq)) (by simp)

/-- One character of such a comparison, in front of the end of the other text. -/
theorem map_fold_eq_cons_iff (hfold : ∀ c, fold c = fold 0 → c = 0) {d : Byte} (hd : d ≠ 0)
    (rest : List α) :
    ptr.map fold = fold d :: rest ↔ fold (symbol ptr) = fold d ∧ ptr.tail.map fold = rest := by
  cases ptr with
  | nil => exact iff_of_false (by simp) fun h => hd (hfold d h.1.symm)
  | cons c ptr => rw [List.map_cons, List.cons_eq_cons, symbol_cons, List.tail_cons]

end Folded

/-! ## Counted strings -/

/-- `std::string(const char *)`: the bytes of readable memory from the pointer
    up to the first NUL.  Without a NUL the constructor reads past the end of
    the memory it may read. -/
def stringOfPtr (mem : List Byte) : Option (List Byte) :=
  if (0 : Byte) ∈ mem then some (CStr.ofBuf mem).bytes else none

/-- `append(const std::string &str, size_type pos, size_type n)`. -/
def stringAppend (s str : List Byte) (pos n : Nat) : List Byte :=
  s ++ (str.drop pos).take n

/-- The size from which an allocation fails in a 32-bit process. -/
def allocLimit : Nat := 2 ^ 31

/-- `std::string::resize`: keeps the old bytes, fills up with NUL; throws when
    the block cannot be allocated. -/
def stringResize (s : List Byte) (n : Nat) : Option (List Byte) :=
  if n < allocLimit then some (s.take n ++ List.replicate (n - s.length) 0) else none

theorem stringResize_length {s out : List Byte} {n : Nat} (h : stringResize s n = some out) :
    out.length = n := by
  unfold stringResize at h
  split at h
  · obtain rfl := Option.some.inj h
    simp only [List.length_append, List.length_take, List.length_replicate]
    omega
  · cases h

end Curl1C
