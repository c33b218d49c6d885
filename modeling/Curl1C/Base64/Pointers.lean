/-
  Curl1C.Base64.Pointers

  The overloads of `Encode`, `Decode` and `DecodedLength` on `char *` and a
  length.

  They are copies of those on `std::string` that read through a pointer and a
  count and write through a pointer of their own (`out`), which is compared at
  the end with where it should be.  A read or a write outside the memory behind
  a pointer is undefined behaviour: there the functions have no result.

  Main result: `overloads_agree`.
-/

import Curl1C.Base64.Bounds
import Curl1C.Base64.RoundTrip

namespace Curl1C.Base64

open Lib

/-! ## The functions -/

/-- The loop state of `Encode`: the bytes of the current group, and `out`. -/
structure EncodePtr where
  a3 : List Byte
  out : Cursor Byte

/-- One pass of the loop of `Encode`. -/
def encodePtrStep (s : EncodePtr) (c : Byte) : Option EncodePtr :=
  let a3 := s.a3 ++ [c]
  if a3.length = 3 then (s.out.putAll (encodeGroup a3)).map fun out => { a3 := [], out := out }
  else some { s with a3 := a3 }

/-- The loop of `Encode` over `input_length` bytes from `input` on. -/
def encodePtrLoop : List Byte → Nat → EncodePtr → Option EncodePtr
  | _, 0, s => some s
  | [], _ + 1, _ => none
  | c :: input, inputLength + 1, s =>
      (encodePtrStep s c).bind (encodePtrLoop input inputLength)

/-- The part of `Encode` behind the loop. -/
def encodePtrTail (s : EncodePtr) : Option (Cursor Byte) :=
  let i := s.a3.length
  if i = 0 then some s.out
  else (s.out.putAll ((encodeGroup s.a3).take (i + 1))).bind
    (Cursor.putAll (List.replicate (3 - i) eqSign))

/-- `Encode(const char *, size_t, char *, size_t)`: the result, and the memory
    at `out`. -/
def encodePtr (input : List Byte) (inputLength : Nat) (out : List Byte) (outLength : Nat) :
    Option (Bool × List Byte) :=
  let n := encodedLength inputLength
  if outLength < n then some (false, out)
  else ((encodePtrLoop input inputLength { a3 := [], out := ⟨out, 0⟩ }).bind encodePtrTail).map
    fun cur => (decide (sizeT cur.pos = n), cur.mem)

/-- The scan of `DecodedLength` for `'='`, down from the `n`-th character; it
    does not stop by itself at the first one. -/
def scanBack (input : List Byte) : Nat → Option Nat
  | 0 => none
  | n + 1 => (input[n]?).bind fun c =>
      if c = eqSign then (scanBack input n).map (· + 1) else some 0

/-- `DecodedLength(const char *, size_t)`. -/
def decodedLengthPtr (input : List Byte) (inLength : Nat) : Option Nat :=
  (scanBack input inLength).map fun numEq => sizeT (sizeT (6 * inLength) / 8 + 2 ^ 32 - numEq)

/-- The loop state of `Decode`: the characters of the current group, and
    `out`. -/
structure DecodePtr where
  a4 : List Byte
  out : Cursor Byte

/-- One pass of the loop of `Decode` that does not leave it. -/
def decodePtrStep (s : DecodePtr) (c : Byte) : Option DecodePtr :=
  let a4 := s.a4 ++ [c]
  if a4.length = 4 then (s.out.putAll (decodeGroup a4)).map fun out => { a4 := [], out := out }
  else some { s with a4 := a4 }

/-- The loop of `Decode`. -/
def decodePtrLoop : List Byte → Nat → DecodePtr → Option DecodePtr
  | _, 0, s => some s
  | [], _ + 1, _ => none
  | c :: input, inputLength + 1, s =>
      if c = eqSign then some s else (decodePtrStep s c).bind (decodePtrLoop input inputLength)

/-- The part of `Decode` behind the loop. -/
def decodePtrTail (s : DecodePtr) : Option (Cursor Byte) :=
  let i := s.a4.length
  if i = 0 then some s.out else s.out.putAll ((decodeGroup s.a4).take (i - 1))

/-- `Decode(const char *, size_t, char *, size_t)`. -/
def decodePtr (input : List Byte) (inputLength : Nat) (out : List Byte) (outLength : Nat) :
    Option (Bool × List Byte) :=
  (decodedLengthPtr input inputLength).bind fun n =>
    if outLength < n then some (false, out)
    else ((decodePtrLoop input inputLength { a4 := [], out := ⟨out, 0⟩ }).bind decodePtrTail).map
      fun cur => (decide (sizeT cur.pos = n), cur.mem)

/-! ## Encoding -/

section Encode

variable (mem : List Byte)

/-- The loop state that has performed the stores of the other overload. -/
def EncodeState.ptr (s : EncodeState) : Option EncodePtr :=
  (s.out.cursor mem).map fun out => { a3 := s.a3, out := out }

theorem encodePtrStep_ptr (s : EncodeState) (c : Byte) :
    (s.ptr mem).bind (fun p => encodePtrStep p c) = (encodeStep s c).ptr mem := by
  rw [EncodeState.ptr, Option.bind_map]
  unfold encodeStep encodePtrStep EncodeState.ptr
  by_cases hfull : (s.a3 ++ [c]).length = 3
  · simp only [Function.comp_def, hfull, if_true, ← Sink.cursor_putAll]
    cases s.out.cursor mem <;> rfl
  · simp only [Function.comp_def, hfull, if_false]
    cases s.out.cursor mem <;> rfl

theorem encodePtrLoop_ptr (input : List Byte) (s : EncodeState) :
    (s.ptr mem).bind (encodePtrLoop input input.length) = (input.foldl encodeStep s).ptr mem := by
  induction input generalizing s with
  | nil => exact Option.bind_fun_some _
  | cons c input ih =>
      rw [List.foldl_cons, ← ih, ← encodePtrStep_ptr, Option.bind_assoc]
      rfl

theorem encodePtrTail_ptr (s : EncodeState) :
    (s.ptr mem).bind encodePtrTail = (encodeTail s).cursor mem := by
  rw [EncodeState.ptr, Option.bind_map]
  unfold encodeTail encodePtrTail
  by_cases hzero : s.a3.length = 0
  · simp only [Function.comp_def, hzero, if_true]
    exact Option.bind_fun_some _
  · simp only [Function.comp_def, hzero, if_false, ← Sink.cursor_putAll, Option.bind_assoc]

/-- The stores of the other overload on the memory at `out`. -/
theorem encodePtr_eq {s : List Byte} {outLength : Nat} (hroom : encodedLength s.length ≤ outLength) :
    encodePtr s s.length mem outLength = (writeAll mem (encodeSink s).stores).map fun mem' =>
      (decide (sizeT (encodeSink s).len = encodedLength s.length), mem') := by
  have hrun : (encodePtrLoop s s.length { a3 := [], out := ⟨mem, 0⟩ }).bind encodePtrTail =
      (encodeSink s).cursor mem := by
    rw [encodeSink, ← encodePtrTail_ptr, ← encodePtrLoop_ptr]
    rfl
  rw [encodePtr, if_neg (Nat.not_lt.mpr hroom), hrun, Sink.cursor, Option.map_map]
  rfl

end Encode

/-! ## Decoding -/

section Decode

variable (mem : List Byte)

/-- The loop state that has performed the stores of the other overload. -/
def DecodeState.ptr (s : DecodeState) : Option DecodePtr :=
  (s.out.cursor mem).map fun out => { a4 := s.a4, out := out }

theorem decodePtrStep_ptr (s : DecodeState) (c : Byte) :
    (s.ptr mem).bind (fun p => decodePtrStep p c) = (decodeStep s c).ptr mem := by
  rw [DecodeState.ptr, Option.bind_map]
  unfold decodeStep decodePtrStep DecodeState.ptr
  by_cases hfull : (s.a4 ++ [c]).length = 4
  · simp only [Function.comp_def, hfull, if_true, ← Sink.cursor_putAll]
    cases s.out.cursor mem <;> rfl
  · simp only [Function.comp_def, hfull, if_false]
    cases s.out.cursor mem <;> rfl

theorem decodePtrLoop_ptr (input : List Byte) (s : DecodeState) :
    (s.ptr mem).bind (decodePtrLoop input input.length) = (decodeLoop input s).ptr mem := by
  induction input generalizing s with
  | nil => exact Option.bind_fun_some _
  | cons c input ih =>
      by_cases hc : c = eqSign
      · -- both loops stop here
        simp only [List.length_cons, decodePtrLoop, decodeLoop, hc, if_true]
        exact Option.bind_fun_some _
      · simp only [List.length_cons, decodePtrLoop, decodeLoop, hc, if_false]
        rw [← ih, ← decodePtrStep_ptr, Option.bind_assoc]

theorem decodePtrTail_ptr (s : DecodeState) :
    (s.ptr mem).bind decodePtrTail = (decodeTail s).cursor mem := by
  rw [DecodeState.ptr, Option.bind_map]
  unfold decodeTail decodePtrTail
  by_cases hzero : s.a4.length = 0
  · simp only [Function.comp_def, hzero, if_true]
    exact Option.bind_fun_some _
  · simp only [Function.comp_def, hzero, if_false, ← Sink.cursor_putAll]

theorem scanBack_eq (input : List Byte) {n : Nat} (hn : n ≤ input.length) :
    scanBack input n = scanEq (input.take n).reverse := by
  induction n with
  | zero => rfl
  | succ n ih =>
      have hget : input[n]? = some (input.get ⟨n, hn⟩) := List.getElem?_eq_getElem hn
      rw [scanBack, hget, Option.bind_some, List.take_add_one, hget, Option.toList_some,
        List.reverse_append, List.reverse_singleton, List.singleton_append, scanEq,
        ih (Nat.le_of_succ_le hn)]

theorem decodedLengthPtr_eq (input : List Byte) :
    decodedLengthPtr input input.length = decodedLength input := by
  rw [decodedLengthPtr, scanBack_eq input (Nat.le_refl _), List.take_length, decodedLength]

/-- The stores of the other overload on the memory at `out`. -/
theorem decodePtr_eq {t : List Byte} {n outLength : Nat} (hn : decodedLength t = some n)
    (hroom : n ≤ outLength) :
    decodePtr t t.length mem outLength = (writeAll mem (decodeSink t).stores).map fun mem' =>
      (decide (sizeT (decodeSink t).len = n), mem') := by
  have hrun : (decodePtrLoop t t.length { a4 := [], out := ⟨mem, 0⟩ }).bind decodePtrTail =
      (decodeSink t).cursor mem := by
    rw [decodeSink, ← decodePtrTail_ptr, ← decodePtrLoop_ptr]
    rfl
  rw [decodePtr, decodedLengthPtr_eq, hn, Option.bind_some, if_neg (Nat.not_lt.mpr hroom), hrun,
    Sink.cursor, Option.map_map]
  rfl

end Decode

/-! ## Both families -/

/-- Performs `stores` on an output and returns `ok`. -/
def performs (ok : Bool) (stores : List (Nat × Byte)) (out : List Byte) :
    Option (Bool × List Byte) :=
  (writeAll out stores).map fun out' => (ok, out')

/-- The overload on `std::string` resizes the output and performs stores on it. -/
theorem fill_eq_performs (sink : Sink Byte) (n : Nat) (out : List Byte) :
    fill sink n out = (stringResize out n).bind (performs (decide (sink.len = n)) sink.stores) := by
  unfold fill
  cases hresize : stringResize out n with
  | none => rfl
  | some buf => rw [Option.bind_some, Option.bind_some, stringResize_length hresize, performs]

section Room

variable (mem : List Byte) {s t : List Byte} {n outLength : Nat}

/-- `Encode` with enough room: the stores are all inside the encoded length. -/
theorem encodePtr_performs (hs : s.length < 3 * 2 ^ 30 - 3)
    (hroom : encodedLength s.length ≤ outLength) :
    (∀ w ∈ (encodeSink s).stores, w.1 < encodedLength s.length) ∧
    ∃ ok, encodePtr s s.length mem outLength = performs ok (encodeSink s).stores mem ∧
      ∀ out, encode s out = (stringResize out (encodedLength s.length)).bind
        (performs ok (encodeSink s).stores) := by
  have hencoded : (encodeSink s).len = 4 * ((s.length + 2) / 3) := by
    rw [Sink.len, encodeSink_values, Rfc4648.length_encode]
  have hsize : encodedLength s.length = 4 * ((s.length + 2) / 3) := encodedLength_eq (by omega)
  refine ⟨?_, decide ((encodeSink s).len = encodedLength s.length), ?_, ?_⟩
  · rw [Sink.forall_stores_lt_iff]
    omega
  · rw [encodePtr_eq mem hroom, sizeT, Nat.mod_eq_of_lt (by omega)]
    rfl
  · intro out
    rw [encode_eq_fill, fill_eq_performs]

/-- `Decode` with enough room. -/
theorem decodePtr_performs (hlen : 6 * t.length < 2 ^ 32) (hn : decodedLength t = some n)
    (hroom : n ≤ outLength) :
    ∃ ok, decodePtr t t.length mem outLength = performs ok (decodeSink t).stores mem ∧
      ∀ out, decode t out = (stringResize out n).bind (performs ok (decodeSink t).stores) := by
  have hdecoded := len_decodeSink t
  have hhead := headLength_add_tailLength_le t
  refine ⟨decide ((decodeSink t).len = n), ?_, ?_⟩
  · rw [decodePtr_eq mem hn hroom, sizeT, Nat.mod_eq_of_lt (by omega)]
    rfl
  · intro out
    rw [decode_eq_fill, hn, Option.bind_some, fill_eq_performs]

end Room

/-- Each overload on pointers writes nothing and returns false if there is too
    little room, and otherwise performs the stores of the overload on
    `std::string` and returns what that returns.  Both `DecodedLength` agree. -/
theorem overloads_agree (s t mem : List Byte) (outLength : Nat) (hs : s.length < 3 * 2 ^ 30 - 3)
    (ht : ∃ c ∈ t, c ≠ eqSign) (hlen : 6 * t.length < 2 ^ 32) :
    ((outLength < encodedLength s.length →
        encodePtr s s.length mem outLength = some (false, mem)) ∧
      (encodedLength s.length ≤ outLength →
        (∀ w ∈ (encodeSink s).stores, w.1 < encodedLength s.length) ∧
        ∃ ok, encodePtr s s.length mem outLength = performs ok (encodeSink s).stores mem ∧
          ∀ out, encode s out = (stringResize out (encodedLength s.length)).bind
            (performs ok (encodeSink s).stores))) ∧
    ∃ n, decodedLength t = some n ∧ decodedLengthPtr t t.length = some n ∧
      (outLength < n → decodePtr t t.length mem outLength = some (false, mem)) ∧
      (n ≤ outLength →
        ∃ ok, decodePtr t t.length mem outLength = performs ok (decodeSink t).stores mem ∧
          ∀ out, decode t out = (stringResize out n).bind (performs ok (decodeSink t).stores)) := by
  refine ⟨⟨fun hroom => if_pos hroom, encodePtr_performs mem hs⟩, ?_⟩
  -- some character is not `'='`, so the scan stops
  have hscan : ∃ n, decodedLength t = some n := by
    rw [decodedLength, scanEq_reverse, if_pos (tailLength_lt ht)]
    exact ⟨_, rfl⟩
  obtain ⟨n, hn⟩ := hscan
  refine ⟨n, hn, (decodedLengthPtr_eq t).trans hn, ?_, decodePtr_performs mem hlen hn⟩
  intro hroom
  rw [decodePtr, decodedLengthPtr_eq, hn, Option.bind_some, if_pos hroom]

/-- Four characters into five bytes of room. -/
theorem overloads_agree_roomy :
    encodePtr (CStr.lit "any").bytes 3 (List.replicate 5 0) 5 =
      some (true, (CStr.lit "YW55").bytes ++ [0]) := by
  obtain ⟨⟨-, hencode⟩, -⟩ := overloads_agree (CStr.lit "any").bytes (CStr.lit "YW55").bytes
    (List.replicate 5 0) 5 (by decide) ⟨0x59, by decide, by decide⟩ (by decide)
  obtain ⟨-, ok, hptr, hstring⟩ := hencode (by decide)
  cases ok with
  | true => exact hptr.trans (by decide)
  | false => exact absurd (hstring []) (by decide)

end Curl1C.Base64
