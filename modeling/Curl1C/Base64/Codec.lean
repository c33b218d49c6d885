/-
  Curl1C.Base64.Codec

  The class `Base64` of base64.h on `std::string`.

  `Encode` and `Decode` size the output first and then store into it through
  an advancing index (`enc_len`, `dec_len`), so what they store is a `Sink`.
  A store outside the output, like a scan that leaves the input, is undefined
  behaviour: there the functions below have no result.  `size_t` has 32 bits.
-/

import Curl1C.Text
import Curl1C.Lib.Sink

namespace Curl1C.Base64

open Lib

/-- A value as `size_t` keeps it. -/
def sizeT (n : Nat) : Nat := n % 2 ^ 32

/-- `'='`. -/
def eqSign : Byte := 0x3d

/-- `kBase64Alphabet`. -/
def kBase64Alphabet : List Byte :=
  (CStr.lit "ABCDEFGHIJKLMNOPQRSTUVWXYZabcdefghijklmnopqrstuvwxyz0123456789+/").bytes

/-! ## Groups -/

/-- `a3_to_a4`. -/
def a3ToA4 (a0 a1 a2 : Byte) : List Byte :=
  [(a0 &&& 0xfc) >>> 2,
    ((a0 &&& 0x03) <<< 4) + ((a1 &&& 0xf0) >>> 4),
    ((a1 &&& 0x0f) <<< 2) + ((a2 &&& 0xc0) >>> 6),
    a2 &&& 0x3f]

/-- `a4_to_a3`. -/
def a4ToA3 (a0 a1 a2 a3 : Byte) : List Byte :=
  [(a0 <<< 2) + ((a1 &&& 0x30) >>> 4),
    ((a1 &&& 0x0f) <<< 4) + ((a2 &&& 0x3c) >>> 2),
    ((a2 &&& 0x03) <<< 6) + a3]

/-- `b64_lookup`. -/
def b64Lookup (c : Byte) : Byte :=
  if 0x41 ≤ c ∧ c ≤ 0x5a then c - 0x41
  else if 0x61 ≤ c ∧ c ≤ 0x7a then c - 71
  else if 0x30 ≤ c ∧ c ≤ 0x39 then c + 4
  else if c = 0x2b then 62
  else if c = 0x2f then 63
  else 255

/-- The characters of a group of input bytes, the missing ones being zero. -/
def encodeGroup (a3 : List Byte) : List Byte :=
  (a3ToA4 (a3.getD 0 0) (a3.getD 1 0) (a3.getD 2 0)).map fun d => kBase64Alphabet.getD d.toNat 0

/-- The bytes of a group of input characters, the missing ones being NUL. -/
def decodeGroup (a4 : List Byte) : List Byte :=
  a4ToA3 (b64Lookup (a4.getD 0 0)) (b64Lookup (a4.getD 1 0)) (b64Lookup (a4.getD 2 0))
    (b64Lookup (a4.getD 3 0))

/-! ## Encoding -/

/-- `EncodedLength(size_t)`. -/
def encodedLength (length : Nat) : Nat :=
  let n := sizeT (length + 2)
  sizeT ((n - n % 3) / 3 * 4)

/-- The loop state of `Encode`: the bytes of the current group, and the output. -/
structure EncodeState where
  a3 : List Byte
  out : Sink Byte

/-- One pass of the loop of `Encode`. -/
def encodeStep (s : EncodeState) (c : Byte) : EncodeState :=
  let a3 := s.a3 ++ [c]
  if a3.length = 3 then { a3 := [], out := s.out.putAll (encodeGroup a3) }
  else { s with a3 := a3 }

/-- The part of `Encode` behind the loop. -/
def encodeTail (s : EncodeState) : Sink Byte :=
  let i := s.a3.length
  if i = 0 then s.out
  else (s.out.putAll ((encodeGroup s.a3).take (i + 1))).putAll (List.replicate (3 - i) eqSign)

/-- What `Encode` stores. -/
def encodeSink (input : List Byte) : Sink Byte :=
  encodeTail (input.foldl encodeStep { a3 := [], out := Sink.empty })

/-- `Encode(const std::string &, std::string *)`: the result and the output. -/
def encode (input out : List Byte) : Option (Bool × List Byte) :=
  (stringResize out (encodedLength input.length)).bind fun out =>
    (writeAll out (encodeSink input).stores).map fun out' =>
      (decide ((encodeSink input).len = out.length), out')

/-! ## Decoding -/

/-- The scan of `DecodedLength` for `'='`, over the characters from the last to
    the first; it does not stop by itself at the first one. -/
def scanEq : List Byte → Option Nat
  | [] => none
  | c :: rest => if c = eqSign then (scanEq rest).map (· + 1) else some 0

/-- `DecodedLength(const std::string &)`. -/
def decodedLength (input : List Byte) : Option Nat :=
  (scanEq input.reverse).map fun numEq => sizeT (sizeT (6 * input.length) / 8 + 2 ^ 32 - numEq)

/-- The loop state of `Decode`: the characters of the current group, and the
    output. -/
structure DecodeState where
  a4 : List Byte
  out : Sink Byte

/-- One pass of the loop of `Decode` that does not leave it. -/
def decodeStep (s : DecodeState) (c : Byte) : DecodeState :=
  let a4 := s.a4 ++ [c]
  if a4.length = 4 then { a4 := [], out := s.out.putAll (decodeGroup a4) }
  else { s with a4 := a4 }

/-- The loop of `Decode`, which ends at the first `'='`. -/
def decodeLoop : List Byte → DecodeState → DecodeState
  | [], s => s
  | c :: rest, s => if c = eqSign then s else decodeLoop rest (decodeStep s c)

/-- The part of `Decode` behind the loop. -/
def decodeTail (s : DecodeState) : Sink Byte :=
  let i := s.a4.length
  if i = 0 then s.out else s.out.putAll ((decodeGroup s.a4).take (i - 1))

/-- What `Decode` stores. -/
def decodeSink (input : List Byte) : Sink Byte :=
  decodeTail (decodeLoop input { a4 := [], out := Sink.empty })

/-- `Decode(const std::string &, std::string *)`: the result and the output. -/
def decode (input out : List Byte) : Option (Bool × List Byte) :=
  (decodedLength input).bind fun n =>
    (stringResize out n).bind fun out =>
      (writeAll out (decodeSink input).stores).map fun out' =>
        (decide ((decodeSink input).len = out.length), out')

/-- The output after `resize` to `n` and the stores of `sink`, and whether they
    fill it: undefined behaviour if they leave it, no result either if it cannot
    be allocated. -/
def fill (sink : Sink Byte) (n : Nat) (out : List Byte) : Option (Bool × List Byte) :=
  (stringResize out n).bind fun out =>
    (writeAll out sink.stores).map fun out' => (decide (sink.len = out.length), out')

/-- The bytes behind those stored are left as `resize` left them. -/
theorem fill_eq (sink : Sink Byte) (n : Nat) (out : List Byte) :
    fill sink n out = if sink.len ≤ n ∧ n < allocLimit then
      some (decide (sink.len = n),
        sink.values ++ (out.take n ++ List.replicate (n - out.length) 0).drop sink.len)
    else none := by
  rw [fill, stringResize]
  by_cases hfits : n < allocLimit
  · have hsize : (out.take n ++ List.replicate (n - out.length) 0).length = n := by
      simp only [List.length_append, List.length_take, List.length_replicate]
      omega
    rw [if_pos hfits, Option.bind_some, writeAll_stores_eq, hsize]
    by_cases hlen : sink.len ≤ n
    · rw [if_pos hlen, if_pos ⟨hlen, hfits⟩, Option.map_some]
    · rw [if_neg hlen, if_neg fun h => hlen h.1, Option.map_none]
  · rw [if_neg hfits, if_neg fun h => hfits h.2, Option.bind_none]

theorem fill_eq_some_iff {sink : Sink Byte} {n : Nat} {out : List Byte} {ok : Bool} :
    (∃ out', fill sink n out = some (ok, out')) ↔
      sink.len ≤ n ∧ n < allocLimit ∧ ok = decide (sink.len = n) := by
  rw [fill_eq]
  by_cases hfits : sink.len ≤ n ∧ n < allocLimit
  · rw [if_pos hfits, and_iff_right hfits.1, and_iff_right hfits.2]
    constructor
    · rintro ⟨out', heq⟩
      exact (Prod.mk.inj (Option.some.inj heq)).1.symm
    · rintro rfl
      exact ⟨_, rfl⟩
  · rw [if_neg hfits]
    exact iff_of_false (fun ⟨_, heq⟩ => by cases heq) fun h => hfits ⟨h.1, h.2.1⟩

/-- An output of exactly the size that is stored holds what is stored. -/
theorem fill_of_len {sink : Sink Byte} (out : List Byte) (hfits : sink.len < allocLimit) :
    fill sink sink.len out = some (true, sink.values) := by
  have hdrop : (out.take sink.len ++ List.replicate (sink.len - out.length) 0).drop sink.len = [] := by
    apply List.drop_eq_nil_of_le
    simp only [List.length_append, List.length_take, List.length_replicate]
    omega
  rw [fill_eq, if_pos ⟨Nat.le_refl _, hfits⟩, decide_eq_true rfl, hdrop, List.append_nil]

theorem encode_eq_fill (input out : List Byte) :
    encode input out = fill (encodeSink input) (encodedLength input.length) out := rfl

theorem decode_eq_fill (input out : List Byte) :
    decode input out = (decodedLength input).bind fun n => fill (decodeSink input) n out := rfl

/-- An output of exactly the size that is stored is filled completely. -/
theorem encode_of_len {input : List Byte} (out : List Byte)
    (hlen : (encodeSink input).len = encodedLength input.length)
    (hfits : encodedLength input.length < allocLimit) :
    encode input out = some (true, (encodeSink input).values) := by
  rw [← hlen] at hfits
  rw [encode_eq_fill, ← hlen, fill_of_len out hfits]

/-- The same for `Decode`. -/
theorem decode_of_len {input : List Byte} (out : List Byte)
    (hlen : decodedLength input = some (decodeSink input).len)
    (hfits : (decodeSink input).len < allocLimit) :
    decode input out = some (true, (decodeSink input).values) := by
  rw [decode_eq_fill, hlen, Option.bind_some, fill_of_len out hfits]

/-- The scan counts the trailing `'='` and stops if something is in front of
    them. -/
theorem scanEq_eq (l : List Byte) :
    scanEq l = if (l.takeWhile (fun c => c = eqSign)).length < l.length
      then some (l.takeWhile (fun c => c = eqSign)).length else none := by
  induction l with
  | nil => rfl
  | cons c rest ih =>
      by_cases hc : c = eqSign
      · simp only [scanEq, hc, if_true, ih, List.takeWhile_cons, decide_true, List.length_cons,
          Nat.add_lt_add_iff_right]
        split <;> rfl
      · simp [scanEq, hc]

/-- Without `'='` there is none at the end. -/
theorem takeWhile_reverse_of_notMem {l : List Byte} (h : eqSign ∉ l) :
    l.reverse.takeWhile (fun c => c = eqSign) = [] := by
  rw [List.takeWhile_eq_nil_iff]
  intro hlt hpad
  have hmem : l.reverse.get ⟨0, hlt⟩ ∈ l := List.mem_reverse.mp (List.get_mem _ _)
  rw [of_decide_eq_true hpad] at hmem
  exact h hmem

/-- Padding behind a text without `'='`, seen from the front. -/
theorem takeWhile_append_pad {l : List Byte} (h : eqSign ∉ l) (k : Nat) :
    (l ++ List.replicate k eqSign).takeWhile (fun c => c ≠ eqSign) = l := by
  have hother : ∀ c ∈ l, decide (c ≠ eqSign) = true := by
    intro c hc
    have hne : c ≠ eqSign := fun heq => h (heq ▸ hc)
    exact decide_eq_true hne
  rw [List.takeWhile_append_of_pos hother]
  cases k with
  | zero => simp
  | succ k => simp [List.replicate_succ]

/-- The same from behind. -/
theorem takeWhile_reverse_append_pad {l : List Byte} (h : eqSign ∉ l) (k : Nat) :
    (l ++ List.replicate k eqSign).reverse.takeWhile (fun c => c = eqSign) =
      List.replicate k eqSign := by
  rw [List.reverse_append, List.reverse_replicate, List.takeWhile_append_of_pos (by simp),
    takeWhile_reverse_of_notMem h, List.append_nil]

/-- `Decode` reads the characters in front of the first `'='`. -/
theorem decodeLoop_eq (input : List Byte) (s : DecodeState) :
    decodeLoop input s = (input.takeWhile (fun c => c ≠ eqSign)).foldl decodeStep s := by
  induction input generalizing s with
  | nil => rfl
  | cons c rest ih =>
      by_cases hc : c = eqSign
      · simp [decodeLoop, hc]
      · simp [decodeLoop, hc, ih]

end Curl1C.Base64
