/-
  Curl1C.Base64.RoundTrip

  `Base64::Encode` computes the encoding of RFC 4648, and `Base64::Decode`
  inverts it, with the padding and without.

  A group is three bytes of the input and four 6-bit digits; the bit
  operations of `a3_to_a4` and `a4_to_a3` are divisions and remainders on the
  24-bit number the group stands for.  The inductions run over groups, along
  `Rfc4648.payload`.

  Main result: `encode_decode`.
-/

import Curl1C.Base64.Codec
import Curl1C.Lib.Rfc4648

namespace Curl1C.Base64

open Lib

/-! ## Bits of a group -/

section Bits

variable (a mask : Byte) (shift width : Nat)

theorem toNat_and_low (hmask : mask.toNat = 2 ^ width - 1) :
    (a &&& mask).toNat = a.toNat % 2 ^ width := by
  rw [BitVec.toNat_and, hmask, Nat.and_two_pow_sub_one_eq_mod]

/-- The low `width` bits, moved up. -/
theorem toNat_low_shiftLeft (hmask : mask.toNat = 2 ^ width - 1) :
    ((a &&& mask) <<< shift).toNat = a.toNat % 2 ^ width * 2 ^ shift % 2 ^ 8 := by
  rw [BitVec.toNat_shiftLeft, toNat_and_low a mask width hmask, Nat.shiftLeft_eq]

/-- The `width` bits from bit `shift` on, moved down. -/
theorem toNat_field_shiftRight (hmask : mask.toNat >>> shift = 2 ^ width - 1) :
    ((a &&& mask) >>> shift).toNat = a.toNat / 2 ^ shift % 2 ^ width := by
  rw [BitVec.toNat_ushiftRight, BitVec.toNat_and, Nat.shiftRight_and_distrib, hmask,
    Nat.and_two_pow_sub_one_eq_mod, Nat.shiftRight_eq_div_pow]

end Bits

/-- `a3_to_a4` cuts the group into its four digits. -/
theorem a3ToA4_toNat (a b c : Byte) :
    (a3ToA4 a b c).map BitVec.toNat = Rfc4648.sextets (Rfc4648.group a b c) := by
  have ha := a.isLt
  have hb := b.isLt
  have hc := c.isLt
  simp only [a3ToA4, Rfc4648.sextets, Rfc4648.group, List.map_cons, List.map_nil,
    BitVec.toNat_add, toNat_field_shiftRight a 0xfc 2 6 rfl, toNat_low_shiftLeft a 0x03 4 2 rfl,
    toNat_field_shiftRight b 0xf0 4 4 rfl, toNat_low_shiftLeft b 0x0f 2 4 rfl,
    toNat_field_shiftRight c 0xc0 6 2 rfl, toNat_and_low c 0x3f 6 rfl, List.cons.injEq, and_true]
  refine ⟨?_, ?_, ?_, ?_⟩ <;> omega

/-- The alphabet of the source is that of the standard. -/
theorem kBase64Alphabet_getD {d : Nat} (hd : d < 64) :
    kBase64Alphabet.getD d 0 = Rfc4648.digitChar d := by
  have hall : ∀ d ∈ List.range 64, kBase64Alphabet.getD d 0 = Rfc4648.digitChar d := by
    decide
  exact hall d (List.mem_range.mpr hd)

/-- `b64_lookup` inverts the alphabet. -/
theorem b64Lookup_digitChar {d : Nat} (hd : d < 64) :
    (b64Lookup (Rfc4648.digitChar d)).toNat = d := by
  have hall : ∀ d ∈ List.range 64, (b64Lookup (Rfc4648.digitChar d)).toNat = d := by decide
  exact hall d (List.mem_range.mpr hd)

theorem eqSign_eq_pad : eqSign = Rfc4648.pad := rfl

/-- The characters of a group of up to three bytes. -/
theorem encodeGroup_eq (a3 : List Byte) :
    encodeGroup a3 = (Rfc4648.sextets
      (Rfc4648.group (a3.getD 0 0) (a3.getD 1 0) (a3.getD 2 0))).map Rfc4648.digitChar := by
  rw [← a3ToA4_toNat, List.map_map, encodeGroup]
  apply List.map_congr_left
  intro d hd
  have hdigit : d.toNat ∈ Rfc4648.sextets
      (Rfc4648.group (a3.getD 0 0) (a3.getD 1 0) (a3.getD 2 0)) := by
    rw [← a3ToA4_toNat]
    exact List.mem_map_of_mem hd
  exact kBase64Alphabet_getD (Rfc4648.sextets_lt _ _ hdigit)

/-- The bytes of a group of characters, as numbers. -/
theorem decodeGroup_toNat (a4 : List Byte) :
    (decodeGroup a4).map BitVec.toNat =
      [((b64Lookup (a4.getD 0 0)).toNat * 4 % 256 + (b64Lookup (a4.getD 1 0)).toNat / 16 % 4) % 256,
        ((b64Lookup (a4.getD 1 0)).toNat % 16 * 16 +
          (b64Lookup (a4.getD 2 0)).toNat / 4 % 16) % 256,
        ((b64Lookup (a4.getD 2 0)).toNat % 4 * 64 + (b64Lookup (a4.getD 3 0)).toNat) % 256] := by
  simp only [decodeGroup, a4ToA3, List.map_cons, List.map_nil, BitVec.toNat_add,
    BitVec.toNat_shiftLeft, Nat.shiftLeft_eq, toNat_field_shiftRight _ 0x30 4 2 rfl,
    toNat_low_shiftLeft _ 0x0f 4 4 rfl, toNat_field_shiftRight _ 0x3c 2 4 rfl,
    toNat_low_shiftLeft _ 0x03 6 2 rfl, List.cons.injEq, and_true]
  refine ⟨?_, ?_, ?_⟩ <;> omega

theorem eq_of_map_toNat {xs ys : List Byte} (h : xs.map BitVec.toNat = ys.map BitVec.toNat) :
    xs = ys :=
  List.map_injective_iff.mpr (fun _ _ => BitVec.eq_of_toNat_eq) h

section Groups

variable (a b c : Byte)

/-- Four characters give back the three bytes of the group. -/
theorem decodeGroup_full :
    decodeGroup ((Rfc4648.sextets (Rfc4648.group a b c)).map Rfc4648.digitChar) = [a, b, c] := by
  have ha := a.isLt
  have hb := b.isLt
  have hc := c.isLt
  have hmod : ∀ n : Nat, n % 64 < 64 := fun n => Nat.mod_lt n (by decide)
  apply eq_of_map_toNat
  rw [decodeGroup_toNat]
  simp only [Rfc4648.sextets, Rfc4648.group, List.map_cons, List.map_nil, List.getD_cons_zero,
    List.getD_cons_succ, b64Lookup_digitChar (hmod _), List.cons.injEq, and_true]
  refine ⟨?_, ?_, ?_⟩ <;> omega

/-- Two characters give back the one byte of a last group. -/
theorem decodeGroup_one :
    (decodeGroup (((Rfc4648.sextets (Rfc4648.group a 0 0)).take 2).map
      Rfc4648.digitChar)).take 1 = [a] := by
  have ha := a.isLt
  have hmod : ∀ n : Nat, n % 64 < 64 := fun n => Nat.mod_lt n (by decide)
  apply eq_of_map_toNat
  rw [List.map_take, decodeGroup_toNat]
  simp only [Rfc4648.sextets, Rfc4648.group, List.take_succ_cons, List.take_zero, List.map_cons,
    List.map_nil, List.getD_cons_zero, List.getD_cons_succ, b64Lookup_digitChar (hmod _),
    List.cons.injEq, and_true, BitVec.ofNat_eq_ofNat, BitVec.toNat_ofNat]
  omega

/-- Three characters give back the two bytes of a last group. -/
theorem decodeGroup_two :
    (decodeGroup (((Rfc4648.sextets (Rfc4648.group a b 0)).take 3).map
      Rfc4648.digitChar)).take 2 = [a, b] := by
  have ha := a.isLt
  have hb := b.isLt
  have hmod : ∀ n : Nat, n % 64 < 64 := fun n => Nat.mod_lt n (by decide)
  apply eq_of_map_toNat
  rw [List.map_take, decodeGroup_toNat]
  simp only [Rfc4648.sextets, Rfc4648.group, List.take_succ_cons, List.take_zero, List.map_cons,
    List.map_nil, List.getD_cons_zero, List.getD_cons_succ, b64Lookup_digitChar (hmod _),
    List.cons.injEq, and_true, BitVec.ofNat_eq_ofNat, BitVec.toNat_ofNat]
  refine ⟨?_, ?_⟩ <;> omega

end Groups

/-! ## Encoding -/

theorem padding_add_three (n : Nat) : Rfc4648.padding (n + 3) = Rfc4648.padding n := by
  simp [Rfc4648.padding]

/-- The loop and the tail of `Encode` append the encoding to what is stored. -/
theorem encodeTail_foldl (s : List Byte) (out : Sink Byte) :
    (encodeTail (s.foldl encodeStep { a3 := [], out := out })).values =
      out.values ++ Rfc4648.encode s := by
  induction s using Rfc4648.payload.induct generalizing out with
  | case1 => simp [encodeTail, Rfc4648.encode, Rfc4648.payload, Rfc4648.padding]
  | case2 a =>
      have hgroup := encodeGroup_eq [a]
      simp [encodeTail, encodeStep, hgroup, Rfc4648.encode, Rfc4648.payload, Rfc4648.padding,
        eqSign_eq_pad]
  | case3 a b =>
      have hgroup := encodeGroup_eq [a, b]
      simp [encodeTail, encodeStep, hgroup, Rfc4648.encode, Rfc4648.payload, Rfc4648.padding,
        eqSign_eq_pad]
  | case4 a b c rest ih =>
      have hgroup := encodeGroup_eq [a, b, c]
      have hthree : (a :: b :: c :: rest).foldl encodeStep { a3 := [], out := out } =
          rest.foldl encodeStep { a3 := [], out := out.putAll (encodeGroup [a, b, c]) } := rfl
      rw [hthree, ih, Sink.values_putAll, hgroup]
      simp only [Rfc4648.encode, Rfc4648.payload, List.length_cons, padding_add_three,
        List.append_assoc]
      rfl

theorem encodeSink_values (s : List Byte) : (encodeSink s).values = Rfc4648.encode s := by
  rw [encodeSink, encodeTail_foldl]
  rfl

/-! ## Decoding -/

theorem eqSign_notMem_payload (s : List Byte) : eqSign ∉ Rfc4648.payload s :=
  Rfc4648.pad_notMem_payload s

/-- Four characters make a group. -/
theorem foldl_decodeStep_four (w x y z : Byte) (rest : List Byte) (out : Sink Byte) :
    ([w, x, y, z] ++ rest).foldl decodeStep { a4 := [], out := out } =
      rest.foldl decodeStep (DecodeState.mk [] (out.putAll (decodeGroup [w, x, y, z]))) := by
  simp [decodeStep]

theorem decodeTail_two (w x : Byte) (out : Sink Byte) :
    decodeTail ([w, x].foldl decodeStep { a4 := [], out := out }) =
      out.putAll ((decodeGroup [w, x]).take 1) := by
  simp [decodeTail, decodeStep]

theorem decodeTail_three (w x y : Byte) (out : Sink Byte) :
    decodeTail ([w, x, y].foldl decodeStep { a4 := [], out := out }) =
      out.putAll ((decodeGroup [w, x, y]).take 2) := by
  simp [decodeTail, decodeStep]

/-- The loop and the tail of `Decode` append the bytes to what is stored. -/
theorem decodeTail_foldl (s : List Byte) (out : Sink Byte) :
    (decodeTail ((Rfc4648.payload s).foldl decodeStep { a4 := [], out := out })).values =
      out.values ++ s := by
  induction s using Rfc4648.payload.induct generalizing out with
  | case1 => simp [decodeTail, Rfc4648.payload]
  | case2 a =>
      refine (congrArg Sink.values (decodeTail_two _ _ out)).trans ?_
      rw [Sink.values_putAll]
      exact congrArg _ (decodeGroup_one a)
  | case3 a b =>
      refine (congrArg Sink.values (decodeTail_three _ _ _ out)).trans ?_
      rw [Sink.values_putAll]
      exact congrArg _ (decodeGroup_two a b)
  | case4 a b c rest ih =>
      rw [Rfc4648.payload]
      refine (congrArg (fun st => (decodeTail st).values)
        (foldl_decodeStep_four _ _ _ _ (Rfc4648.payload rest) out)).trans ?_
      refine (ih _).trans ?_
      rw [Sink.values_putAll, List.append_assoc]
      exact congrArg (fun g => out.values ++ (g ++ rest)) (decodeGroup_full a b c)

theorem decodeSink_payload (s : List Byte) (k : Nat) :
    (decodeSink (Rfc4648.payload s ++ List.replicate k Rfc4648.pad)).values = s := by
  rw [decodeSink, decodeLoop_eq, ← eqSign_eq_pad, takeWhile_append_pad (eqSign_notMem_payload s),
    decodeTail_foldl]
  rfl

/-- `DecodedLength` of an encoding with `k` padding characters. -/
theorem decodedLength_payload {s : List Byte} (hs : s ≠ []) {k : Nat}
    (hk : k = 0 ∨ k = (3 - s.length % 3) % 3)
    (hlen : 6 * ((Rfc4648.payload s).length + k) < 2 ^ 32) :
    decodedLength (Rfc4648.payload s ++ List.replicate k Rfc4648.pad) = some s.length := by
  have hpos : 0 < s.length := List.length_pos_of_ne_nil hs
  have hpayload := Rfc4648.length_payload s
  have htrail : ((Rfc4648.payload s ++ List.replicate k Rfc4648.pad).reverse.takeWhile
      (fun c => c = eqSign)).length = k := by
    rw [← eqSign_eq_pad, takeWhile_reverse_append_pad (eqSign_notMem_payload s),
      List.length_replicate]
  -- the padding completes the last group, so it is not counted in the quotient
  have hquot : 6 * ((Rfc4648.payload s).length + k) / 8 = s.length + k := by omega
  unfold decodedLength
  rw [scanEq_eq, htrail]
  simp only [List.length_reverse, List.length_append, List.length_replicate, sizeT]
  rw [if_pos (by omega), Option.map_some, Nat.mod_eq_of_lt hlen, hquot]
  congr 1
  omega

theorem encodedLength_eq {n : Nat} (h : 4 * ((n + 2) / 3) < 2 ^ 32) :
    encodedLength n = 4 * ((n + 2) / 3) := by
  have hsmall : (n + 2) % 2 ^ 32 = n + 2 := Nat.mod_eq_of_lt (by omega)
  have hdiv : (n + 2 - (n + 2) % 3) / 3 = (n + 2) / 3 := by omega
  unfold encodedLength sizeT
  dsimp only
  rw [hsmall, hdiv, Nat.mod_eq_of_lt (by omega), Nat.mul_comm]

/-- `Decode` gives back the bytes, whether the padding is there or not. -/
theorem decode_payload {s : List Byte} (hs : s ≠ []) {k : Nat}
    (hk : k = 0 ∨ k = (3 - s.length % 3) % 3)
    (hlen : 6 * ((Rfc4648.payload s).length + k) < 2 ^ 32) (out : List Byte) :
    decode (Rfc4648.payload s ++ List.replicate k Rfc4648.pad) out = some (true, s) := by
  have hvalues := decodeSink_payload s k
  have hsink : (decodeSink (Rfc4648.payload s ++ List.replicate k Rfc4648.pad)).len = s.length := by
    rw [Sink.len, hvalues]
  have hpayload := Rfc4648.length_payload s
  rw [decode_of_len out (by rw [hsink, decodedLength_payload hs hk hlen]), hvalues]
  rw [hsink, allocLimit]
  omega

/-- `Encode` is the encoding of the standard. -/
theorem encode_eq_rfc (s out : List Byte) (hlen : 6 * (Rfc4648.encode s).length < 2 ^ 32) :
    encode s out = some (true, Rfc4648.encode s) := by
  have hencoded := Rfc4648.length_encode s
  rw [hencoded] at hlen
  have hsize : encodedLength s.length = 4 * ((s.length + 2) / 3) := encodedLength_eq (by omega)
  rw [encode_of_len out ?_ ?_, encodeSink_values]
  · rw [Sink.len, encodeSink_values, hencoded, hsize]
  · rw [hsize, allocLimit]
    omega

/-- `Decode` inverts it. -/
theorem decode_rfc {s : List Byte} (hs : s ≠ []) (hlen : 6 * (Rfc4648.encode s).length < 2 ^ 32)
    (out : List Byte) : decode (Rfc4648.encode s) out = some (true, s) := by
  refine decode_payload hs (Or.inr rfl) ?_ out
  rwa [Rfc4648.encode, List.length_append, Rfc4648.padding, List.length_replicate] at hlen

end Curl1C.Base64
