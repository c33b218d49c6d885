/-
  Curl1C.Lib.Rfc3986

  Percent-encoding of RFC 3986, section 2.1, on byte lists.

  Unreserved characters (section 2.3) stand for themselves, every other byte is
  written as `%` and two hexadecimal digits.  Decoding replaces each `%` that is
  followed by two hexadecimal digits, upper or lower case, and takes everything
  else as it is.
-/

import Mathlib.Data.List.Basic
import Mathlib.Data.Nat.Init
import Mathlib.Algebra.Group.Nat.Defs

namespace Curl1C.Lib.Rfc3986

/-- `ALPHA / DIGIT / "-" / "." / "_" / "~"` -/
def isUnreserved (b : BitVec 8) : Bool :=
  decide (0x41 ≤ b ∧ b ≤ 0x5a ∨ 0x61 ≤ b ∧ b ≤ 0x7a ∨ 0x30 ≤ b ∧ b ≤ 0x39 ∨
    b = 0x2d ∨ b = 0x2e ∨ b = 0x5f ∨ b = 0x7e)

/-- The upper-case hexadecimal digit of a number below 16. -/
def hexDigit (n : Nat) : BitVec 8 :=
  if n < 10 then BitVec.ofNat 8 (48 + n) else BitVec.ofNat 8 (55 + n)

/-- `pct-encoded` -/
def pctEncoded (b : BitVec 8) : List (BitVec 8) :=
  [0x25, hexDigit (b.toNat / 16), hexDigit (b.toNat % 16)]

/-- How a byte is written. -/
def encodeByte (b : BitVec 8) : List (BitVec 8) := if isUnreserved b then [b] else pctEncoded b

/-- Percent-encoding. -/
def encode (s : List (BitVec 8)) : List (BitVec 8) := s.flatMap encodeByte

/-- The value of a hexadecimal digit. -/
def hexValue (b : BitVec 8) : Option Nat :=
  if 0x30 ≤ b ∧ b ≤ 0x39 then some (b.toNat - 48)
  else if 0x41 ≤ b ∧ b ≤ 0x46 then some (b.toNat - 55)
  else if 0x61 ≤ b ∧ b ≤ 0x66 then some (b.toNat - 87)
  else none

/-- The byte that `%` and the next two characters stand for. -/
def pctValue (x y : BitVec 8) : Option (BitVec 8) :=
  match hexValue x, hexValue y with
  | some u, some v => some (BitVec.ofNat 8 (16 * u + v))
  | _, _ => none

/-- Percent-decoding. -/
def decode : List (BitVec 8) → List (BitVec 8)
  | [] => []
  | [b] => [b]
  | [b, x] => [b, x]
  | b :: x :: y :: rest =>
      match if b = 0x25 then pctValue x y else none with
      | some v => v :: decode rest
      | none => b :: decode (x :: y :: rest)

/-- Text in which every `%` is followed by two hexadecimal digits and every
    other character is unreserved. -/
inductive Encoded : List (BitVec 8) → Prop where
  | nil : Encoded []
  | unreserved {b : BitVec 8} {t : List (BitVec 8)} (hb : isUnreserved b = true) (ht : Encoded t) :
      Encoded (b :: t)
  | pct {u v : Nat} {t : List (BitVec 8)} (hu : u < 16) (hv : v < 16) (ht : Encoded t) :
      Encoded (0x25 :: hexDigit u :: hexDigit v :: t)

theorem hexValue_hexDigit {n : Nat} (h : n < 16) : hexValue (hexDigit n) = some n := by
  revert n
  decide

theorem pctValue_pctEncoded (b : BitVec 8) :
    pctValue (hexDigit (b.toNat / 16)) (hexDigit (b.toNat % 16)) = some b := by
  have hb := b.isLt
  rw [pctValue, hexValue_hexDigit (by omega), hexValue_hexDigit (by omega)]
  show some (BitVec.ofNat 8 (16 * (b.toNat / 16) + b.toNat % 16)) = some b
  rw [Nat.div_add_mod, BitVec.ofNat_toNat, BitVec.setWidth_eq]

theorem decode_cons_of_ne {b : BitVec 8} (h : b ≠ 0x25) (t : List (BitVec 8)) :
    decode (b :: t) = b :: decode t := by
  match t with
  | [] => rfl
  | [x] => simp [decode]
  | x :: y :: rest => rw [decode, if_neg h]

theorem decode_pctEncoded (b : BitVec 8) (t : List (BitVec 8)) :
    decode (pctEncoded b ++ t) = b :: decode t := by
  show decode (0x25 :: hexDigit (b.toNat / 16) :: hexDigit (b.toNat % 16) :: t) = _
  rw [decode, if_pos rfl, pctValue_pctEncoded]

theorem ne_percent_of_isUnreserved {b : BitVec 8} (h : isUnreserved b = true) : b ≠ 0x25 := by
  rintro rfl
  exact absurd h (by decide)

/-- Decoding undoes encoding, whatever follows. -/
theorem decode_encode_append (s t : List (BitVec 8)) : decode (encode s ++ t) = s ++ decode t := by
  induction s with
  | nil => rfl
  | cons b s ih =>
      rw [encode, List.flatMap_cons, List.append_assoc, ← encode]
      cases hb : isUnreserved b with
      | true =>
          rw [encodeByte, hb, if_pos rfl]
          show decode (b :: (encode s ++ t)) = _
          rw [decode_cons_of_ne (ne_percent_of_isUnreserved hb), ih]
          rfl
      | false =>
          rw [encodeByte, hb, if_neg (by simp), decode_pctEncoded, ih]
          rfl

theorem decode_encode (s : List (BitVec 8)) : decode (encode s) = s := by
  have h := decode_encode_append s []
  rwa [List.append_nil, decode, List.append_nil] at h

theorem encoded_encode (s : List (BitVec 8)) : Encoded (encode s) := by
  induction s with
  | nil => exact .nil
  | cons b s ih =>
      have hb := b.isLt
      rw [encode, List.flatMap_cons, ← encode]
      cases hun : isUnreserved b with
      | true =>
          rw [encodeByte, hun, if_pos rfl]
          exact .unreserved hun ih
      | false =>
          rw [encodeByte, hun, if_neg (by simp)]
          exact .pct (by omega) (by omega) ih

theorem zero_notMem_of_encoded {t : List (BitVec 8)} (h : Encoded t) : (0 : BitVec 8) ∉ t := by
  have hdigit : ∀ n < 16, (0 : BitVec 8) ≠ hexDigit n := by decide
  induction h with
  | nil => exact List.not_mem_nil
  | unreserved hb ht ih =>
      rw [List.mem_cons, not_or]
      refine ⟨?_, ih⟩
      rintro rfl
      exact absurd hb (by decide)
  | pct hu hv ht ih =>
      rw [List.mem_cons, List.mem_cons, List.mem_cons, not_or, not_or, not_or]
      exact ⟨by decide, hdigit _ hu, hdigit _ hv, ih⟩

theorem hexValue_lt {b : BitVec 8} {u : Nat} (h : hexValue b = some u) : u < 16 := by
  have hall : ∀ b : BitVec 8, ∀ u ∈ hexValue b, u < 16 := by decide
  exact hall b u h

/-- Two digits stand for zero only if both are `0`. -/
theorem pctValue_eq_zero_iff {x y : BitVec 8} : pctValue x y = some 0 ↔ x = 0x30 ∧ y = 0x30 := by
  have hzero : ∀ b : BitVec 8, hexValue b = some 0 ↔ b = 0x30 := by decide
  constructor
  · intro h
    rw [pctValue] at h
    cases hx : hexValue x with
    | none => simp [hx] at h
    | some u =>
        cases hy : hexValue y with
        | none => simp [hx, hy] at h
        | some v =>
            rw [hx, hy] at h
            have hval : (16 * u + v) % 256 = 0 := congrArg BitVec.toNat (Option.some.inj h)
            have hu := hexValue_lt hx
            have hv := hexValue_lt hy
            obtain rfl : u = 0 := by omega
            obtain rfl : v = 0 := by omega
            exact ⟨(hzero x).mp hx, (hzero y).mp hy⟩
  · rintro ⟨rfl, rfl⟩
    decide

/-- The text `%00` in front. -/
theorem pctZero_prefix_iff {b : BitVec 8} {t : List (BitVec 8)} :
    [0x25, 0x30, 0x30] <+: b :: t ↔ b = 0x25 ∧ [0x30, 0x30] <+: t := by
  rw [List.cons_prefix_cons, eq_comm]

/-- A decoded zero comes from `%00`: the percent sign of one is never read as a
    digit of another, so that each occurrence counts. -/
theorem zero_mem_decode_iff {t : List (BitVec 8)} (hfree : (0 : BitVec 8) ∉ t) :
    (0 : BitVec 8) ∈ decode t ↔ [0x25, 0x30, 0x30] <:+: t := by
  have hdigit : hexValue 0x25 = none := by decide
  induction t using decode.induct with
  | case1 => simp [decode]
  | case2 b =>
      refine iff_of_false hfree fun h => ?_
      simpa using h.length_le
  | case3 b x =>
      refine iff_of_false hfree fun h => ?_
      simpa using h.length_le
  | case4 b x y rest v hv ih =>
      have hb : b = 0x25 := by
        by_contra hne
        rw [if_neg hne] at hv
        cases hv
      subst hb
      rw [if_pos rfl] at hv
      have hx : x ≠ 0x25 := by
        rintro rfl
        rw [pctValue, hdigit] at hv
        cases hv
      have hy : y ≠ 0x25 := by
        rintro rfl
        rw [pctValue, hdigit] at hv
        cases hx' : hexValue x with
        | none => simp [hx'] at hv
        | some u => simp [hx'] at hv
      have hrest : (0 : BitVec 8) ∈ decode rest ↔ [0x25, 0x30, 0x30] <:+: rest :=
        ih fun h => hfree (List.mem_cons_of_mem _ (List.mem_cons_of_mem _ (List.mem_cons_of_mem _ h)))
      rw [decode, if_pos rfl, hv, List.infix_cons_iff, List.infix_cons_iff, List.infix_cons_iff,
        pctZero_prefix_iff, pctZero_prefix_iff, pctZero_prefix_iff]
      show 0 ∈ v :: decode rest ↔ _
      rw [List.mem_cons, hrest, List.cons_prefix_cons, List.cons_prefix_cons]
      have hzero : 0 = v ↔ 0x30 = x ∧ 0x30 = y := by
        have h := @pctValue_eq_zero_iff x y
        rw [hv, Option.some.injEq] at h
        rw [eq_comm, h, eq_comm, @eq_comm _ y]
      rw [hzero]
      constructor
      · rintro (⟨hx0, hy0⟩ | h)
        · exact Or.inl ⟨rfl, hx0, hy0, List.nil_prefix⟩
        · exact Or.inr (Or.inr (Or.inr h))
      · rintro (⟨-, hx0, hy0, -⟩ | ⟨h, -⟩ | ⟨h, -⟩ | h)
        · exact Or.inl ⟨hx0, hy0⟩
        · exact absurd h hx
        · exact absurd h hy
        · exact Or.inr h
  | case5 b x y rest hv ih =>
      have hrest : (0 : BitVec 8) ∈ decode (x :: y :: rest) ↔
          [0x25, 0x30, 0x30] <:+: x :: y :: rest :=
        ih fun h => hfree (List.mem_cons_of_mem b h)
      have hb : (0 : BitVec 8) ≠ b := fun h => hfree (by simp [h])
      have hnot : ¬ (b = 0x25 ∧ [0x30, 0x30] <+: x :: y :: rest) := by
        rintro ⟨rfl, hpre⟩
        rw [List.cons_prefix_cons, List.cons_prefix_cons] at hpre
        rw [if_pos rfl, pctValue_eq_zero_iff.mpr ⟨hpre.1.symm, hpre.2.1.symm⟩] at hv
        cases hv
      rw [decode, hv, List.infix_cons_iff, pctZero_prefix_iff]
      show 0 ∈ b :: decode (x :: y :: rest) ↔ _
      rw [List.mem_cons, hrest, or_iff_right hb, or_iff_right hnot]

/-- Decoding does not make a text longer. -/
theorem length_decode_le (t : List (BitVec 8)) : (decode t).length ≤ t.length := by
  induction t using decode.induct with
  | case1 => exact Nat.le_refl _
  | case2 => exact Nat.le_refl _
  | case3 => exact Nat.le_refl _
  | case4 b x y rest v hv ih =>
      rw [decode, hv]
      simp only [List.length_cons] at ih ⊢
      omega
  | case5 b x y rest hv ih =>
      rw [decode, hv]
      simp only [List.length_cons] at ih ⊢
      omega

end Curl1C.Lib.Rfc3986
