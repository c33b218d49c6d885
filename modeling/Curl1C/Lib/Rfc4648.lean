/-
  Curl1C.Lib.Rfc4648

  The Base64 encoding of RFC 4648, section 4, as a function on byte lists.

  Three bytes form a 24-bit number, which is cut into four 6-bit digits; each
  digit is written as a character of the alphabet.  A last group of one or two
  bytes is filled up with zero bits, written with two or three characters
  (`payload`) and followed by the padding that completes four (`padding`).
-/

import Mathlib.Data.List.Basic
import Mathlib.Data.Nat.Init
import Mathlib.Algebra.Group.Nat.Defs

namespace Curl1C.Lib.Rfc4648

/-- The padding character `=`. -/
def pad : BitVec 8 := 0x3d

/-- The character of a 6-bit digit: `A` to `Z`, `a` to `z`, `0` to `9`, `+`,
    `/`. -/
def digitChar (d : Nat) : BitVec 8 :=
  if d < 26 then BitVec.ofNat 8 (65 + d)
  else if d < 52 then BitVec.ofNat 8 (97 + (d - 26))
  else if d < 62 then BitVec.ofNat 8 (48 + (d - 52))
  else if d = 62 then 0x2b
  else 0x2f

/-- The four 6-bit digits of a 24-bit number, the highest first. -/
def sextets (v : Nat) : List Nat :=
  [v / 2 ^ 18 % 64, v / 2 ^ 12 % 64, v / 2 ^ 6 % 64, v % 64]

/-- The 24-bit number three bytes form. -/
def group (a b c : BitVec 8) : Nat := a.toNat * 2 ^ 16 + b.toNat * 2 ^ 8 + c.toNat

/-- The characters of the encoding in front of the padding. -/
def payload : List (BitVec 8) → List (BitVec 8)
  | [] => []
  | [a] => ((sextets (group a 0 0)).take 2).map digitChar
  | [a, b] => ((sextets (group a b 0)).take 3).map digitChar
  | a :: b :: c :: rest => (sextets (group a b c)).map digitChar ++ payload rest

/-- The padding behind the payload of `n` bytes. -/
def padding (n : Nat) : List (BitVec 8) := List.replicate ((3 - n % 3) % 3) pad

/-- The Base64 encoding. -/
def encode (s : List (BitVec 8)) : List (BitVec 8) := payload s ++ padding s.length

/-- The characters of the alphabet. -/
def IsAlphabet (c : BitVec 8) : Prop :=
  (0x41 ≤ c ∧ c ≤ 0x5a) ∨ (0x61 ≤ c ∧ c ≤ 0x7a) ∨ (0x30 ≤ c ∧ c ≤ 0x39) ∨ c = 0x2b ∨ c = 0x2f

/-- Base64 text: characters of the alphabet, not one more than a multiple of
    four, and behind them no padding or the one or two characters that complete
    a multiple of four. -/
def WellFormed (t : List (BitVec 8)) : Prop :=
  ∃ payload k, t = payload ++ List.replicate k pad ∧ (∀ c ∈ payload, IsAlphabet c) ∧
    payload.length % 4 ≠ 1 ∧ (k = 0 ∨ ((k = 1 ∨ k = 2) ∧ (payload.length + k) % 4 = 0))

theorem length_payload (s : List (BitVec 8)) : (payload s).length = (4 * s.length + 2) / 3 := by
  induction s using payload.induct with
  | case1 => rfl
  | case2 a => simp [payload, sextets]
  | case3 a b => simp [payload, sextets]
  | case4 a b c rest ih =>
      simp only [payload, sextets, List.length_append, List.length_map, List.length_cons,
        List.length_nil, ih]
      omega

/-- The encoding has four characters for every three bytes begun. -/
theorem length_encode (s : List (BitVec 8)) : (encode s).length = 4 * ((s.length + 2) / 3) := by
  simp only [encode, padding, List.length_append, length_payload, List.length_replicate]
  omega

theorem digitChar_ne_pad {d : Nat} (hd : d < 64) : digitChar d ≠ pad := by
  have hall : ∀ d ∈ List.range 64, digitChar d ≠ pad := by decide
  exact hall d (List.mem_range.mpr hd)

theorem not_isAlphabet_pad : ¬ IsAlphabet pad := by
  unfold IsAlphabet
  decide

theorem sextets_lt (v : Nat) : ∀ d ∈ sextets v, d < 64 := by
  intro d hd
  simp only [sextets, List.mem_cons, List.not_mem_nil, or_false] at hd
  rcases hd with rfl | rfl | rfl | rfl <;> exact Nat.mod_lt _ (by decide)

/-- Every character of the payload stands for a digit. -/
theorem exists_digit_of_mem_payload {s : List (BitVec 8)} {c : BitVec 8} (hc : c ∈ payload s) :
    ∃ d < 64, digitChar d = c := by
  have hdigits : ∀ v, ∀ ds : List Nat, (∀ d ∈ ds, d ∈ sextets v) → c ∈ ds.map digitChar →
      ∃ d < 64, digitChar d = c := by
    intro v ds hsub hmem
    obtain ⟨d, hd, heq⟩ := List.mem_map.mp hmem
    exact ⟨d, sextets_lt v d (hsub d hd), heq⟩
  induction s using payload.induct with
  | case1 => exact absurd hc List.not_mem_nil
  | case2 a => exact hdigits _ _ (fun d hd => List.mem_of_mem_take hd) hc
  | case3 a b => exact hdigits _ _ (fun d hd => List.mem_of_mem_take hd) hc
  | case4 a b c rest ih =>
      rcases List.mem_append.mp hc with hhead | htail
      · exact hdigits _ _ (fun d hd => hd) hhead
      · exact ih htail

/-- No character of the payload is the padding character. -/
theorem pad_notMem_payload (s : List (BitVec 8)) : pad ∉ payload s := by
  intro hmem
  obtain ⟨d, hd, heq⟩ := exists_digit_of_mem_payload hmem
  exact digitChar_ne_pad hd heq

theorem digitChar_ne_zero {d : Nat} (hd : d < 64) : digitChar d ≠ 0 := by
  have hall : ∀ d ∈ List.range 64, digitChar d ≠ 0 := by decide
  exact hall d (List.mem_range.mpr hd)

/-- An encoding holds no NUL. -/
theorem zero_notMem_encode (s : List (BitVec 8)) : (0 : BitVec 8) ∉ encode s := by
  intro hmem
  rcases List.mem_append.mp hmem with hpayload | hpad
  · obtain ⟨d, hd, heq⟩ := exists_digit_of_mem_payload hpayload
    exact digitChar_ne_zero hd heq
  · obtain ⟨-, heq⟩ := List.mem_replicate.mp hpad
    cases heq

end Curl1C.Lib.Rfc4648
