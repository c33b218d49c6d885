/-
  Curl1C.Base64.Bounds

  When `Base64::Decode` stays inside its buffers.

  `DecodedLength` sizes the output from the length of the whole input and its
  trailing `'='`; the loop of `Decode` stores for the characters in front of
  the first `'='`.  An input consists of a head without `'='`, a middle from
  the first `'='` to the last other character, and a tail of `'='`.  The two
  counts fit when the tail is not longer than what completes the last group of
  the head, plus three for every character of the middle.

  Main result: `staysInside_iff`.
-/

import Curl1C.Base64.Codec

namespace Curl1C.Base64

open Lib

/-- The number of characters in front of the first `'='`. -/
def headLength (t : List Byte) : Nat := (t.takeWhile (fun c => c ≠ eqSign)).length

/-- The number of trailing `'='`. -/
def tailLength (t : List Byte) : Nat := (t.reverse.takeWhile (fun c => c = eqSign)).length

/-- The number of characters from the first `'='` to the last character that is
    none. -/
def middleLength (t : List Byte) : Nat := t.length - headLength t - tailLength t

/-- `Decode` touches no memory beside its buffers: the scan stops inside `t`,
    the size does not go below zero, and every store is inside the output. -/
def StaysInside (t : List Byte) : Prop :=
  ∃ numEq, scanEq t.reverse = some numEq ∧ numEq ≤ 6 * t.length / 8 ∧
    ∀ n, decodedLength t = some n → ∀ w ∈ (decodeSink t).stores, w.1 < n

/-! ## What the loop stores -/

theorem length_decodeGroup (a4 : List Byte) : (decodeGroup a4).length = 3 := rfl

/-- With `i` characters pending, `m` more characters lead to three bytes for
    every four characters in all. -/
theorem len_decodeTail_foldl (u : List Byte) (s : DecodeState) (hpending : s.a4.length < 4) :
    (decodeTail (u.foldl decodeStep s)).len = s.out.len + 3 * (s.a4.length + u.length) / 4 := by
  induction u generalizing s with
  | nil =>
      rw [List.foldl_nil, List.length_nil]
      unfold decodeTail
      dsimp only
      by_cases hzero : s.a4.length = 0
      · rw [if_pos hzero, hzero]
        rfl
      · rw [if_neg hzero, Sink.len_putAll, List.length_take, length_decodeGroup]
        omega
  | cons c rest ih =>
      rw [List.foldl_cons, List.length_cons]
      by_cases hfull : s.a4.length = 3
      · -- the group is complete: its three bytes are stored
        have hstep : decodeStep s c =
            { a4 := [], out := s.out.putAll (decodeGroup (s.a4 ++ [c])) } := by
          simp [decodeStep, hfull]
        rw [ih _ (by simp [hstep]), hstep, Sink.len_putAll, length_decodeGroup, List.length_nil]
        omega
      · have hstep : decodeStep s c = { s with a4 := s.a4 ++ [c] } := by
          simp [decodeStep, hfull]
        have hlen : (decodeStep s c).a4.length = s.a4.length + 1 := by simp [hstep]
        rw [ih _ (by omega), hlen, hstep]
        dsimp only
        omega

/-- `Decode` stores three bytes for every four characters of the head. -/
theorem len_decodeSink (t : List Byte) : (decodeSink t).len = 3 * headLength t / 4 := by
  rw [decodeSink, decodeLoop_eq, len_decodeTail_foldl _ _ (by simp)]
  simp [Sink.len, headLength]

/-! ## Head and tail -/

/-- The head and the tail do not overlap. -/
theorem headLength_add_tailLength_le (t : List Byte) : headLength t + tailLength t ≤ t.length := by
  obtain ⟨u, v, hu, hsplit⟩ : ∃ u v, u = t.takeWhile (fun c => decide (c ≠ eqSign)) ∧ t = u ++ v :=
    ⟨_, t.dropWhile (fun c => decide (c ≠ eqSign)), rfl, by simp⟩
  have hhead : headLength t = u.length := by rw [hu, headLength]
  have hfree : eqSign ∉ u := by
    intro hmem
    rw [hu] at hmem
    have hne := List.mem_takeWhile_imp hmem
    simp at hne
  have htail : tailLength t ≤ v.length := by
    rw [tailLength, hsplit, List.reverse_append, List.takeWhile_append]
    split
    · -- no character of the head is counted from the end
      rw [takeWhile_reverse_of_notMem hfree, List.append_nil, List.length_reverse]
    · exact (List.takeWhile_prefix _).length_le.trans (List.length_reverse ..).le
  have htotal : t.length = u.length + v.length := by rw [hsplit, List.length_append]
  omega

/-- A text that is not made of `'='` only has something in front of its tail. -/
theorem tailLength_lt {t : List Byte} (ht : ∃ c ∈ t, c ≠ eqSign) : tailLength t < t.length := by
  obtain ⟨c, hc, hne⟩ := ht
  by_contra hge
  have hall : t.reverse.takeWhile (fun c => decide (c = eqSign)) = t.reverse := by
    apply (List.takeWhile_prefix _).eq_of_length_le
    rw [List.length_reverse]
    exact Nat.le_of_not_lt hge
  have hmem := List.mem_reverse.mpr hc
  rw [← hall] at hmem
  have heq := List.mem_takeWhile_imp hmem
  exact hne (of_decide_eq_true heq)

/-! ## Both counts -/

theorem scanEq_reverse (t : List Byte) :
    scanEq t.reverse = if tailLength t < t.length then some (tailLength t) else none := by
  rw [scanEq_eq, List.length_reverse]
  rfl

/-- The size of the output, where the scan stops and nothing wraps. -/
theorem decodedLength_eq {t : List Byte} (hlen : 6 * t.length < 2 ^ 32)
    (htail : tailLength t < t.length) (hsize : tailLength t ≤ 6 * t.length / 8) :
    decodedLength t = some (6 * t.length / 8 - tailLength t) := by
  unfold decodedLength sizeT
  rw [scanEq_reverse, if_pos htail, Option.map_some, Nat.mod_eq_of_lt hlen]
  congr 1
  omega

/-- `DecodedLength` wraps below zero when there is more padding than size. -/
theorem decodedLength_of_lt {t : List Byte} (hlen : 6 * t.length < 2 ^ 32)
    (htail : tailLength t < t.length) (hsize : 6 * t.length / 8 < tailLength t) :
    decodedLength t = some (6 * t.length / 8 + 2 ^ 32 - tailLength t) := by
  unfold decodedLength sizeT
  rw [scanEq_reverse, if_pos htail, Option.map_some, Nat.mod_eq_of_lt hlen,
    Nat.mod_eq_of_lt (by omega)]

/-- What `Decode` returns, in numbers. -/
theorem decode_eq_some_iff {t out : List Byte} (hlen : 6 * t.length < 2 ^ 32)
    (htail : tailLength t < t.length) {ok : Bool} :
    (∃ out', decode t out = some (ok, out')) ↔
      3 * headLength t / 4 + tailLength t ≤ 6 * t.length / 8 ∧
        ok = decide (3 * headLength t / 4 + tailLength t = 6 * t.length / 8) := by
  rw [decode_eq_fill]
  by_cases hsize : tailLength t ≤ 6 * t.length / 8
  · rw [decodedLength_eq hlen htail hsize, Option.bind_some, fill_eq_some_iff, len_decodeSink,
      allocLimit]
    have hle : 3 * headLength t / 4 ≤ 6 * t.length / 8 - tailLength t ↔
        3 * headLength t / 4 + tailLength t ≤ 6 * t.length / 8 := by omega
    have heq : 3 * headLength t / 4 = 6 * t.length / 8 - tailLength t ↔
        3 * headLength t / 4 + tailLength t = 6 * t.length / 8 := by omega
    have hsmall : 6 * t.length / 8 - tailLength t < 2 ^ 31 := by omega
    rw [hle, decide_eq_decide.mpr heq, and_iff_right hsmall]
  · -- a size that wrapped cannot be allocated
    rw [decodedLength_of_lt hlen htail (Nat.lt_of_not_le hsize), Option.bind_some,
      fill_eq_some_iff, allocLimit]
    exact iff_of_false (fun h => by omega) fun h => by omega

/-- The bytes a last group does not fill are as many as the characters it
    lacks. -/
theorem three_mul_mod_four (h : Nat) : 3 * h % 4 = (4 - h % 4) % 4 := by omega

/-- What staying inside amounts to in numbers. -/
theorem staysInside_iff_le {t : List Byte} (hlen : 6 * t.length < 2 ^ 32) :
    StaysInside t ↔ tailLength t < t.length ∧ 3 * headLength t / 4 + tailLength t ≤
      6 * t.length / 8 := by
  unfold StaysInside
  rw [scanEq_reverse]
  constructor
  · rintro ⟨numEq, hscan, hsize, hstores⟩
    split at hscan
    case isFalse => cases hscan
    case isTrue htail =>
      obtain rfl := Option.some.inj hscan
      have hfit := hstores _ (decodedLength_eq hlen htail hsize)
      rw [Sink.forall_stores_lt_iff, len_decodeSink] at hfit
      exact ⟨htail, by omega⟩
  · rintro ⟨htail, hfit⟩
    have hsize : tailLength t ≤ 6 * t.length / 8 := by omega
    refine ⟨tailLength t, if_pos htail, hsize, ?_⟩
    intro n hn
    obtain rfl := Option.some.inj ((decodedLength_eq hlen htail hsize).symm.trans hn)
    rw [Sink.forall_stores_lt_iff, len_decodeSink]
    omega

/-- `Decode` stays inside its buffers exactly when the trailing `'='` are no
    more than what completes the last group of the head, plus three for every
    character of the middle. -/
theorem staysInside_iff (t : List Byte) (ht : t ≠ []) (hlen : 6 * t.length < 2 ^ 32) :
    StaysInside t ↔ tailLength t ≤ (4 - headLength t % 4) % 4 + 3 * middleLength t := by
  have hpos : 0 < t.length := List.length_pos_iff.mpr ht
  have hapart := headLength_add_tailLength_le t
  rw [staysInside_iff_le hlen, middleLength, ← three_mul_mod_four]
  omega

theorem staysInside_padded : StaysInside (CStr.lit "QUJDRA==").bytes :=
  (staysInside_iff (CStr.lit "QUJDRA==").bytes (by decide) (by decide)).mpr
    (by decide)

/-- One superfluous `'='` behind a complete group: the third byte is stored
    behind the end of an output of two.  A text of `'='` alone: the scan does
    not stop. -/
theorem not_staysInside_superfluous :
    decodedLength (CStr.lit "AAAA=").bytes = some 2 ∧
    (decodeSink (CStr.lit "AAAA=").bytes).stores = [(0, 0), (1, 0), (2, 0)] ∧
    ¬ StaysInside (CStr.lit "AAAA=").bytes ∧
    scanEq (CStr.lit "=").bytes.reverse = none ∧ ¬ StaysInside (CStr.lit "=").bytes := by
  have hlength : decodedLength (CStr.lit "AAAA=").bytes = some 2 := by decide
  have hstores : (decodeSink (CStr.lit "AAAA=").bytes).stores = [(0, 0), (1, 0), (2, 0)] := by
    decide
  have hscan : scanEq (CStr.lit "=").bytes.reverse = none := by decide
  refine ⟨hlength, hstores, ?_, hscan, ?_⟩
  · rintro ⟨-, -, -, hinside⟩
    have hlast := hinside 2 hlength (2, 0) (by simp [hstores])
    exact absurd hlast (Nat.lt_irrefl 2)
  · rintro ⟨numEq, hsome, -⟩
    rw [hscan] at hsome
    cases hsome

end Curl1C.Base64
