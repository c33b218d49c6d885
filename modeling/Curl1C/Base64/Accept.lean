/-
  Curl1C.Base64.Accept

  Which texts `Base64::Decode` accepts.

  `Decode` does not look at what the characters are: `b64_lookup` answers 255
  for those outside the alphabet, and the loop goes on with it.  It returns true
  when the number of bytes stored for the characters in front of the first
  `'='` happens to be the size `DecodedLength` computed from the length of the
  text and its trailing `'='`.  That is so when the trailing `'='` are no more
  than what keeps the stores inside the output, and at most three less.

  Main result: `decode_accepts_iff`.
-/

import Curl1C.Base64.Bounds
import Curl1C.Base64.Script

namespace Curl1C

open Lib

namespace Base64

/-- The most trailing `'='` with which `Decode` stays inside its output. -/
def tailRoom (t : List Byte) : Nat := (4 - headLength t % 4) % 4 + 3 * middleLength t

/-- The trailing `'='` with which both counts agree. -/
def TailFits (t : List Byte) : Prop := tailLength t ≤ tailRoom t ∧ tailRoom t ≤ tailLength t + 3

/-! ## Both counts -/

section Numbers

variable {t : List Byte}

theorem tailFits_iff :
    TailFits t ↔ 3 * headLength t / 4 + tailLength t = 6 * t.length / 8 := by
  have hapart := headLength_add_tailLength_le t
  rw [TailFits, tailRoom, middleLength, ← three_mul_mod_four]
  omega

theorem tail_short_iff :
    tailLength t + 3 < tailRoom t ↔ 3 * headLength t / 4 + tailLength t < 6 * t.length / 8 := by
  have hapart := headLength_add_tailLength_le t
  rw [tailRoom, middleLength, ← three_mul_mod_four]
  omega

end Numbers

/-! ## Base64 text -/

theorem eqSign_notMem_of_isAlphabet {l : List Byte} (h : ∀ c ∈ l, Rfc4648.IsAlphabet c) :
    eqSign ∉ l := fun hmem => Rfc4648.not_isAlphabet_pad (h _ hmem)

theorem tailFits_of_wellFormed {t : List Byte} (h : Rfc4648.WellFormed t) : TailFits t := by
  obtain ⟨payload, k, rfl, halphabet, hone, hk⟩ := h
  rw [← eqSign_eq_pad]
  have hfree := eqSign_notMem_of_isAlphabet halphabet
  have hhead : headLength (payload ++ List.replicate k eqSign) = payload.length := by
    rw [headLength, takeWhile_append_pad hfree]
  have htail : tailLength (payload ++ List.replicate k eqSign) = k := by
    rw [tailLength, takeWhile_reverse_append_pad hfree, List.length_replicate]
  rw [tailFits_iff, hhead, htail, List.length_append, List.length_replicate]
  omega

end Base64

open Base64

theorem fromBase64_none_iff {text : CStr} (htext : text.isEmpty = false) (encoded : List Byte) :
    (∃ e, fromBase64 encoded text = some (none, e)) ↔
      ∃ out', decode text.bytes encoded = some (false, out') := by
  rw [fromBase64, htext, if_neg Bool.false_ne_true]
  constructor
  · rintro ⟨e, heq⟩
    obtain ⟨⟨ok, out'⟩, hdecode, hresult⟩ := Option.map_eq_some_iff.mp heq
    cases ok with
    | false => exact ⟨out', hdecode⟩
    | true => cases hresult
  · rintro ⟨out', hdecode⟩
    exact ⟨out', by rw [hdecode]; rfl⟩

section Text

variable {t : List Byte} (ht : ∃ c ∈ t, c ≠ eqSign) (hlen : 6 * t.length < 2 ^ 32)

include ht hlen

theorem decode_true_iff (out : List Byte) :
    (∃ out', decode t out = some (true, out')) ↔ TailFits t := by
  rw [decode_eq_some_iff hlen (tailLength_lt ht), tailFits_iff, eq_comm, decide_eq_true_iff]
  omega

/-- `FromBase64` reports a text only if its padding is short by more than three. -/
theorem fromBase64_reports_iff {text : CStr} (htext : text.bytes = t) (out : List Byte) :
    (∃ e, fromBase64 out text = some (none, e)) ↔ tailLength t + 3 < tailRoom t := by
  subst htext
  have hne : text.isEmpty = false := by
    obtain ⟨c, hc, -⟩ := ht
    cases hbytes : text.bytes with
    | nil => exact absurd hc (by simp [hbytes])
    | cons _ _ => simp [CStr.isEmpty, hbytes]
  rw [fromBase64_none_iff hne, decode_eq_some_iff hlen (tailLength_lt ht), tail_short_iff, eq_comm,
    decide_eq_false_iff_not]
  omega

end Text

/-- `Decode` accepts exactly the texts whose trailing `'='` make both counts
    agree.  Base64 text is among them, and so the accepted texts are the Base64
    texts only where nothing else fits; `FromBase64` reports the others only if
    the padding is short by more than three. -/
theorem decode_accepts_iff (t out : List Byte) (ht : ∃ c ∈ t, c ≠ eqSign)
    (hlen : 6 * t.length < 2 ^ 32) :
    ((∃ out', decode t out = some (true, out')) ↔ TailFits t) ∧
    (((∃ out', decode t out = some (true, out')) ↔ Rfc4648.WellFormed t) ↔
      (TailFits t → Rfc4648.WellFormed t)) ∧
    ∀ text : CStr, text.bytes = t →
      (((∃ e, fromBase64 out text = some (none, e)) ↔ ¬ Rfc4648.WellFormed t) ↔
        Rfc4648.WellFormed t ∨ tailLength t + 3 < tailRoom t) := by
  have haccepts := decode_true_iff ht hlen out
  have hwell := tailFits_of_wellFormed (t := t)
  refine ⟨haccepts, ?_, ?_⟩
  · rw [haccepts]
    constructor
    · intro hiff
      exact hiff.mp
    · intro hfits
      exact ⟨hfits, hwell⟩
  · intro text htext
    rw [fromBase64_reports_iff ht hlen htext]
    -- Base64 text is not short of padding
    have hapart : Rfc4648.WellFormed t → ¬ tailLength t + 3 < tailRoom t := by
      intro hform
      exact Nat.not_lt.mpr (hwell hform).2
    constructor
    · intro hiff
      by_cases hform : Rfc4648.WellFormed t
      · exact Or.inl hform
      · exact Or.inr (hiff.mpr hform)
    · rintro (hform | hshort)
      · exact iff_of_false (hapart hform) (not_not.mpr hform)
      · exact iff_of_true hshort fun hform => hapart hform hshort

/-- Two characters and their padding. -/
theorem decode_accepts_padded :
    ∃ out', decode (CStr.lit "QQ==").bytes [] = some (true, out') :=
  (decode_accepts_iff (CStr.lit "QQ==").bytes [] ⟨0x51, by decide, by decide⟩ (by decide)).1.mpr
    (by unfold TailFits; decide)

/-- Four characters outside the alphabet, and a single one inside it, are
    accepted; `FromBase64` returns three bytes for the first and an empty text
    for the second. -/
theorem decode_accepts_garbage :
    (∃ out', decode (CStr.lit "!!!!").bytes [] = some (true, out')) ∧
    ¬ Rfc4648.WellFormed (CStr.lit "!!!!").bytes ∧
    (fromBase64 [] (CStr.lit "!!!!")).map Prod.fst = some (some ⟨[0xff, 0xff, 0xbf], by decide⟩) ∧
    (∃ out', decode (CStr.lit "A").bytes [] = some (true, out')) ∧
    ¬ Rfc4648.WellFormed (CStr.lit "A").bytes ∧
    (fromBase64 [] (CStr.lit "A")).map Prod.fst = some (some CStr.empty) := by
  have hbang : decode (CStr.lit "!!!!").bytes [] = some (true, [0xff, 0xff, 0xbf]) := by decide
  have hone : decode (CStr.lit "A").bytes [] = some (true, []) := by decide
  refine ⟨⟨_, hbang⟩, ?_, by decide, ⟨_, hone⟩, ?_, by decide⟩
  · rintro ⟨payload, k, heq, halphabet, -, -⟩
    have hmem : (0x21 : Byte) ∈ (CStr.lit "!!!!").bytes := by decide
    rw [heq, List.mem_append] at hmem
    rcases hmem with hmem | hmem
    · have hbad := halphabet _ hmem
      revert hbad
      unfold Rfc4648.IsAlphabet
      decide
    · exact absurd (List.eq_of_mem_replicate hmem) (by decide)
  · rintro ⟨payload, k, heq, -, hone, hk⟩
    have hlength : 1 = payload.length + k := by
      have hcongr := congrArg List.length heq
      rwa [List.length_append, List.length_replicate] at hcongr
    omega

end Curl1C
