/-
  Curl1C.Base64.Script

  The script methods `ToBase64` and `FromBase64` of Context.h.

  Each hands its argument to the codec as a `std::string` and keeps the result
  in a function-static `std::string` (`encoded`), which is resized in place
  and therefore holds the result of the previous call.  The value returned to
  the script is a `CString` built from `encoded.c_str()`, so it ends at the
  first NUL of the result.

  Main result: `base64_inverse_iff`.
-/

import Curl1C.Base64.RoundTrip

namespace Curl1C

open Lib

/-! ## The methods -/

/-- `CcURL::ToBase64`: the value returned after success, `none` for FALSE, and
    the static string afterwards. -/
def toBase64 (encoded : List Byte) (input : CStr) : Option (Option CStr × List Byte) :=
  if input.isEmpty then some (some CStr.empty, encoded)
  else (Base64.encode input.bytes encoded).map fun (ok, encoded) =>
    (if ok then some (CStr.ofBuf encoded) else none, encoded)

/-- `CcURL::FromBase64`; its static string is called `encoded` too. -/
def fromBase64 (encoded : List Byte) (input : CStr) : Option (Option CStr × List Byte) :=
  if input.isEmpty then some (some CStr.empty, encoded)
  else (Base64.decode input.bytes encoded).map fun (ok, encoded) =>
    (if ok then some (CStr.ofBuf encoded) else none, encoded)

/-- The Base64 encoding of a byte string as a text of the script. -/
def base64Text (b : List Byte) : CStr := ⟨Rfc4648.encode b, Rfc4648.zero_notMem_encode b⟩

/-! ## Texts and byte strings -/

theorem CStr.ofBuf_of_nulFree {b : List Byte} (hb : (0 : Byte) ∉ b) : (CStr.ofBuf b).bytes = b := by
  rw [CStr.ofBuf, List.takeWhile_eq_self_iff]
  intro c hc
  have hne : c ≠ 0 := fun heq => hb (heq ▸ hc)
  exact decide_eq_true hne

@[simp] theorem CStr.ofBuf_bytes (s : CStr) : CStr.ofBuf s.bytes = s :=
  CStr.ext (CStr.ofBuf_of_nulFree s.nulFree)

/-- A text has the bytes it was read from only if there is no NUL in them. -/
theorem CStr.ofBuf_bytes_eq_iff {b : List Byte} : (CStr.ofBuf b).bytes = b ↔ (0 : Byte) ∉ b := by
  constructor
  · intro heq
    have hfree := (CStr.ofBuf b).nulFree
    rwa [heq] at hfree
  · exact CStr.ofBuf_of_nulFree

theorem base64Text_isEmpty {b : List Byte} (hb : b ≠ []) : ¬ (base64Text b).isEmpty = true := by
  intro hempty
  have hlen := Rfc4648.length_encode b
  have hpos := List.length_pos_of_ne_nil hb
  rw [CStr.isEmpty_iff] at hempty
  have hnil : (Rfc4648.encode b).length = 0 := congrArg CStr.length hempty
  omega

/-! ## What the methods return -/

/-- `ToBase64` encodes. -/
theorem toBase64_eq (encoded : List Byte) (x : CStr)
    (hlen : 6 * (Rfc4648.encode x.bytes).length < 2 ^ 32) :
    ∃ encoded', toBase64 encoded x = some (some (base64Text x.bytes), encoded') := by
  unfold toBase64
  by_cases hempty : x.isEmpty = true
  · rw [if_pos hempty]
    rw [CStr.isEmpty_iff] at hempty
    subst hempty
    exact ⟨encoded, rfl⟩
  · rw [if_neg hempty, Base64.encode_eq_rfc x.bytes encoded hlen]
    have htext : CStr.ofBuf (Rfc4648.encode x.bytes) = base64Text x.bytes :=
      CStr.ofBuf_bytes (base64Text x.bytes)
    refine ⟨Rfc4648.encode x.bytes, ?_⟩
    simp only [Option.map_some, if_true, htext]

/-- `FromBase64` decodes, up to the first NUL of the result. -/
theorem fromBase64_eq (encoded b : List Byte) (hlen : 6 * (Rfc4648.encode b).length < 2 ^ 32) :
    ∃ encoded', fromBase64 encoded (base64Text b) = some (some (CStr.ofBuf b), encoded') := by
  unfold fromBase64
  by_cases hb : b = []
  · subst hb
    exact ⟨encoded, rfl⟩
  · rw [if_neg (base64Text_isEmpty hb)]
    have hdecode : Base64.decode (base64Text b).bytes encoded = some (true, b) :=
      Base64.decode_rfc hb hlen encoded
    rw [hdecode]
    exact ⟨b, rfl⟩

/-- Different byte strings have different encodings: `Decode` tells them
    apart. -/
theorem base64Text_injective {b c : List Byte} (heq : base64Text b = base64Text c) : b = c := by
  have hbytes : Rfc4648.encode b = Rfc4648.encode c := congrArg CStr.bytes heq
  calc b = (Base64.decodeSink (Rfc4648.encode b)).values := (Base64.decodeSink_payload b _).symm
    _ = (Base64.decodeSink (Rfc4648.encode c)).values := by rw [hbytes]
    _ = c := Base64.decodeSink_payload c _

/-- What is left of a byte string as a text has no longer an encoding. -/
theorem length_encode_ofBuf_le (b : List Byte) :
    (Rfc4648.encode (CStr.ofBuf b).bytes).length ≤ (Rfc4648.encode b).length := by
  have hle : (CStr.ofBuf b).bytes.length ≤ b.length := (List.takeWhile_prefix _).length_le
  rw [Rfc4648.length_encode, Rfc4648.length_encode]
  omega

/-- A text survives `ToBase64` and `FromBase64`.  The encoding of a byte string
    survives `FromBase64` and `ToBase64` exactly when there is no NUL in the
    byte string.  The static strings may hold anything. -/
theorem base64_inverse_iff (x : CStr) (b encoded encoded' : List Byte)
    (hx : 6 * (Rfc4648.encode x.bytes).length < 2 ^ 32)
    (hb : 6 * (Rfc4648.encode b).length < 2 ^ 32) :
    (∃ t e e', toBase64 encoded x = some (some t, e) ∧
      fromBase64 encoded' t = some (some x, e')) ∧
    (∃ y e', fromBase64 encoded' (base64Text b) = some (some y, e') ∧
      ((∃ e, toBase64 encoded y = some (some (base64Text b), e)) ↔ (0 : Byte) ∉ b)) := by
  constructor
  · obtain ⟨e, hto⟩ := toBase64_eq encoded x hx
    obtain ⟨e', hfrom⟩ := fromBase64_eq encoded' x.bytes hx
    rw [CStr.ofBuf_bytes] at hfrom
    exact ⟨base64Text x.bytes, e, e', hto, hfrom⟩
  · obtain ⟨e', hfrom⟩ := fromBase64_eq encoded' b hb
    -- what comes back ends in front of the first NUL
    refine ⟨CStr.ofBuf b, e', hfrom, ?_⟩
    have hshort := length_encode_ofBuf_le b
    obtain ⟨e, hto⟩ := toBase64_eq encoded (CStr.ofBuf b) (by omega)
    rw [hto, ← CStr.ofBuf_bytes_eq_iff]
    constructor
    · rintro ⟨_, heq⟩
      have htext : base64Text (CStr.ofBuf b).bytes = base64Text b := by
        simpa using congrArg (Option.map Prod.fst) heq
      exact base64Text_injective htext
    · intro hbytes
      exact ⟨e, by rw [hbytes]⟩

theorem base64_inverse_any :
    (∃ t e e', toBase64 [] (CStr.lit "any") = some (some t, e) ∧
      fromBase64 [] t = some (some (CStr.lit "any"), e')) ∧
    (∃ y e', fromBase64 [] (base64Text [0xff]) = some (some y, e') ∧
      ∃ e, toBase64 [] y = some (some (base64Text [0xff]), e)) := by
  obtain ⟨htext, y, e', hfrom, hto⟩ :=
    base64_inverse_iff (CStr.lit "any") [0xff] [] [] (by decide) (by decide)
  exact ⟨htext, y, e', hfrom, hto.mpr (by decide)⟩

/-- `AGE=` encodes a NUL and an `a`; `FromBase64` returns the empty text for
    it. -/
theorem fromBase64_loses_nul :
    base64Text [0x00, 0x61] = CStr.lit "AGE=" ∧
    fromBase64 [] (CStr.lit "AGE=") = some (some CStr.empty, [0x00, 0x61]) ∧
    toBase64 [] CStr.empty = some (some CStr.empty, []) := by
  refine ⟨by decide +kernel, by decide +kernel, rfl⟩

end Curl1C
