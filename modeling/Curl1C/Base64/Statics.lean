/-
  Curl1C.Base64.Statics

  Sequences of calls of `ToBase64` and `FromBase64`.

  Both methods keep their result in a function-static string, which is resized
  in place and so starts with bytes of earlier results.  A result is returned
  to the script only if the stores of the call filled the string, and then
  nothing of the old contents is left.

  Main result: `base64_calls_independent`.
-/

import Curl1C.Base64.Script
import Curl1C.Base64.Bounds
import Curl1C.Lib.Observe

namespace Curl1C

open Lib Base64

/-! ## The static strings -/

/-- The static string `encoded` of each of the two methods. -/
structure Base64Statics where
  toEncoded : List Byte
  fromEncoded : List Byte

/-- A call with its argument. -/
inductive Base64Call where
  | toBase64 (input : CStr)
  | fromBase64 (input : CStr)

namespace Base64Statics

/-- One call: the value returned (`none` inside for FALSE), and the strings
    afterwards. -/
def call (s : Base64Statics) : Base64Call → Option (Option CStr × Base64Statics)
  | .toBase64 input =>
      (Curl1C.toBase64 s.toEncoded input).map fun (ret, e) => (ret, { s with toEncoded := e })
  | .fromBase64 input =>
      (Curl1C.fromBase64 s.fromEncoded input).map fun (ret, e) => (ret, { s with fromEncoded := e })

/-- What the script sees of a call. -/
def reply (s : Base64Statics) (c : Base64Call) : Option (Option CStr) := (s.call c).map Prod.fst

/-- What a call does to the strings. -/
def step (s : Base64Statics) (c : Base64Call) : Option Base64Statics := (s.call c).map Prod.snd

end Base64Statics

/-! ## Filled outputs -/

namespace Base64

variable {sink : Sink Byte} {n : Nat} {out out' : List Byte}

/-- An output that is reported as filled holds the stored bytes only. -/
theorem eq_values_of_fill (h : fill sink n out = some (true, out')) : out' = sink.values := by
  obtain ⟨-, hfits, hfull⟩ := fill_eq_some_iff.mp ⟨out', h⟩
  have hlen : sink.len = n := of_decide_eq_true hfull.symm
  subst hlen
  rw [fill_of_len out hfits] at h
  exact (Prod.mk.inj (Option.some.inj h)).2.symm

/-- Each byte of a filled output was stored at its place. -/
theorem mem_stores_of_fill (h : fill sink n out = some (true, out')) {i : Nat} {b : Byte}
    (hb : out'[i]? = some b) : (i, b) ∈ sink.stores := by
  rw [eq_values_of_fill h] at hb
  exact Sink.mem_stores_iff.mpr hb

/-- The text of an output, if it was filled. -/
def filledText (p : Bool × List Byte) : Option CStr := if p.1 then some (CStr.ofBuf p.2) else none

/-- It does not depend on the contents before. -/
theorem map_filledText_fill (sink : Sink Byte) (n : Nat) (out out' : List Byte) :
    (fill sink n out).map filledText = (fill sink n out').map filledText := by
  by_cases hlen : sink.len = n
  · subst hlen
    by_cases hfits : sink.len < allocLimit
    · rw [fill_of_len out hfits, fill_of_len out' hfits]
    · rw [fill_eq, fill_eq, if_neg fun h => hfits h.2, if_neg fun h => hfits h.2]
  · -- the call returns FALSE, whatever the string holds
    have hok : decide (sink.len = n) = false := decide_eq_false hlen
    rw [fill_eq, fill_eq, hok]
    split <;> rfl

end Base64

/-! ## Calls -/

theorem toBase64_map_fst (e e' : List Byte) (input : CStr) :
    (toBase64 e input).map Prod.fst = (toBase64 e' input).map Prod.fst := by
  unfold toBase64
  split
  · rfl
  · have hfill := map_filledText_fill (encodeSink input.bytes) (encodedLength input.length) e e'
    rw [Option.map_map, Option.map_map]
    exact hfill

theorem fromBase64_map_fst (e e' : List Byte) (input : CStr) :
    (fromBase64 e input).map Prod.fst = (fromBase64 e' input).map Prod.fst := by
  unfold fromBase64
  split
  · rfl
  · rw [Option.map_map, Option.map_map, decode_eq_fill, decode_eq_fill]
    cases decodedLength input.bytes with
    | none => rfl
    | some n => exact map_filledText_fill (decodeSink input.bytes) n e e'

/-- Where `Decode` stays inside its buffer, `FromBase64` comes back. -/
theorem exists_fromBase64 {t : CStr} (hlen : 6 * t.length < 2 ^ 32) (hin : StaysInside t.bytes)
    (e : List Byte) : ∃ r, fromBase64 e t = some r := by
  unfold fromBase64
  split
  · exact ⟨_, rfl⟩
  · obtain ⟨htail, hfit⟩ := (staysInside_iff_le hlen).mp hin
    obtain ⟨out', hdecode⟩ := (decode_eq_some_iff hlen htail).mpr ⟨hfit, rfl⟩
    rw [hdecode]
    exact ⟨_, rfl⟩

namespace Base64Statics

/-- The reply to a call does not depend on the contents of the strings. -/
theorem reply_eq (s s' : Base64Statics) (c : Base64Call) : s.reply c = s'.reply c := by
  cases c with
  | toBase64 input =>
      have heq := toBase64_map_fst s.toEncoded s'.toEncoded input
      simp only [reply, call, Option.map_map]
      exact heq
  | fromBase64 input =>
      have heq := fromBase64_map_fst s.fromEncoded s'.fromEncoded input
      simp only [reply, call, Option.map_map]
      exact heq

/-- Nor does it whether the call comes back. -/
theorem step_rel (s s' : Base64Statics) (c : Base64Call) :
    Option.Rel (fun _ _ => True) (s.step c) (s'.step c) := by
  have heq := reply_eq s s' c
  unfold reply at heq
  unfold step
  cases hs : s.call c with
  | none =>
      rw [hs, Option.map_none, eq_comm, Option.map_eq_none_iff] at heq
      rw [heq]
      exact .none
  | some p =>
      rw [hs, Option.map_some, eq_comm, Option.map_eq_some_iff] at heq
      obtain ⟨p', hp', -⟩ := heq
      rw [hp']
      exact .some trivial

end Base64Statics

/-- Whatever earlier calls left in the two static strings, a sequence of calls
    gives the same replies: each byte of a result that `Encode` or `Decode`
    reports with true was stored by that call.  `FromBase64` replies wherever
    `Decode` stays inside its buffer, and `ToBase64` always does. -/
theorem base64_calls_independent :
    (∀ (s s' : Base64Statics) (calls : List Base64Call),
      observations Base64Statics.step Base64Statics.reply s calls =
        observations Base64Statics.step Base64Statics.reply s' calls) ∧
    (∀ x out out', encode x out = some (true, out') →
      ∀ i b, out'[i]? = some b → (i, b) ∈ (encodeSink x).stores) ∧
    (∀ t out out', decode t out = some (true, out') →
      ∀ i b, out'[i]? = some b → (i, b) ∈ (decodeSink t).stores) ∧
    (∀ (s : Base64Statics) (x : CStr), 6 * (Rfc4648.encode x.bytes).length < 2 ^ 32 →
      ∃ r, s.reply (.toBase64 x) = some r) ∧
    (∀ (s : Base64Statics) (t : CStr), 6 * t.length < 2 ^ 32 → StaysInside t.bytes →
      ∃ r, s.reply (.fromBase64 t) = some r) := by
  refine ⟨?_, ?_, ?_, ?_, ?_⟩
  · intro s s' calls
    exact observations_eq_of_rel (fun s t c _ => Base64Statics.reply_eq s t c)
      (fun s t c _ => Base64Statics.step_rel s t c) calls trivial
  · intro x out out' h i b hb
    exact mem_stores_of_fill h hb
  · intro t out out' h i b hb
    rw [decode_eq_fill, Option.bind_eq_some_iff] at h
    obtain ⟨n, -, hfill⟩ := h
    exact mem_stores_of_fill hfill hb
  · intro s x hx
    obtain ⟨e, hto⟩ := toBase64_eq s.toEncoded x hx
    simp only [Base64Statics.reply, Base64Statics.call, hto]
    exact ⟨_, rfl⟩
  · intro s t ht hin
    obtain ⟨r, hfrom⟩ := exists_fromBase64 ht hin s.fromEncoded
    simp only [Base64Statics.reply, Base64Statics.call, hfrom]
    exact ⟨_, rfl⟩

/-- A failed call leaves bytes behind; the next one does not show them. -/
theorem base64_calls_independent_failed :
    decode (CStr.lit "AA=A").bytes (CStr.lit "secret").bytes = some (false, [0, 0x65, 0x63]) ∧
    decode (CStr.lit "YW55").bytes [0, 0x65, 0x63] = some (true, (CStr.lit "any").bytes) ∧
    (0, 0x61) ∈ (decodeSink (CStr.lit "YW55").bytes).stores ∧
    ∃ r, (Base64Statics.mk [] [0, 0x65, 0x63]).reply (.fromBase64 (CStr.lit "YW55")) = some r := by
  obtain ⟨-, -, hstored, -, hreply⟩ := base64_calls_independent
  have hnext : decode (CStr.lit "YW55").bytes [0, 0x65, 0x63] =
      some (true, (CStr.lit "any").bytes) := by decide
  have hin : StaysInside (CStr.lit "YW55").bytes :=
    (staysInside_iff (CStr.lit "YW55").bytes (by decide) (by decide)).mpr (by decide)
  exact ⟨by decide, hnext, hstored _ _ _ hnext 0 0x61 (by decide),
    hreply ⟨[], [0, 0x65, 0x63]⟩ (CStr.lit "YW55") (by decide) hin⟩

end Curl1C
