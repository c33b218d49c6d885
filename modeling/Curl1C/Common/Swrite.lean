/-
  Curl1C.Common.Swrite

  `curl_swrite` of Common.cpp, the write callback that collects a response in
  a `std::string`.

  The call `append((char*)ptr, 0, size * count)` has three arguments, so it is
  the overload on another `std::string`: `ptr` is first converted to a
  temporary `std::string`, which ends at the first NUL, and at most
  `size * count` characters of it are appended.  The conversion looks for that
  NUL in the buffer and then in the memory behind it (`beyond`).

  Main result: `accumulates_iff`.
-/

import Curl1C.Text
import Curl1C.Lib.Run

namespace Curl1C

open Lib

/-- One write-callback invocation: libcurl's buffer of `size * count` bytes and
    the readable memory right behind it. -/
structure Chunk where
  size : Nat
  count : Nat
  buf : List Byte
  beyond : List Byte
  length_buf : buf.length = size * count
  /-- the buffer lies in a 32-bit address space -/
  fits : buf.length < 2 ^ 32

/-- `size * count` in `size_t` arithmetic. -/
def Chunk.nbytes (c : Chunk) : Nat := c.size * c.count % 2 ^ 32

theorem Chunk.nbytes_eq (c : Chunk) : c.nbytes = c.buf.length := by
  unfold Chunk.nbytes
  rw [← c.length_buf, Nat.mod_eq_of_lt c.fits]

/-- `curl_swrite`: the string after the call and the returned count. -/
def curlSwrite (c : Chunk) (stream : List Byte) : Option (List Byte × Nat) :=
  (stringOfPtr (c.buf ++ c.beyond)).map fun str =>
    (stringAppend stream str 0 c.nbytes, c.nbytes)

/-- One callback as a step on the collected string. -/
def swriteStep (stream : List Byte) (c : Chunk) : Option (List Byte) :=
  (curlSwrite c stream).map Prod.fst

/-- The response body a cutting stands for. -/
def bodyOf (cs : List Chunk) : List Byte := cs.flatMap Chunk.buf

/-- The call returns the number of bytes by which the string grew. -/
def ReturnsAppended (stream : List Byte) (c : Chunk) : Prop :=
  ∃ stream' n, curlSwrite c stream = some (stream', n) ∧
    stream'.length = stream.length + n

/-- What a collecting write callback owes: from the empty string the chunks are
    concatenated, and every call returns what it appended. -/
def Accumulates (cs : List Chunk) : Prop :=
  runOps swriteStep [] cs = some (bodyOf cs) ∧
    Along swriteStep [] cs (fun _ stream c => ReturnsAppended stream c)

/-- The chunk holds no NUL byte, but the memory behind it does. -/
def Chunk.Textual (c : Chunk) : Prop := (0 : Byte) ∉ c.buf ∧ (0 : Byte) ∈ c.beyond

/-! ## One call -/

theorem takeWhile_append_of_notMem {buf beyond : List Byte} (h : (0 : Byte) ∉ buf) :
    (buf ++ beyond).takeWhile (fun b => decide (b ≠ 0)) =
      buf ++ beyond.takeWhile (fun b => decide (b ≠ 0)) := by
  apply List.takeWhile_append_of_pos
  intro b hb
  have hne : b ≠ 0 := fun h0 => h (h0 ▸ hb)
  simpa using hne

/-- A textual chunk is appended as it is. -/
theorem curlSwrite_of_textual {c : Chunk} (h : c.Textual) (stream : List Byte) :
    curlSwrite c stream = some (stream ++ c.buf, c.buf.length) := by
  obtain ⟨hbuf, hbeyond⟩ := h
  have hmem : (0 : Byte) ∈ c.buf ++ c.beyond := List.mem_append_right _ hbeyond
  unfold curlSwrite stringOfPtr
  rw [if_pos hmem]
  simp only [Option.map_some, stringAppend, CStr.ofBuf, List.drop_zero, c.nbytes_eq]
  rw [takeWhile_append_of_notMem hbuf, List.take_left']
  rfl

/-- A call that returns what it appended was given a textual chunk: the
    temporary string reached the end of the buffer. -/
theorem textual_of_returnsAppended {c : Chunk} {stream : List Byte}
    (h : ReturnsAppended stream c) : c.Textual := by
  obtain ⟨stream', n, hcall, hlen⟩ := h
  unfold curlSwrite stringOfPtr at hcall
  split at hcall
  case isFalse => simp at hcall
  case isTrue hmem =>
    simp only [Option.map_some, Option.some.injEq, Prod.mk.injEq, stringAppend,
      List.drop_zero, c.nbytes_eq] at hcall
    obtain ⟨rfl, rfl⟩ := hcall
    have hfull : c.buf.length ≤ (CStr.ofBuf (c.buf ++ c.beyond)).bytes.length := by
      simp only [List.length_append, List.length_take] at hlen
      omega
    have hpre : (CStr.ofBuf (c.buf ++ c.beyond)).bytes <+: c.buf ++ c.beyond :=
      List.takeWhile_prefix _
    have hbuf : c.buf <+: (CStr.ofBuf (c.buf ++ c.beyond)).bytes :=
      List.prefix_of_prefix_length_le (List.prefix_append _ _) hpre hfull
    have hnul : (0 : Byte) ∉ c.buf := fun h0 =>
      (CStr.ofBuf (c.buf ++ c.beyond)).nulFree (hbuf.subset h0)
    exact ⟨hnul, (List.mem_append.mp hmem).resolve_left hnul⟩

/-! ## Any sequence of calls -/

theorem runOps_swriteStep_of_textual {cs : List Chunk} (h : ∀ c ∈ cs, c.Textual)
    (stream : List Byte) :
    runOps swriteStep stream cs = some (stream ++ bodyOf cs) := by
  induction cs generalizing stream with
  | nil => simp [bodyOf]
  | cons c cs ih =>
      have hc : swriteStep stream c = some (stream ++ c.buf) := by
        unfold swriteStep
        rw [curlSwrite_of_textual (h c (by simp))]
        rfl
      rw [runOps_cons, hc, Option.bind_some, ih (fun d hd => h d (by simp [hd]))]
      simp [bodyOf]

/-- The callback does its work on a cutting exactly when every chunk of it is
    textual; on such cuttings the string depends on the body alone. -/
theorem accumulates_iff (cs : List Chunk) :
    (Accumulates cs ↔ ∀ c ∈ cs, c.Textual) ∧
    (∀ cs', (∀ c ∈ cs, c.Textual) → (∀ c ∈ cs', c.Textual) → bodyOf cs = bodyOf cs' →
      runOps swriteStep [] cs = runOps swriteStep [] cs') := by
  refine ⟨⟨?_, ?_⟩, ?_⟩
  · rintro ⟨hrun, halong⟩ c hc
    -- the run came back, so it passed through a state just before `c`
    obtain ⟨hist, rest, rfl⟩ := List.append_of_mem hc
    rw [runOps_append, Option.bind_eq_some_iff] at hrun
    obtain ⟨stream, hstream, -⟩ := hrun
    exact textual_of_returnsAppended (halong hist c rest rfl stream hstream)
  · intro h
    refine ⟨by simpa using runOps_swriteStep_of_textual h [], ?_⟩
    rintro hist c rest rfl stream -
    have hc : c.Textual := h c (by simp)
    exact ⟨_, _, curlSwrite_of_textual hc stream, by simp⟩
  · intro cs' h h' hbody
    rw [runOps_swriteStep_of_textual h, runOps_swriteStep_of_textual h', hbody]

/-- The body `a NUL b`, handed over in one piece. -/
def chunkWithNul : Chunk :=
  { size := 1, count := 3, buf := [0x61, 0, 0x62], beyond := [0],
    length_buf := rfl, fits := by decide }

/-- One chunk with a NUL inside: the string stops at the NUL, while the call
    returns the size of the whole chunk. -/
theorem not_accumulates_nul :
    curlSwrite chunkWithNul [] = some ([0x61], 3) ∧ ¬ Accumulates [chunkWithNul] := by
  refine ⟨by decide, ?_⟩
  rintro ⟨hrun, -⟩
  revert hrun
  decide

end Curl1C
