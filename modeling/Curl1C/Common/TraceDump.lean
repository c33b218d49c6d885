/-
  Curl1C.Common.TraceDump

  The trace of a transfer: `my_trace` of Context.cpp and `my_trace_dump` of
  Common.cpp.

  A buffer is shown as message lines of at most 0x80 characters, each behind
  its offset.  Where a line ends at CR LF, the outer index is set to 0x80 in
  front of the next line, possibly below zero, and the increment of the outer
  loop brings it back: `size_t` has 32 bits and wraps.  A read outside the
  buffer is undefined behaviour: there the functions below have no result.

  Main result: `myTraceDump_cuts`.
-/

import Curl1C.Text
import Curl1C.Lib.Loop
import Curl1C.Lib.Lines

namespace Curl1C

open Lib

/-! ## Formatting -/

/-- An ASCII text as bytes. -/
def ascii (s : String) : List Byte := (CStr.lit s).bytes

/-- `%x`. -/
def formatX (n : Nat) : List Byte := (Nat.toDigits 16 n).map fun c => BitVec.ofNat 8 c.toNat

/-- `%d` of an `int`. -/
def formatD (n : BitVec 32) : List Byte := ascii (toString n.toInt)

/-- The heading `"%s, %d bytes (0x%x)\n"`. -/
def dumpHeading (text : CStr) (size : BitVec 32) : List Byte :=
  text.bytes ++ ascii ", " ++ formatD size ++ ascii " bytes (0x" ++ formatX size.toNat ++ ascii ")\n"

/-- The label `"%04x: "` of a line. -/
def offsetLabel (i : Nat) : List Byte := (formatX i).leftpad 4 0x30 ++ ascii ": "

/-- The character shown for a byte. -/
def shownChar (b : Byte) : Byte := if 0x20 ≤ b then b else 0x2e

/-! ## The loops -/

/-- `'\r'`. -/
def crByte : Byte := 0x0d

/-- `'\n'`. -/
def lfByte : Byte := 0x0a

/-- `width` as `size_t`. -/
def dumpWidth : BitVec 32 := 0x80

/-- `ptr[k]`. -/
def readAt (ptr : List Byte) (k : BitVec 32) : Option Byte := ptr[k.toNat]?

/-- `(k + 1 < size) && (ptr[k] == 0x0D) && (ptr[k + 1] == 0x0A)`. -/
def crlfTest (ptr : List Byte) (size k : BitVec 32) : Option Bool :=
  if k + 1 < size then
    (readAt ptr k).bind fun b =>
      if b = crByte then (readAt ptr (k + 1)).map fun b' => decide (b' = lfByte) else some false
  else some false

/-- The variables of the inner loop. -/
structure DumpLine where
  i : BitVec 32
  c : BitVec 32
  msg : List Byte

/-- One pass of the inner loop. -/
def dumpChar (ptr : List Byte) (size : BitVec 32) (s : DumpLine) : Option (Pass DumpLine) :=
  (crlfTest ptr size (s.i + s.c)).bind fun here =>
    if here then some (.leave { s with i := s.i + (s.c + 2 - dumpWidth) })
    else
      (readAt ptr (s.i + s.c)).bind fun b =>
        let msg := s.msg ++ [shownChar b]
        -- the second test, which saves an empty line if CR LF is at the width
        (crlfTest ptr size (s.i + s.c + 1)).bind fun ahead =>
          if ahead then some (.leave { s with i := s.i + (s.c + 3 - dumpWidth), msg := msg })
          else some (.next { s with c := s.c + 1, msg := msg })

/-- The inner loop for the line at `i`. -/
def dumpChars (fuel : Nat) (ptr : List Byte) (size i : BitVec 32) : Option DumpLine :=
  loop (fun s => decide (s.c < dumpWidth ∧ s.i + s.c < size)) (dumpChar ptr size) fuel
    { i := i, c := 0, msg := offsetLabel i.toNat }

/-- The index of the outer loop, and the messages so far. -/
structure DumpState where
  i : BitVec 32
  lines : List (List Byte)

/-- One pass of the outer loop, with its increment. -/
def dumpLine (fuel : Nat) (ptr : List Byte) (size : BitVec 32) (s : DumpState) :
    Option (Pass DumpState) :=
  (dumpChars fuel ptr size s.i).map fun t =>
    .next { i := t.i + dumpWidth, lines := s.lines ++ [t.msg] }

/-- `my_trace_dump`: the messages. -/
def myTraceDump (fuel : Nat) (text : CStr) (ptr : List Byte) (size : BitVec 32) :
    Option (List (List Byte)) :=
  (loop (fun s => decide (s.i < size)) (dumpLine fuel ptr size) fuel
    { i := 0, lines := [dumpHeading text size] }).map DumpState.lines

/-- `curl_infotype`. -/
inductive InfoType where
  | TEXT | HEADER_IN | HEADER_OUT | DATA_IN | DATA_OUT | SSL_DATA_IN | SSL_DATA_OUT | END

/-- The text `my_trace` puts in front of a dump. -/
def InfoType.dumpText : InfoType → Option CStr
  | .HEADER_IN => some (CStr.lit "<= Recv header")
  | .HEADER_OUT => some (CStr.lit "=> Send header")
  | .DATA_IN => some (CStr.lit "<= Recv data")
  | .DATA_OUT => some (CStr.lit "=> Send data")
  | .SSL_DATA_IN => some (CStr.lit "<= Recv SSL data")
  | .SSL_DATA_OUT => some (CStr.lit "=> Send SSL data")
  | .TEXT | .END => none

/-- `my_trace`: the messages.  A text is shown up to its NUL. -/
def myTrace (fuel : Nat) (type : InfoType) (data : List Byte) (size : BitVec 32) :
    Option (List (List Byte)) :=
  match type, type.dumpText with
  | .TEXT, _ => (stringOfPtr data).map fun s => [ascii "== Info, " ++ s]
  | _, some text => myTraceDump fuel text data size
  | _, none => some []

/-! ## One line -/

/-- The message for a line of the cutting. -/
def dumpedLine (ptr : List Byte) (p : Piece) : List Byte :=
  offsetLabel p.start ++ (p.elems ptr).map shownChar

section Line

variable {ptr : List Byte} {size : BitVec 32} {a : Nat}

/-- What holds when `c` characters of the line at `a` have been shown: no CR LF
    starts among them, and behind the first none starts at the next. -/
structure LineInv (ptr : List Byte) (a : Nat) (s : DumpLine) : Prop where
  start : s.i.toNat = a
  narrow : s.c.toNat ≤ 0x80
  inside : a + s.c.toNat ≤ ptr.length
  unbroken : ∀ d < s.c.toNat, ¬ PairAt crByte lfByte ptr (a + d)
  ahead : 0 < s.c.toNat → ¬ PairAt crByte lfByte ptr (a + s.c.toNat)
  shown : s.msg = offsetLabel a ++ ((ptr.drop a).take s.c.toNat).map shownChar

/-- What holds behind the inner loop: the line is that of the cutting, and the
    outer loop goes on where the cutting does. -/
structure LineDone (ptr : List Byte) (a : Nat) (t : DumpLine) : Prop where
  shown : t.msg = dumpedLine ptr (pieceAt crByte lfByte 0x80 ptr a)
  resume : cutFrom crByte lfByte 0x80 ptr (t.i + dumpWidth).toNat =
    cutFrom crByte lfByte 0x80 ptr (pieceAt crByte lfByte 0x80 ptr a).stop
  advance : a < (t.i + dumpWidth).toNat

/-- The loop is left where the line of the cutting stops. -/
theorem LineDone.of_stop {t : DumpLine} {p : Piece}
    (hpiece : pieceAt crByte lfByte 0x80 ptr a = p) (hmsg : t.msg = dumpedLine ptr p)
    (hnext : (t.i + dumpWidth).toNat = p.stop) (hadvance : a < p.stop) : LineDone ptr a t := by
  refine ⟨?_, ?_, ?_⟩
  · rw [hmsg, hpiece]
  · rw [hnext, hpiece]
  · rw [hnext]
    exact hadvance

theorem crlfTest_eq (hsize : size.toNat = ptr.length) {k : BitVec 32} (hk : k.toNat + 1 < 2 ^ 32) :
    crlfTest ptr size k = some (decide (PairAt crByte lfByte ptr k.toNat)) := by
  have hnext : (k + 1).toNat = k.toNat + 1 := by bv_omega
  have hguard : k + 1 < size ↔ k.toNat + 1 < ptr.length := by
    rw [BitVec.lt_def, hnext, hsize]
  unfold crlfTest readAt
  by_cases hlt : k.toNat + 1 < ptr.length
  · have hk' : k.toNat < ptr.length := by omega
    rw [if_pos (hguard.mpr hlt), hnext, List.getElem?_eq_getElem hk', List.getElem?_eq_getElem hlt]
    by_cases hcr : ptr[k.toNat] = crByte
    · simp [PairAt, hcr, List.getElem?_eq_getElem hk', List.getElem?_eq_getElem hlt]
    · simp [PairAt, hcr, List.getElem?_eq_getElem hk']
  · have hno : ¬ PairAt crByte lfByte ptr k.toNat := fun h => hlt h.lt_length
    rw [if_neg (fun h => hlt (hguard.mp h)), decide_eq_false hno]

/-- One more character of a line. -/
theorem take_succ_shown {c : Nat} (h : a + c < ptr.length) :
    ((ptr.drop a).take (c + 1)).map shownChar =
      ((ptr.drop a).take c).map shownChar ++ [shownChar ptr[a + c]] := by
  have hc : c < (ptr.drop a).length := by
    rw [List.length_drop]
    omega
  rw [List.take_add_one, List.getElem?_eq_getElem hc, List.getElem_drop]
  simp

section Bounded

variable (hbound : ptr.length + 0x80 ≤ 2 ^ 32)

include hbound

/-- Where the guard ends the line, it is full or the buffer is at its end. -/
theorem lineDone_of_guard (ha : a < ptr.length) {s : DumpLine} (h : LineInv ptr a s)
    (hguard : ¬ (s.c.toNat < 0x80 ∧ a + s.c.toNat < ptr.length)) : LineDone ptr a s := by
  have hinside := h.inside
  have hnarrow := h.narrow
  have hstart := h.start
  have hpos : 0 < s.c.toNat := by omega
  have hend : s.c.toNat = 0x80 ∨ a + s.c.toNat = ptr.length := by omega
  have hlen : lineLen crByte lfByte 0x80 ptr a = s.c.toNat :=
    lineLen_eq h.unbroken hnarrow hinside (hend.imp_right Or.inl)
  have hfirst : ¬ PairAt crByte lfByte ptr a := h.unbroken 0 hpos
  have hpiece := pieceAt_of_not_pairAt hfirst hlen
  rw [decide_eq_false (h.ahead hpos)] at hpiece
  have hnext : (s.i + dumpWidth).toNat = a + 0x80 := by
    unfold dumpWidth
    bv_omega
  refine ⟨?_, ?_, by omega⟩
  · rw [h.shown, hpiece]
    rfl
  · rw [hpiece, hnext]
    rcases hend with hfull | hstop
    · simp [Piece.stop, hfull]
    · -- the outer loop overshoots the end
      rw [cutFrom_of_le (by omega), cutFrom_of_le (by simp [Piece.stop, hstop])]

/-- A line that starts with CR LF is empty. -/
theorem lineDone_of_pairAt {s : DumpLine} (h : LineInv ptr a s)
    (hpair : PairAt crByte lfByte ptr (a + s.c.toNat)) :
    LineDone ptr a { s with i := s.i + (s.c + 2 - dumpWidth) } := by
  have hstart := h.start
  have hinside := hpair.lt_length
  -- behind the first character the second test would have seen it
  have hzero : s.c.toNat = 0 := by
    by_contra hpos
    exact h.ahead (Nat.pos_of_ne_zero hpos) hpair
  have hpiece : pieceAt crByte lfByte 0x80 ptr a = { start := a, len := 0, skips := true } := by
    rw [hzero] at hpair
    exact pieceAt_of_pairAt hpair
  have hnext : (s.i + (s.c + 2 - dumpWidth) + dumpWidth).toNat = a + 2 := by bv_omega
  have hmsg := h.shown
  rw [hzero] at hmsg
  exact LineDone.of_stop hpiece hmsg hnext (Nat.lt_add_of_pos_right (Nat.succ_pos 1))

/-- A line ends where the second test sees CR LF. -/
theorem lineDone_of_pairAt_succ {s : DumpLine} {msg : List Byte} (hstart : s.i.toNat = a)
    (hnarrow : s.c.toNat < 0x80)
    (hunbroken : ∀ d < s.c.toNat + 1, ¬ PairAt crByte lfByte ptr (a + d))
    (hpair : PairAt crByte lfByte ptr (a + s.c.toNat + 1))
    (hmsg : msg = offsetLabel a ++ ((ptr.drop a).take (s.c.toNat + 1)).map shownChar) :
    LineDone ptr a { s with i := s.i + (s.c + 3 - dumpWidth), msg := msg } := by
  have hinside := hpair.lt_length
  have hlen : lineLen crByte lfByte 0x80 ptr a = s.c.toNat + 1 :=
    lineLen_eq hunbroken hnarrow (by omega) (Or.inr (Or.inr hpair))
  have hfirst : ¬ PairAt crByte lfByte ptr a := hunbroken 0 (Nat.succ_pos _)
  have hpiece := pieceAt_of_not_pairAt hfirst hlen
  rw [decide_eq_true (show PairAt crByte lfByte ptr (a + (s.c.toNat + 1)) from hpair)] at hpiece
  have hnext : (s.i + (s.c + 3 - dumpWidth) + dumpWidth).toNat = a + (s.c.toNat + 1) + 2 := by
    bv_omega
  exact LineDone.of_stop hpiece hmsg hnext (show a < a + (s.c.toNat + 1) + 2 by omega)

variable (hsize : size.toNat = ptr.length)

include hsize

/-- One pass of the inner loop, by where the next CR LF starts. -/
theorem dumpChar_eq {s : DumpLine} (hin : s.i.toNat + s.c.toNat < ptr.length) :
    dumpChar ptr size s =
      if PairAt crByte lfByte ptr (s.i.toNat + s.c.toNat) then
        some (.leave { s with i := s.i + (s.c + 2 - dumpWidth) })
      else if PairAt crByte lfByte ptr (s.i.toNat + s.c.toNat + 1) then
        some (.leave { s with
          i := s.i + (s.c + 3 - dumpWidth)
          msg := s.msg ++ [shownChar ptr[s.i.toNat + s.c.toNat]] })
      else
        some (.next { s with
          c := s.c + 1
          msg := s.msg ++ [shownChar ptr[s.i.toNat + s.c.toNat]] }) := by
  have hhere : (s.i + s.c).toNat = s.i.toNat + s.c.toNat := by bv_omega
  have hnext : (s.i + s.c + 1).toNat = s.i.toNat + s.c.toNat + 1 := by bv_omega
  unfold dumpChar readAt
  rw [crlfTest_eq hsize (by omega), crlfTest_eq hsize (by omega), hhere, hnext, Option.bind_some,
    List.getElem?_eq_getElem hin]
  simp only [Option.bind_some, decide_eq_true_eq]

/-- The guard of the inner loop. -/
theorem dumpGuard_iff {s : DumpLine} (h : LineInv ptr a s) :
    (s.c < dumpWidth ∧ s.i + s.c < size) ↔ s.c.toNat < 0x80 ∧ a + s.c.toNat < ptr.length := by
  have hstart := h.start
  have hinside := h.inside
  have hsum : (s.i + s.c).toNat = a + s.c.toNat := by bv_omega
  rw [BitVec.lt_def, BitVec.lt_def, hsum, hsize]
  rfl

/-- The passes of the inner loop. -/
theorem dumpChar_spec {s : DumpLine} (h : LineInv ptr a s)
    (hguard : s.c.toNat < 0x80 ∧ a + s.c.toNat < ptr.length) :
    (∃ t, dumpChar ptr size s = some (.next t) ∧ LineInv ptr a t ∧
      0x80 - t.c.toNat < 0x80 - s.c.toNat) ∨
    ∃ t, dumpChar ptr size s = some (.leave t) ∧ LineDone ptr a t := by
  obtain rfl := h.start
  obtain ⟨hnarrow, hinside⟩ := hguard
  rw [dumpChar_eq hbound hsize hinside]
  by_cases hpair : PairAt crByte lfByte ptr (s.i.toNat + s.c.toNat)
  · rw [if_pos hpair]
    exact Or.inr ⟨_, rfl, lineDone_of_pairAt hbound h hpair⟩
  have hunbroken : ∀ d < s.c.toNat + 1, ¬ PairAt crByte lfByte ptr (s.i.toNat + d) := by
    intro d hd
    rcases Nat.lt_succ_iff_lt_or_eq.mp hd with hlt | rfl
    · exact h.unbroken d hlt
    · exact hpair
  have hmsg : s.msg ++ [shownChar ptr[s.i.toNat + s.c.toNat]] = offsetLabel s.i.toNat ++
      ((ptr.drop s.i.toNat).take (s.c.toNat + 1)).map shownChar := by
    rw [take_succ_shown hinside, h.shown, List.append_assoc]
  rw [if_neg hpair]
  by_cases hahead : PairAt crByte lfByte ptr (s.i.toNat + s.c.toNat + 1)
  · rw [if_pos hahead]
    exact Or.inr ⟨_, rfl, lineDone_of_pairAt_succ hbound rfl hnarrow hunbroken hahead hmsg⟩
  · -- no pair here and none next: the line goes on
    rw [if_neg hahead]
    have hc : (s.c + 1).toNat = s.c.toNat + 1 := by bv_omega
    refine Or.inl ⟨_, rfl, ⟨rfl, ?_, ?_, ?_, ?_, ?_⟩, ?_⟩
    · rw [hc]
      exact hnarrow
    · rw [hc]
      exact hinside
    · rw [hc]
      exact hunbroken
    · rw [hc]
      exact fun _ => hahead
    · rw [hc]
      exact hmsg
    · rw [hc]
      omega

/-- The inner loop shows the line of the cutting. -/
theorem dumpChars_spec {fuel : Nat} {i : BitVec 32} (hi : i.toNat < ptr.length)
    (hfuel : 0x80 < fuel) : ∃ t, dumpChars fuel ptr size i = some t ∧ LineDone ptr i.toNat t := by
  have hinit : LineInv ptr i.toNat { i := i, c := 0, msg := offsetLabel i.toNat } := by
    refine ⟨rfl, Nat.zero_le _, Nat.le_of_lt hi, ?_, ?_, ?_⟩
    · intro d hd
      exact absurd hd (Nat.not_lt_zero d)
    · intro hpos
      exact absurd hpos (Nat.lt_irrefl 0)
    · exact (List.append_nil _).symm
  refine loop_total (fun s => 0x80 - s.c.toNat) ?_ ?_ hinit hfuel
  · intro s h hguard
    have hdone := of_decide_eq_false hguard
    rw [dumpGuard_iff hbound hsize h] at hdone
    exact lineDone_of_guard hbound hi h hdone
  · intro s h hguard
    have hgo := of_decide_eq_true hguard
    rw [dumpGuard_iff hbound hsize h] at hgo
    exact dumpChar_spec hbound hsize h hgo

/-! ## The whole buffer -/

/-- `my_trace_dump` shows the cutting. -/
theorem myTraceDump_eq (text : CStr) {fuel : Nat} (hfuel : ptr.length + 0x80 < fuel) :
    myTraceDump fuel text ptr size = some (dumpHeading text size ::
      (cutFrom crByte lfByte 0x80 ptr 0).map (dumpedLine ptr)) := by
  obtain ⟨t, ht, hlines⟩ : ∃ t, loop (fun s : DumpState => decide (s.i < size))
      (dumpLine fuel ptr size) fuel { i := 0, lines := [dumpHeading text size] } = some t ∧
      t.lines = dumpHeading text size ::
        (cutFrom crByte lfByte 0x80 ptr 0).map (dumpedLine ptr) := by
    -- the messages so far and the lines still to come are the lines of the cutting
    refine loop_total (I := fun s => s.lines ++
        (cutFrom crByte lfByte 0x80 ptr s.i.toNat).map (dumpedLine ptr) =
      dumpHeading text size :: (cutFrom crByte lfByte 0x80 ptr 0).map (dumpedLine ptr))
      (fun s => ptr.length - s.i.toNat) ?_ ?_ rfl (by omega)
    · intro s h hguard
      have hend : ptr.length ≤ s.i.toNat := by
        have hnot := of_decide_eq_false hguard
        rw [BitVec.lt_def, hsize] at hnot
        exact Nat.le_of_not_lt hnot
      rw [cutFrom_of_le hend, List.map_nil, List.append_nil] at h
      exact h
    · intro s h hguard
      have hin : s.i.toNat < ptr.length := by
        have hlt := of_decide_eq_true hguard
        rwa [BitVec.lt_def, hsize] at hlt
      obtain ⟨t, ht, hdone⟩ := dumpChars_spec hbound hsize hin (show 0x80 < fuel by omega)
      refine Or.inl ⟨_, congrArg _ ht, ?_, ?_⟩
      · rw [← h, cutFrom_of_lt hin, hdone.resume, hdone.shown, List.map_cons, List.append_assoc]
        rfl
      · have hadvance := hdone.advance
        show ptr.length - (t.i + dumpWidth).toNat < ptr.length - s.i.toNat
        omega
  rw [myTraceDump, ht, Option.map_some, hlines]

/-- A dump that libcurl asks for. -/
theorem myTrace_eq {type : InfoType} {text : CStr} (htype : type.dumpText = some text) {fuel : Nat}
    (hfuel : ptr.length + 0x80 < fuel) :
    myTrace fuel type ptr size = some (dumpHeading text size ::
      (cutFrom crByte lfByte 0x80 ptr 0).map (dumpedLine ptr)) := by
  have hdump : myTrace fuel type ptr size = myTraceDump fuel text ptr size := by
    unfold myTrace
    rw [htype]
    cases type with
    | TEXT => cases htype
    | _ => rfl
  rw [hdump, myTraceDump_eq hbound hsize text hfuel]

end Bounded

end Line

/-- For a buffer of at most 2³² - 0x80 bytes `my_trace_dump` comes to its end and
    reads nothing else.  Behind the heading it shows the lines of the cutting,
    each behind its offset and with a dot for each control character.  Every byte
    is in one line, or in one CR LF that is left out. -/
theorem myTraceDump_cuts (text : CStr) (ptr : List Byte) (hbound : ptr.length ≤ 2 ^ 32 - 0x80)
    {fuel : Nat} (hfuel : ptr.length + 0x80 < fuel) :
    myTraceDump fuel text ptr (BitVec.ofNat 32 ptr.length) =
      some (dumpHeading text (BitVec.ofNat 32 ptr.length) ::
        (cutFrom crByte lfByte 0x80 ptr 0).map (dumpedLine ptr)) ∧
    (∀ k < ptr.length, (cutFrom crByte lfByte 0x80 ptr 0).countP (·.shows k) +
      (cutFrom crByte lfByte 0x80 ptr 0).countP (·.drops k) = 1) ∧
    ∀ p ∈ cutFrom crByte lfByte 0x80 ptr 0, p.skips = true →
      PairAt crByte lfByte ptr (p.start + p.len) := by
  have hsize : (BitVec.ofNat 32 ptr.length).toNat = ptr.length := by
    rw [BitVec.toNat_ofNat, Nat.mod_eq_of_lt (by omega)]
  refine ⟨myTraceDump_eq (by omega) hsize text hfuel, ?_, ?_⟩
  · intro k hk
    rw [cutFrom_count, if_pos ⟨Nat.zero_le k, hk⟩]
  · intro p hp hskips
    exact pairAt_of_skips hp hskips

/-- Two line ends in a row, and a control character. -/
theorem myTraceDump_cuts_request :
    myTraceDump 200 (CStr.lit "=> Send data") (ascii "a\r\n\r\n\tb") 7 =
      some [ascii "=> Send data, 7 bytes (0x7)\n", ascii "0000: a", ascii "0003: ",
        ascii "0005: .b"] ∧
    (cutFrom crByte lfByte 0x80 (ascii "a\r\n\r\n\tb") 0).map (dumpedLine (ascii "a\r\n\r\n\tb")) =
      [ascii "0000: a", ascii "0003: ", ascii "0005: .b"] := by
  have hrun : myTraceDump 200 (CStr.lit "=> Send data") (ascii "a\r\n\r\n\tb") 7 =
      some [ascii "=> Send data, 7 bytes (0x7)\n", ascii "0000: a", ascii "0003: ",
        ascii "0005: .b"] := by decide
  refine ⟨hrun, ?_⟩
  have hcuts := (myTraceDump_cuts (CStr.lit "=> Send data") (ascii "a\r\n\r\n\tb") (by decide)
    (show (ascii "a\r\n\r\n\tb").length + 0x80 < 200 by decide)).1
  exact (List.cons.inj (Option.some.inj (hcuts.symm.trans hrun))).2

end Curl1C
