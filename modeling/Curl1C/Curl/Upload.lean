/-
  Curl1C.Curl.Upload

  How libcurl sends what a read function supplies (lib/transfer.c).

  Each time the socket is ready, `readwrite_upload` fills its buffer through
  `Curl_fillreadbuffer`, also behind a short rest of the last fill, replaces line
  ends and stuffs periods where that is asked for, and gives the buffer to the
  socket, which takes any part of it.

  Main results: `upload_spec`, and `upload_cut` for an announced size that is not the
  size of the text.
-/

import Mathlib.Algebra.Group.Nat.Defs
import Curl1C.Curl.Smtp

namespace Curl1C.Upload

open Lib Rfc5321 Smtp

/-! ## `Curl_fillreadbuffer` -/

/-- What a read function returns: the bytes it has put into the buffer, or one of the
    numbers that are none. -/
inductive Nread where
  | bytes (xs : List Byte)
  | ABORT | PAUSE
  /-- any other number above the room -/
  | funny

/-- A read function, called with the room in the buffer. -/
abbrev Readfunc (ρ : Type) := Nat → ρ → Option (ρ × Nread)

/-- What the upload depends on and does not change. -/
structure Config where
  upload_buffer_size : Nat
  upload_chunky : Bool
  /-- `CURLOPT_CRLF` -/
  crlf : Bool
  /-- the protocol is of the family SMTP -/
  smtp : Bool
  infilesize : Int

/-- The members of `struct SingleRequest` that the upload uses; `upload_present` is the
    length of `present`, and `wire` is what the socket has taken. -/
structure SingleRequest (ρ : Type) where
  instream : ρ
  fread_eof : Bool
  /-- the bytes from `upload_fromhere` on -/
  present : List Byte
  upload_done : Bool
  keep_send : Bool
  send_pause : Bool
  writebytecount : Nat
  smtp : SMTP
  wire : List Byte

/-- `%zx`. -/
def formatZx (n : Nat) : List Byte := (Nat.toDigits 16 n).map fun c => BitVec.ofNat 8 c.toNat

section Code

variable {ρ : Type} (readfunc : Readfunc ρ) (cfg : Config)

/-- The end of a line in a chunk; it is replaced later on where line ends are. -/
def endofline : List Byte := if cfg.crlf then [0x0a] else [0x0d, 0x0a]

/-- What is put into the buffer for the bytes that were read. -/
def chunk (xs : List Byte) : List Byte :=
  if cfg.upload_chunky then formatZx xs.length ++ (endofline cfg ++ (xs ++ endofline cfg)) else xs

/-- `Curl_fillreadbuffer` with room for `bytes`, and what it has put there. -/
def fillreadbuffer (bytes : Nat) (k : SingleRequest ρ) :
    Option (SingleRequest ρ × List Byte × CURLcode) :=
  -- 32bit hex + CRLF + CRLF
  let buffersize := if cfg.upload_chunky then bytes - (8 + 2 + 2) else bytes
  -- the read function is not called again after the end
  (if k.fread_eof then some (k.instream, .bytes []) else readfunc buffersize k.instream).map
    fun (instream, nread) =>
      let k := { k with instream := instream }
      match nread with
      | .ABORT => (k, [], .ABORTED_BY_CALLBACK)
      | .PAUSE => ({ k with send_pause := true }, [], .OK)
      | .funny => (k, [], .READ_ERROR)
      | .bytes xs =>
          let k := { k with fread_eof := xs.isEmpty }
          if xs.length > buffersize then (k, [], .READ_ERROR)
          else
            ({ k with upload_done := k.upload_done || (cfg.upload_chunky && xs.isEmpty) },
              chunk cfg xs, .OK)

/-! ## `readwrite_upload` -/

/-- LF as CRLF. -/
def lineEnds (xs : List Byte) : List Byte :=
  xs.flatMap fun b => if b = 0x0a then [0x0d, 0x0a] else [b]

namespace SingleRequest

/-- How much of what is left in the buffer is kept in front of the next fill. -/
def offset (k : SingleRequest ρ) : Nat :=
  if k.present.length ≠ 0 ∧ k.present.length < cfg.upload_buffer_size >>> 5 ∧
      ¬ cfg.upload_chunky ∧ ¬ k.upload_done ∧
      ¬ ((k.writebytecount + k.present.length : Nat) : Int) = cfg.infilesize then
    k.present.length
  else 0

/-- Replace the line ends behind the offset, if so asked, in a scratch buffer. -/
def convert (offset : Nat) (k : SingleRequest ρ) : Option (SingleRequest ρ) :=
  if cfg.crlf then
    let scratch := k.present.take offset ++ lineEnds (k.present.drop offset)
    if scratch.length ≤ 2 * cfg.upload_buffer_size then
      some { k with present := if scratch.length ≠ k.present.length then scratch else k.present }
    else none
  else some k

/-- Stuff the periods behind the offset, in a mail. -/
def escape (offset : Nat) (k : SingleRequest ρ) : Option (SingleRequest ρ) :=
  if cfg.smtp then
    (escapeEob (2 * cfg.upload_buffer_size) offset k.present k.smtp).map fun (smtp, present) =>
      { k with smtp := smtp, present := present }
  else some k

/-- Give the buffer to the socket, which takes up to `n` bytes of it, or fails. -/
def write (answer : Option Nat) (k : SingleRequest ρ) : SingleRequest ρ × CURLcode :=
  match answer with
  | none => (k, .SEND_ERROR)
  | some n =>
      let bytes_written := min n k.present.length
      let writebytecount := k.writebytecount + bytes_written
      let upload_done := k.upload_done || (!cfg.upload_chunky && decide ((writebytecount : Int) = cfg.infilesize))
      ({ k with
          writebytecount := writebytecount
          upload_done := upload_done
          wire := k.wire ++ k.present.take bytes_written
          present := k.present.drop bytes_written
          -- `Curl_done_sending`
          keep_send := k.keep_send && !(decide (bytes_written = k.present.length) && upload_done) },
        .OK)

/-- What `readwrite_upload` does with a block of which the first bytes were in the buffer
    before. -/
def sendBlock (answer : Option Nat) (offset : Nat) (block : List Byte) (k : SingleRequest ρ) :
    Option (SingleRequest ρ × CURLcode) :=
  if block = [] then
    -- `Curl_done_sending`, unless the transfer is paused
    some (if k.send_pause then k else { k with keep_send := false }, .OK)
  else
    (({ k with present := block }.convert cfg offset).bind (escape cfg offset)).map (write cfg answer)

/-- `readwrite_upload`.  A store behind the end of a buffer does not come back. -/
def readwriteUpload (answer : Option Nat) (k : SingleRequest ρ) :
    Option (SingleRequest ρ × CURLcode) :=
  let offset := k.offset cfg
  if k.present.length = 0 ∨ offset ≠ 0 then
    (if k.upload_done then some (k, [], .OK)
      else fillreadbuffer readfunc cfg (cfg.upload_buffer_size - offset) k).bind
      fun (k', fill, result) =>
        if result ≠ .OK then some (k', result)
        else k'.sendBlock cfg answer offset (k.present.take offset ++ fill)
  else some (k.write cfg answer)

/-- What `Curl_readwrite` does when the socket can be written to. -/
def turn (answer : Option Nat) (k : SingleRequest ρ) : Option (SingleRequest ρ × CURLcode) :=
  if k.keep_send && !k.send_pause then k.readwriteUpload readfunc cfg answer else some (k, .OK)

end SingleRequest

/-- The answers of the socket one after the other, until something fails. -/
def upload : List (Option Nat) → SingleRequest ρ → Option (SingleRequest ρ × CURLcode)
  | [], k => some (k, .OK)
  | answer :: answers, k =>
      (k.turn readfunc cfg answer).bind fun (k, r) =>
        if r = .OK then upload answers k else some (k, r)

/-- A request whose body is about to be sent. -/
def SingleRequest.start (instream : ρ) : SingleRequest ρ :=
  { instream := instream, fread_eof := false, present := [], upload_done := false, keep_send := true,
    send_pause := false, writebytecount := 0, smtp := .start, wire := [] }

end Code

/-! ## What arrives -/

/-- A read function that hands over a text piece by piece, as long as the room is not above
    `room`, and reports the end only where nothing is left. -/
def Supplies {ρ : Type} (readfunc : Readfunc ρ) (Inv : ρ → Prop) (rest : ρ → List Byte) (room : Nat) :
    Prop :=
  ∀ s n, Inv s → 0 < n → n ≤ room → ∃ s' xs, readfunc n s = some (s', .bytes xs) ∧ Inv s' ∧
    xs.length ≤ n ∧ rest s = xs ++ rest s' ∧ (xs = [] → rest s = [])

/-- A text with its line ends as they are sent. -/
def converted (cfg : Config) (xs : List Byte) : List Byte := if cfg.crlf then lineEnds xs else xs

/-- A text as it is sent from a position on. -/
def coded (cfg : Config) (p : Pos) (xs : List Byte) : List Byte :=
  if cfg.smtp then stuff marks p (converted cfg xs) else converted cfg xs

section Coded

variable (cfg : Config)

theorem converted_append (xs ys : List Byte) : converted cfg (xs ++ ys) = converted cfg xs ++ converted cfg ys := by
  unfold converted lineEnds
  split
  · exact List.flatMap_append
  · rfl

theorem coded_append (p : Pos) (xs ys : List Byte) :
    coded cfg p (xs ++ ys) = coded cfg p xs ++ coded cfg (p.after marks (converted cfg xs)) ys := by
  unfold coded
  rw [converted_append]
  split
  · exact stuff_append marks p _ _
  · rfl

theorem length_lineEnds_le (xs : List Byte) : (lineEnds xs).length ≤ 2 * xs.length := by
  induction xs with
  | nil => exact Nat.le_refl 0
  | cons x xs ih =>
      have hone : (if x = 0x0a then [(0x0d : Byte), 0x0a] else [x]).length ≤ 2 := by
        split <;> simp
      simp only [lineEnds, List.flatMap_cons, List.length_append, List.length_cons] at ih ⊢
      omega

/-- Stuffing and longer line ends together no more than double a text. -/
theorem length_stuff_converted_le (p : Pos) (xs : List Byte) :
    (stuff marks p (converted cfg xs)).length ≤ 2 * xs.length := by
  induction xs generalizing p with
  | nil => simp [converted, lineEnds]
  | cons x xs ih =>
      have hsplit : converted cfg (x :: xs) = converted cfg [x] ++ converted cfg xs := converted_append cfg [x] xs
      have hone : (stuff marks p (converted cfg [x])).length ≤ 2 := by
        by_cases hlf : cfg.crlf = true ∧ x = 0x0a
        · obtain ⟨hcrlf, rfl⟩ := hlf
          have hpair : converted cfg [0x0a] = [0x0d, 0x0a] := by
            rw [converted, if_pos hcrlf]
            rfl
          rw [hpair, stuff_cons, stuff_cons, stuff_nil]
          cases p <;> decide
        · have hsingle : converted cfg [x] = [x] := by
            by_cases hcrlf : cfg.crlf = true
            · have hx : ¬ x = 0x0a := fun hx => hlf ⟨hcrlf, hx⟩
              rw [converted, if_pos hcrlf, lineEnds, List.flatMap_singleton, if_neg hx]
            · exact if_neg hcrlf
          rw [hsingle, stuff_cons, stuff_nil, List.append_nil]
          unfold stuffAt
          split <;> simp
      have hrest := ih (p.after marks (converted cfg [x]))
      rw [hsplit, stuff_append, List.length_append, List.length_cons]
      omega

theorem length_coded_le (p : Pos) (xs : List Byte) : (coded cfg p xs).length ≤ 2 * xs.length := by
  unfold coded
  split
  · exact length_stuff_converted_le cfg p xs
  · unfold converted
    split
    · exact length_lineEnds_le xs
    · omega

theorem length_le_lineEnds (xs : List Byte) : xs.length ≤ (lineEnds xs).length := by
  induction xs with
  | nil => exact Nat.le_refl 0
  | cons x xs ih =>
      have hone : 1 ≤ (if x = 0x0a then [(0x0d : Byte), 0x0a] else [x]).length := by
        split <;> simp
      simp only [lineEnds, List.flatMap_cons, List.length_append, List.length_cons] at ih ⊢
      omega

theorem lineEnds_eq_self {xs : List Byte} (h : (lineEnds xs).length = xs.length) :
    lineEnds xs = xs := by
  induction xs with
  | nil => rfl
  | cons x xs ih =>
      have hrest := length_le_lineEnds xs
      have hcons : lineEnds (x :: xs) =
          (if x = 0x0a then [(0x0d : Byte), 0x0a] else [x]) ++ lineEnds xs := rfl
      rw [hcons, List.length_append, List.length_cons] at h
      by_cases hlf : x = 0x0a
      · rw [if_pos hlf] at h
        simp only [List.length_cons, List.length_nil] at h
        omega
      · rw [if_neg hlf] at h hcons
        simp only [List.length_cons, List.length_nil] at h
        rw [hcons, ih (by omega)]
        rfl

theorem length_le_coded (p : Pos) (xs : List Byte) : xs.length ≤ (coded cfg p xs).length := by
  have hconverted : xs.length ≤ (converted cfg xs).length := by
    unfold converted
    split
    · exact length_le_lineEnds xs
    · exact Nat.le_refl _
  unfold coded
  split
  · exact Nat.le_trans hconverted (length_le_stuff marks p _)
  · exact hconverted

theorem coded_nil (p : Pos) : coded cfg p [] = [] :=
  List.length_eq_zero_iff.mp (Nat.le_zero.mp (length_coded_le cfg p []))

end Coded

/-! ## One turn -/

section Turn

variable {ρ : Type} {readfunc : Readfunc ρ} {cfg : Config} {Inv : ρ → Prop} {rest : ρ → List Byte}
  {text : List Byte} {k : SingleRequest ρ}

/-- What is on the wire and what is in the buffer are the text read so far. -/
structure Carries (cfg : Config) (Inv : ρ → Prop) (rest : ρ → List Byte) (text : List Byte)
    (k : SingleRequest ρ) : Prop where
  inv : Inv k.instream
  pause : k.send_pause = false
  count : k.writebytecount = k.wire.length
  eof : k.fread_eof = true → rest k.instream = []
  read : ∃ xs, text = xs ++ rest k.instream ∧ k.wire ++ k.present = coded cfg .line xs ∧
    (cfg.smtp = true → k.smtp = .of (Pos.line.after marks (converted cfg xs)))

/-- Sending goes on until all of the text is on the wire. -/
structure Sending (cfg : Config) (Inv : ρ → Prop) (rest : ρ → List Byte) (text : List Byte)
    (k : SingleRequest ρ) : Prop extends Carries cfg Inv rest text k where
  live : k.keep_send = true → k.upload_done = false
  ended : k.keep_send = false → rest k.instream = [] ∧ k.present = []

/-- What has been read is on the wire and in the buffer. -/
theorem Carries.sent (h : Carries cfg Inv rest text k) {xs : List Byte}
    (htext : text = xs ++ rest k.instream) :
    k.wire ++ k.present = coded cfg .line xs ∧
      (cfg.smtp = true → k.smtp = .of (Pos.line.after marks (converted cfg xs))) := by
  obtain ⟨ys, htext', hboth, hsmtp⟩ := h.read
  obtain rfl := List.append_cancel_right (htext.symm.trans htext')
  exact ⟨hboth, hsmtp⟩

/-- Once as much is on the wire as the text has, nothing is left. -/
theorem Carries.rest_of_length (h : Carries cfg Inv rest text k)
    (hlen : k.wire.length = (coded cfg .line text).length) :
    rest k.instream = [] ∧ k.present = [] := by
  obtain ⟨xs, htext, hwire, -⟩ := h.read
  have hcoded := length_le_coded cfg (Pos.line.after marks (converted cfg xs)) (rest k.instream)
  have htotal : (coded cfg .line xs).length = k.wire.length + k.present.length := by
    rw [← hwire, List.length_append]
  rw [htext, coded_append, List.length_append] at hlen
  exact ⟨List.length_eq_zero_iff.mp (by omega), List.length_eq_zero_iff.mp (by omega)⟩

/-- The socket takes some of the buffer. -/
theorem Carries.write (h : Carries cfg Inv rest text k) (n : Nat) :
    Carries cfg Inv rest text (k.write cfg (some n)).1 := by
  obtain ⟨xs, htext, hwire, hsmtp⟩ := h.read
  refine ⟨h.inv, h.pause, ?_, h.eof, xs, htext, ?_, hsmtp⟩
  · show k.writebytecount + min n k.present.length =
      (k.wire ++ k.present.take (min n k.present.length)).length
    rw [h.count, List.length_append, List.length_take_of_le (Nat.min_le_right _ _)]
  · show (k.wire ++ k.present.take (min n k.present.length)) ++
      k.present.drop (min n k.present.length) = _
    rw [List.append_assoc, List.take_append_drop, hwire]

theorem write_keep_send (n : Nat) : (k.write cfg (some n)).1.keep_send =
    (k.keep_send && !(decide (min n k.present.length = k.present.length) &&
      (k.write cfg (some n)).1.upload_done)) := rfl

/-- The announced size is reached only with the last of the text. -/
theorem Carries.left_of_done (h : Carries cfg Inv rest text k)
    (hsize : cfg.infilesize = -1 ∨ cfg.infilesize = (coded cfg .line text).length)
    (hdone : k.upload_done = false) {n : Nat} (hreached : (k.write cfg (some n)).1.upload_done = true) :
    rest (k.write cfg (some n)).1.instream = [] ∧ (k.write cfg (some n)).1.present = [] := by
  have hwritten := h.write n
  have hcount : ((k.write cfg (some n)).1.writebytecount : Int) = cfg.infilesize := by
    have hor : (k.upload_done || (!cfg.upload_chunky &&
        decide (((k.write cfg (some n)).1.writebytecount : Int) = cfg.infilesize))) = true := hreached
    rw [hdone, Bool.false_or, Bool.and_eq_true] at hor
    exact of_decide_eq_true hor.2
  rw [hwritten.count] at hcount
  apply hwritten.rest_of_length
  rcases hsize with hnone | hlen
  · omega
  · omega

/-- Sending ends with a write only if that was the last of the text. -/
theorem Carries.sending_write (h : Carries cfg Inv rest text k)
    (hsize : cfg.infilesize = -1 ∨ cfg.infilesize = (coded cfg .line text).length)
    (hkeep : k.keep_send = true) (hdone : k.upload_done = false) (n : Nat) :
    Sending cfg Inv rest text (k.write cfg (some n)).1 := by
  refine ⟨h.write n, ?_, ?_⟩
  · intro hlive
    cases hreached : (k.write cfg (some n)).1.upload_done with
    | false => rfl
    | true =>
        -- the buffer is empty then, so sending has ended
        obtain ⟨-, hpresent⟩ := h.left_of_done hsize hdone hreached
        have hlen : k.present.length ≤ min n k.present.length := List.drop_eq_nil_iff.mp hpresent
        have hall : min n k.present.length = k.present.length := by omega
        rw [write_keep_send, hreached, hkeep, decide_eq_true hall] at hlive
        cases hlive
  · intro hend
    rw [write_keep_send, hkeep, Bool.true_and, Bool.not_eq_false', Bool.and_eq_true] at hend
    exact h.left_of_done hsize hdone hend.2

theorem length_wire_write (hne : k.present ≠ []) (n : Nat) :
    k.wire.length + min n 1 ≤ (k.write cfg (some n)).1.wire.length := by
  have hpos : 0 < k.present.length := List.length_pos_of_ne_nil hne
  have hlen : (k.write cfg (some n)).1.wire.length = k.wire.length + min n k.present.length := by
    show (k.wire ++ k.present.take (min n k.present.length)).length = _
    rw [List.length_append, List.length_take_of_le (Nat.min_le_right _ _)]
  omega

/-! ### Filling the buffer -/

theorem convert_eq {block : List Byte} {offset : Nat} (hoffset : offset ≤ block.length)
    (hroom : offset + 2 * (block.drop offset).length ≤ 2 * cfg.upload_buffer_size) :
    SingleRequest.convert cfg offset { k with present := block } =
      some { k with present := block.take offset ++ converted cfg (block.drop offset) } := by
  unfold SingleRequest.convert converted
  by_cases hcrlf : cfg.crlf = true
  · have htwice := length_lineEnds_le (block.drop offset)
    have htake : (block.take offset).length = offset := List.length_take_of_le hoffset
    have hfits : (block.take offset ++ lineEnds (block.drop offset)).length ≤
        2 * cfg.upload_buffer_size := by
      rw [List.length_append]
      omega
    simp only [if_pos hcrlf, if_pos hfits]
    by_cases hsame : (block.take offset ++ lineEnds (block.drop offset)).length = block.length
    · have hself : lineEnds (block.drop offset) = block.drop offset := by
        apply lineEnds_eq_self
        rw [List.length_append] at hsame
        rw [List.length_drop]
        omega
      rw [if_neg (not_not_intro hsame), hself, List.take_append_drop]
    · rw [if_pos hsame]
  · simp only [if_neg hcrlf, List.take_append_drop]

theorem escape_eq {ys : List Byte} {p : Pos} (hp : cfg.smtp = true → k.smtp = .of p)
    (hroom : k.present.length + (stuff marks p ys).length ≤ 2 * cfg.upload_buffer_size) :
    ∃ smtp, SingleRequest.escape cfg k.present.length { k with present := k.present ++ ys } =
        some { k with
          smtp := smtp
          present := k.present ++ if cfg.smtp then stuff marks p ys else ys } ∧
      (cfg.smtp = true → smtp = .of (p.after marks ys)) := by
  unfold SingleRequest.escape
  by_cases hsmtp : cfg.smtp = true
  · have hoffset : k.present.length ≤ (k.present ++ ys).length := by simp
    have hcall := @escapeEob_spec (2 * cfg.upload_buffer_size) _ _ p hoffset (by
      rw [List.drop_left]
      exact hroom)
    rw [List.drop_left, List.take_left] at hcall
    refine ⟨.of (p.after marks ys), ?_, fun _ => rfl⟩
    simp only [if_pos hsmtp, hp hsmtp, hcall, Option.map_some]
  · refine ⟨k.smtp, ?_, fun h => absurd h hsmtp⟩
    simp only [if_neg hsmtp]

/-- The bytes that were read get into the buffer as they are sent. -/
theorem Carries.fill (h : Carries cfg Inv rest text k) {s' : ρ} {xs : List Byte} {eof : Bool}
    (hinv : Inv s') (hrest : rest k.instream = xs ++ rest s') (heof : eof = true → rest s' = [])
    (hroom : k.present.length + xs.length ≤ cfg.upload_buffer_size) :
    ∃ smtp p, ((SingleRequest.convert cfg k.present.length
          { k with instream := s', fread_eof := eof, present := k.present ++ xs }).bind
        (SingleRequest.escape cfg k.present.length)) =
      some { k with instream := s', fread_eof := eof, smtp := smtp, present := k.present ++ coded cfg p xs } ∧
      Carries cfg Inv rest text
        { k with instream := s', fread_eof := eof, smtp := smtp, present := k.present ++ coded cfg p xs } := by
  obtain ⟨seen, htext, hwire, hsmtp⟩ := h.read
  have hconvert := @convert_eq ρ cfg { k with instream := s', fread_eof := eof } (k.present ++ xs)
    k.present.length (by simp) (by
      rw [List.drop_left]
      omega)
  rw [List.drop_left, List.take_left] at hconvert
  have hstuffed := length_stuff_converted_le cfg (Pos.line.after marks (converted cfg seen)) xs
  obtain ⟨smtp, hescape, hafter⟩ := @escape_eq ρ cfg { k with instream := s', fread_eof := eof }
    (converted cfg xs) _ hsmtp (by
      show k.present.length + _ ≤ _
      omega)
  refine ⟨smtp, Pos.line.after marks (converted cfg seen), ?_, hinv, h.pause, h.count, heof,
    seen ++ xs, ?_, ?_, ?_⟩
  · rw [hconvert, Option.bind_some]
    exact hescape
  · rw [List.append_assoc, ← hrest]
    exact htext
  · rw [coded_append, ← hwire, List.append_assoc]
  · intro hmail
    rw [hafter hmail, converted_append, Pos.after_append]

/-- The read function is called, unless it has reported the end. -/
theorem Carries.fillreadbuffer (h : Carries cfg Inv rest text k)
    (hsup : Supplies readfunc Inv rest cfg.upload_buffer_size) (hchunky : cfg.upload_chunky = false)
    (hdone : k.upload_done = false) {n : Nat} (hpos : 0 < n) (hn : n ≤ cfg.upload_buffer_size) :
    ∃ s' xs eof, fillreadbuffer readfunc cfg n k =
        some ({ k with instream := s', fread_eof := eof }, xs, .OK) ∧
      Inv s' ∧ xs.length ≤ n ∧ rest k.instream = xs ++ rest s' ∧ (xs = [] → rest k.instream = []) ∧
      (eof = true → rest s' = []) := by
  cases heof : k.fread_eof with
  | true =>
      have hnil := h.eof heof
      refine ⟨k.instream, [], true, ?_, h.inv, Nat.zero_le n, rfl, fun _ => hnil, fun _ => hnil⟩
      simp [Upload.fillreadbuffer, heof, hchunky, hdone, chunk]
  | false =>
      obtain ⟨s', xs, hread, hinv, hlen, hrest, hend⟩ := hsup k.instream n h.inv hpos hn
      refine ⟨s', xs, xs.isEmpty, ?_, hinv, hlen, hrest, hend, ?_⟩
      · simp [Upload.fillreadbuffer, heof, hchunky, hdone, chunk, hread, Nat.not_lt.mpr hlen]
      · intro hempty
        obtain rfl : xs = [] := List.isEmpty_iff.mp hempty
        have hnil := hend rfl
        rw [hrest] at hnil
        exact hnil

/-! ### The turn -/

theorem offset_eq (hread : k.present.length = 0 ∨ k.offset cfg ≠ 0) (hpos : 0 < cfg.upload_buffer_size) :
    k.offset cfg = k.present.length ∧ k.present.length < cfg.upload_buffer_size := by
  have hwater : cfg.upload_buffer_size >>> 5 ≤ cfg.upload_buffer_size := Nat.shiftRight_le _ _
  unfold SingleRequest.offset at hread ⊢
  split at hread
  · rename_i hcond
    rw [if_pos hcond]
    exact ⟨rfl, by omega⟩
  · rename_i hcond
    rw [if_neg hcond]
    omega

/-- What a turn leaves behind: unless the socket fails, sending has ended or the socket has
    got on by what it took. -/
inductive Turned (cfg : Config) (Inv : ρ → Prop) (rest : ρ → List Byte) (text : List Byte)
    (answer : Option Nat) (wire : List Byte) : SingleRequest ρ × CURLcode → Prop where
  | ok {k : SingleRequest ρ} (h : Sending cfg Inv rest text k)
      (hon : k.keep_send = false ∨ wire.length + min (answer.getD 0) 1 ≤ k.wire.length) :
      Turned cfg Inv rest text answer wire (k, .OK)
  | fail {k : SingleRequest ρ} (h : Carries cfg Inv rest text k) (hnone : answer = none)
      (hkeep : k.keep_send = true) : Turned cfg Inv rest text answer wire (k, .SEND_ERROR)

theorem Carries.turned_write (h : Carries cfg Inv rest text k)
    (hsize : cfg.infilesize = -1 ∨ cfg.infilesize = (coded cfg .line text).length)
    (hkeep : k.keep_send = true) (hdone : k.upload_done = false) (hne : k.present ≠ [])
    (answer : Option Nat) : Turned cfg Inv rest text answer k.wire (k.write cfg answer) := by
  cases answer with
  | none => exact .fail h rfl hkeep
  | some n => exact .ok (h.sending_write hsize hkeep hdone n) (Or.inr (length_wire_write hne n))

/-- What was read is sent, and with nothing to send the upload ends. -/
theorem Sending.sendBlock (h : Sending cfg Inv rest text k)
    (hsize : cfg.infilesize = -1 ∨ cfg.infilesize = (coded cfg .line text).length)
    (hkeep : k.keep_send = true) {s' : ρ} {xs : List Byte} {eof : Bool} (hinv : Inv s')
    (hroom : k.present.length + xs.length ≤ cfg.upload_buffer_size)
    (hrest : rest k.instream = xs ++ rest s') (hend : xs = [] → rest k.instream = [])
    (heof : eof = true → rest s' = []) (answer : Option Nat) :
    ∃ r, SingleRequest.sendBlock cfg answer k.present.length (k.present ++ xs)
        { k with instream := s', fread_eof := eof } = some r ∧
      Turned cfg Inv rest text answer k.wire r := by
  have hdone := h.live hkeep
  unfold SingleRequest.sendBlock
  by_cases hblock : k.present ++ xs = []
  · obtain ⟨hpresent, hxs⟩ := List.append_eq_nil_iff.mp hblock
    have hnil : rest s' = [] := by
      have hall := hend hxs
      rw [hrest] at hall
      exact (List.append_eq_nil_iff.mp hall).2
    have hpause : ¬ ({ k with instream := s', fread_eof := eof } : SingleRequest ρ).send_pause = true := by
      simp [h.pause]
    rw [if_pos hblock, if_neg hpause]
    refine ⟨_, rfl, .ok ⟨⟨hinv, h.pause, h.count, fun _ => hnil, ?_⟩, ?_, fun _ => ⟨hnil, hpresent⟩⟩
      (Or.inl rfl)⟩
    · obtain ⟨seen, htext, hwire, hsmtp⟩ := h.read
      refine ⟨seen, ?_, hwire, hsmtp⟩
      rw [htext, hrest, hxs, List.nil_append]
    · intro hlive
      cases hlive
  · rw [if_neg hblock]
    obtain ⟨smtp, p, hcoded, hcarries⟩ := h.toCarries.fill hinv hrest heof hroom
    refine ⟨_, congrArg (Option.map _) hcoded, ?_⟩
    have hne : k.present ++ coded cfg p xs ≠ [] := by
      intro hnil
      obtain ⟨hpresent, hempty⟩ := List.append_eq_nil_iff.mp hnil
      have hlen := length_le_coded cfg p xs
      rw [hempty] at hlen
      exact hblock (List.append_eq_nil_iff.mpr
        ⟨hpresent, List.length_eq_zero_iff.mp (Nat.le_zero.mp hlen)⟩)
    exact hcarries.turned_write hsize hkeep hdone hne answer

theorem Sending.readwriteUpload (h : Sending cfg Inv rest text k)
    (hsup : Supplies readfunc Inv rest cfg.upload_buffer_size) (hchunky : cfg.upload_chunky = false)
    (hpos : 0 < cfg.upload_buffer_size)
    (hsize : cfg.infilesize = -1 ∨ cfg.infilesize = (coded cfg .line text).length)
    (hkeep : k.keep_send = true) (answer : Option Nat) :
    ∃ r, k.readwriteUpload readfunc cfg answer = some r ∧ Turned cfg Inv rest text answer k.wire r := by
  have hdone := h.live hkeep
  have hnot : ¬ k.upload_done = true := by simp [hdone]
  unfold SingleRequest.readwriteUpload
  by_cases hread : k.present.length = 0 ∨ k.offset cfg ≠ 0
  · obtain ⟨hoffset, hlt⟩ := @offset_eq ρ cfg k hread hpos
    obtain ⟨s', xs, eof, hfill, hinv, hlen, hrest, hend, heof⟩ :=
      @Carries.fillreadbuffer ρ readfunc cfg Inv rest text k h.toCarries hsup hchunky hdone
        (cfg.upload_buffer_size - k.present.length) (by omega) (by omega)
    obtain ⟨r, hsend, hturned⟩ := h.sendBlock hsize hkeep hinv (by omega) hrest hend heof answer
    refine ⟨r, ?_, hturned⟩
    dsimp only
    rw [if_pos hread, if_neg hnot, hoffset, hfill, Option.bind_some, List.take_length]
    exact hsend
  · refine ⟨_, if_neg hread, ?_⟩
    have hne : k.present ≠ [] := fun hnil => hread (Or.inl (by rw [hnil]; rfl))
    exact h.toCarries.turned_write hsize hkeep hdone hne answer

theorem turn_of_ended (hkeep : k.keep_send = false) (answer : Option Nat) :
    k.turn readfunc cfg answer = some (k, .OK) := by
  simp [SingleRequest.turn, hkeep]

theorem Sending.turn (h : Sending cfg Inv rest text k)
    (hsup : Supplies readfunc Inv rest cfg.upload_buffer_size) (hchunky : cfg.upload_chunky = false)
    (hpos : 0 < cfg.upload_buffer_size)
    (hsize : cfg.infilesize = -1 ∨ cfg.infilesize = (coded cfg .line text).length)
    (answer : Option Nat) :
    ∃ r, k.turn readfunc cfg answer = some r ∧ Turned cfg Inv rest text answer k.wire r := by
  cases hkeep : k.keep_send with
  | false => exact ⟨_, turn_of_ended hkeep answer, .ok h (Or.inl hkeep)⟩
  | true =>
      obtain ⟨r, hgo, hturned⟩ := h.readwriteUpload hsup hchunky hpos hsize hkeep answer
      refine ⟨r, ?_, hturned⟩
      rw [SingleRequest.turn, hkeep, h.pause]
      exact hgo

end Turn

/-! ## The whole upload -/

section Run

variable {ρ : Type} {readfunc : Readfunc ρ} {cfg : Config} {Inv : ρ → Prop} {rest : ρ → List Byte}
  {text : List Byte} {k : SingleRequest ρ}

theorem upload_cons {k' : SingleRequest ρ} {answer : Option Nat}
    (hturn : k.turn readfunc cfg answer = some (k', .OK)) (answers : List (Option Nat)) :
    upload readfunc cfg (answer :: answers) k = upload readfunc cfg answers k' := by
  simp [upload, hturn]

theorem upload_of_ended (hkeep : k.keep_send = false) (answers : List (Option Nat)) :
    upload readfunc cfg answers k = some (k, .OK) := by
  induction answers with
  | nil => rfl
  | cons answer answers ih => rw [upload_cons (turn_of_ended hkeep answer), ih]

/-- The number of times the socket took something. -/
def taken (answers : List (Option Nat)) : Nat := answers.countP fun answer => decide (0 < answer.getD 0)

theorem taken_cons_le (answer : Option Nat) (answers : List (Option Nat)) :
    taken (answer :: answers) ≤ min (answer.getD 0) 1 + taken answers := by
  rw [taken, List.countP_cons, taken]
  split
  · rename_i htook
    have := of_decide_eq_true htook
    omega
  · omega

theorem Sending.upload (h : Sending cfg Inv rest text k)
    (hsup : Supplies readfunc Inv rest cfg.upload_buffer_size) (hchunky : cfg.upload_chunky = false)
    (hpos : 0 < cfg.upload_buffer_size)
    (hsize : cfg.infilesize = -1 ∨ cfg.infilesize = (coded cfg .line text).length)
    (answers : List (Option Nat)) :
    ∃ k' r, upload readfunc cfg answers k = some (k', r) ∧ Carries cfg Inv rest text k' ∧
      (k'.keep_send = false → rest k'.instream = [] ∧ k'.present = []) ∧
      (r = .OK → k'.keep_send = false ∨ k.wire.length + taken answers ≤ k'.wire.length) ∧
      (r ≠ .OK → r = .SEND_ERROR ∧ none ∈ answers) := by
  induction answers generalizing k with
  | nil => exact ⟨k, .OK, rfl, h.toCarries, h.ended, fun _ => Or.inr (Nat.le_refl _), fun hr => absurd rfl hr⟩
  | cons answer answers ih =>
      obtain ⟨r, hturn, hturned⟩ := h.turn hsup hchunky hpos hsize answer
      cases hturned with
      | @ok k₁ hk₁ hon =>
          obtain ⟨k', r, hrun, hcarries, hended, hprogress, hfail⟩ := ih hk₁
          refine ⟨k', r, ?_, hcarries, hended, ?_, fun hr => ?_⟩
          · rw [upload_cons hturn, hrun]
          · intro hr
            rcases hon with hkeep | hon
            · -- nothing happens any more
              rw [upload_of_ended hkeep] at hrun
              obtain ⟨rfl, -⟩ := Prod.mk.inj (Option.some.inj hrun)
              exact Or.inl hkeep
            · refine (hprogress hr).imp id fun hmore => ?_
              have hcount := taken_cons_le answer answers
              omega
          · obtain ⟨hcode, hnone⟩ := hfail hr
            exact ⟨hcode, List.mem_cons_of_mem _ hnone⟩
      | @fail k₁ hk₁ hnone hkeep =>
          refine ⟨k₁, .SEND_ERROR, ?_, hk₁, ?_, ?_, fun _ => ⟨rfl, ?_⟩⟩
          · rw [Upload.upload, hturn]
            rfl
          · intro hend
            rw [hkeep] at hend
            cases hend
          · intro hr
            cases hr
          · rw [hnone]
            exact List.mem_cons_self

theorem Sending.start {s : ρ} (hs : Inv s) : Sending cfg Inv rest (rest s) (.start s) := by
  refine ⟨⟨hs, rfl, rfl, ?_, [], rfl, ?_, ?_⟩, fun _ => rfl, ?_⟩
  · intro heof
    cases heof
  · exact (coded_nil cfg .line).symm
  · intro _
    unfold converted
    split <;> rfl
  · intro hend
    cases hend

/-- The first turn reads a piece of the text and gives it to the socket. -/
theorem turn_start {s s' : ρ} {xs : List Byte} (hs : Inv s) (hinv : Inv s')
    (hrest : rest s = xs ++ rest s') (hread : readfunc cfg.upload_buffer_size s = some (s', .bytes xs))
    (hne : xs ≠ []) (hlen : xs.length ≤ cfg.upload_buffer_size) (hchunky : cfg.upload_chunky = false)
    (answer : Option Nat) :
    ∃ k, (SingleRequest.start s).turn readfunc cfg answer = some (k.write cfg answer) ∧
      Carries cfg Inv rest (rest s) k ∧ k.instream = s' ∧ k.wire = [] ∧ k.keep_send = true := by
  have hfill : fillreadbuffer readfunc cfg cfg.upload_buffer_size (.start s) =
      some ({ SingleRequest.start s with instream := s', fread_eof := false }, xs, .OK) := by
    simp [fillreadbuffer, SingleRequest.start, hchunky, chunk, hread, Nat.not_lt.mpr hlen, hne]
  have hstart : Carries cfg Inv rest (rest s) (.start s) := (Sending.start hs).toCarries
  have hroom : (SingleRequest.start s).present.length + xs.length ≤ cfg.upload_buffer_size := by
    rw [SingleRequest.start, List.length_nil, Nat.zero_add]
    exact hlen
  have hfalse : false = true → rest s' = [] := nofun
  obtain ⟨smtp, p, hcoded, hcarries⟩ := hstart.fill hinv hrest hfalse hroom
  refine ⟨_, ?_, hcarries, rfl, rfl, rfl⟩
  have hblock : ¬ (SingleRequest.start s).present ++ xs = [] := hne
  have hsend : SingleRequest.sendBlock cfg answer 0 xs
      { SingleRequest.start s with instream := s', fread_eof := false } = _ :=
    (if_neg hblock).trans (congrArg (Option.map (SingleRequest.write cfg answer)) hcoded)
  have hoffset : (SingleRequest.start s).offset cfg = 0 := rfl
  have hempty : (SingleRequest.start s).present.length = 0 ∨ (SingleRequest.start s).offset cfg ≠ 0 := Or.inl rfl
  have hnot : ¬ (SingleRequest.start s).upload_done = true := Bool.false_ne_true
  show SingleRequest.readwriteUpload readfunc cfg answer (.start s) = _
  unfold SingleRequest.readwriteUpload
  dsimp only
  rw [if_pos hempty, if_neg hnot, hoffset, Nat.sub_zero, hfill, Option.bind_some]
  exact hsend

/-- Once the upload counts as done, what is left in the buffer is the last that is sent. -/
theorem turn_of_done (hpause : k.send_pause = false) (hkeep : k.keep_send = true)
    (hdone : k.upload_done = true) (hne : k.present ≠ []) (answer : Option Nat) :
    k.turn readfunc cfg answer = some (k.write cfg answer) := by
  have hoffset : k.offset cfg = 0 := by
    unfold SingleRequest.offset
    exact if_neg fun hcond => hcond.2.2.2.1 hdone
  have hpresent : ¬ (k.present.length = 0 ∨ k.offset cfg ≠ 0) := by
    rw [hoffset, List.length_eq_zero_iff]
    simp [hne]
  rw [SingleRequest.turn, hkeep, hpause]
  exact if_neg hpresent

theorem write_all {n : Nat} (hn : k.present.length ≤ n)
    (hdone : (k.write cfg (some n)).1.upload_done = true) :
    (k.write cfg (some n)).1.keep_send = false ∧ (k.write cfg (some n)).1.present = [] := by
  have hall : min n k.present.length = k.present.length := Nat.min_eq_right hn
  constructor
  · rw [write_keep_send, hdone, decide_eq_true hall, Bool.and_self, Bool.not_true, Bool.and_false]
  · show k.present.drop (min n k.present.length) = []
    rw [hall, List.drop_length]

theorem write_part {n : Nat} (hn : n < k.present.length) :
    (k.write cfg (some n)).1.keep_send = k.keep_send ∧ (k.write cfg (some n)).1.present ≠ [] := by
  have hpart : ¬ min n k.present.length = k.present.length := by omega
  constructor
  · rw [write_keep_send, decide_eq_false hpart, Bool.false_and, Bool.not_false, Bool.and_true]
  · intro hnil
    have hle : k.present.length ≤ min n k.present.length := List.drop_eq_nil_iff.mp hnil
    omega

/-- An announced size that the socket reaches within the first piece of the text ends the
    upload with this piece. -/
theorem upload_cut {s s' : ρ} {xs : List Byte} (hs : Inv s) (hinv : Inv s')
    (hrest : rest s = xs ++ rest s') (hread : readfunc cfg.upload_buffer_size s = some (s', .bytes xs))
    (hne : xs ≠ []) (hlen : xs.length ≤ cfg.upload_buffer_size) (hchunky : cfg.upload_chunky = false)
    {n : Nat} (hsize : cfg.infilesize = n) (hn : n ≤ (coded cfg .line xs).length) :
    ∃ k, upload readfunc cfg [some n, some (coded cfg .line xs).length] (.start s) = some (k, .OK) ∧
      k.keep_send = false ∧ k.wire = coded cfg .line xs ∧
      (cfg.smtp = true → k.smtp = .of (Pos.line.after marks (converted cfg xs))) := by
  obtain ⟨k, hturn, hcarries, hinstream, hwire, hkeep⟩ :=
    turn_start hs hinv hrest hread hne hlen hchunky (some n)
  have htext : rest s = xs ++ rest k.instream := by rw [hinstream, hrest]
  have hpresent : k.present = coded cfg .line xs := by
    have hboth := (hcarries.sent htext).1
    rwa [hwire, List.nil_append] at hboth
  have hdone : (k.write cfg (some n)).1.upload_done = true := by
    have hcount : k.writebytecount + min n k.present.length = n := by
      rw [hcarries.count, hwire, hpresent, List.length_nil, Nat.zero_add, Nat.min_eq_left hn]
    show (k.upload_done || (!cfg.upload_chunky &&
      decide (((k.writebytecount + min n k.present.length : Nat) : Int) = cfg.infilesize))) = true
    rw [hcount, hsize, hchunky, decide_eq_true rfl, Bool.not_false, Bool.and_self, Bool.or_true]
  have hfirst := hcarries.write n
  have hturn' : (SingleRequest.start s).turn readfunc cfg (some n) = some ((k.write cfg (some n)).1, .OK) := hturn
  rw [upload_cons hturn']
  rcases Nat.lt_or_ge n k.present.length with hpart | hall
  · obtain ⟨hlive, hleft⟩ := @write_part ρ cfg k n hpart
    have hsecond := @turn_of_done ρ readfunc cfg _ hfirst.pause (hlive.trans hkeep) hdone hleft
      (some (coded cfg .line xs).length)
    have hfits : (k.write cfg (some n)).1.present.length ≤ (coded cfg .line xs).length := by
      show (k.present.drop (min n k.present.length)).length ≤ _
      rw [List.length_drop, hpresent]
      exact Nat.sub_le _ _
    obtain ⟨hend, hnil⟩ := @write_all ρ cfg _ _ hfits (by
      show ((k.write cfg (some n)).1.upload_done || _) = true
      rw [hdone, Bool.true_or])
    obtain ⟨hboth, hsmtp⟩ := (hfirst.write _).sent htext
    rw [hnil, List.append_nil] at hboth
    exact ⟨_, upload_cons hsecond [], hend, hboth, hsmtp⟩
  · obtain ⟨hend, hnil⟩ := write_all hall hdone
    obtain ⟨hboth, hsmtp⟩ := hfirst.sent htext
    rw [hnil, List.append_nil] at hboth
    exact ⟨_, upload_of_ended hend _, hend, hboth, hsmtp⟩

end Run

end Curl1C.Upload
