/-
  Curl1C.Curl.Smtp

  How libcurl keeps the text of a mail from ending its data (lib/smtp.c).

  `Curl_smtp_escape_eob` goes over each block of the upload before it is sent and
  doubles the period of every CRLF-period.  The three bytes may lie in different
  blocks: `eob` counts how many of them the text ends with so far, and what was
  matched when a block ended has been sent with that block.  `smtp_done` ends the
  data of a mail; a handle without recipients sends none, and one that is only to
  connect does not end it.

  Main result: `escapeEob_spec`.
-/

import Curl1C.Curl.Request
import Curl1C.Lib.Rfc5321
import Curl1C.Lib.Sink

namespace Curl1C.Smtp

open Lib Rfc5321

theorem cr_ne_lf : (0x0d : Byte) ≠ 0x0a := by decide

/-- The characters of RFC 5321 in ASCII. -/
def marks : Marks Byte :=
  { cr := 0x0d, lf := 0x0a, dot := 0x2e,
    cr_ne_lf := cr_ne_lf, cr_ne_dot := by decide, lf_ne_dot := by decide }

/-- `SMTP_EOB`. -/
def smtpEob : List Byte := [0x0d, 0x0a, 0x2e, 0x0d, 0x0a]

/-- `SMTP_EOB_REPL`. -/
def smtpEobRepl : List Byte := [0x0d, 0x0a, 0x2e, 0x2e]

/-- The members of `struct SMTP` that the text of a mail changes. -/
structure SMTP where
  eob : Nat
  trailing_crlf : Bool
deriving DecidableEq

/-- As `smtp_perform` starts a transfer: the text is at the start of a line. -/
def SMTP.start : SMTP := { eob := 2, trailing_crlf := true }

/-! ## `Curl_smtp_escape_eob` -/

/-- The locals of the loop; `si` is the length of what is in `scratch`. -/
structure Escaping where
  smtp : SMTP
  eob_sent : Nat
  scratch : Sink Byte

namespace Escaping

/-- `memcpy(&scratch[si], &src[start], stop - start)`; the length is unsigned, so
    it must not be below 0. -/
def copy (src : List Byte) (start stop : Nat) (e : Escaping) : Option Escaping :=
  if start ≤ stop ∧ stop ≤ src.length then
    some { e with scratch := e.scratch.putAll ((src.drop start).take (stop - start)) }
  else none

/-- Compare the byte with the one that would go on matching. -/
def compare (b : Byte) (e : Escaping) : Option Escaping :=
  smtpEob[e.smtp.eob]?.bind fun expected =>
    if expected = b then
      let eob := e.smtp.eob + 1
      some { e with
        smtp := { eob := eob, trailing_crlf := decide (eob = 2 ∨ eob = smtpEob.length) } }
    else if e.smtp.eob ≠ 0 then
      -- what matched so far goes out first
      (e.copy smtpEob e.eob_sent e.smtp.eob).map fun e =>
        { e with smtp := { eob := if b = 0x0d then 1 else 0, trailing_crlf := false }, eob_sent := 0 }
    else some e

/-- Replace a whole match, and copy a byte that belongs to none. -/
def replace (b : Byte) (e : Escaping) : Option Escaping :=
  if e.smtp.eob = 3 then
    (e.copy smtpEobRepl e.eob_sent smtpEobRepl.length).map fun e =>
      { e with smtp := { e.smtp with eob := 0 }, eob_sent := 0 }
  else if e.smtp.eob = 0 then some { e with scratch := e.scratch.put b }
  else some e

/-- One pass of the loop. -/
def byte (e : Escaping) (b : Byte) : Option Escaping := (e.compare b).bind (replace b)

/-- What matched but is not in `scratch` yet. -/
def pending (e : Escaping) : List Byte := (smtpEob.drop e.eob_sent).take (e.smtp.eob - e.eob_sent)

end Escaping

/-- `Curl_smtp_escape_eob` with a `scratch` of `size` bytes, on a block of which
    the first `offset` bytes have been gone over before: the block to be sent.
    A store behind the end of `scratch` does not come back. -/
def escapeEob (size offset : Nat) (block : List Byte) (smtp : SMTP) : Option (SMTP × List Byte) :=
  let e : Escaping :=
    { smtp := smtp, eob_sent := smtp.eob, scratch := Sink.empty.putAll (block.take offset) }
  ((block.drop offset).foldlM Escaping.byte e).bind fun e =>
    (if e.smtp.eob ≠ e.eob_sent then e.copy smtpEob e.eob_sent e.smtp.eob else some e).bind fun e =>
      if e.scratch.len ≤ size then
        -- the new block is used only if something was replaced
        some (e.smtp, if e.scratch.len ≠ block.length then e.scratch.values else block)
      else none

/-! ## `smtp_perform` and `smtp_done` -/

/-- `smtp_perform` starts a mail, and no other command.  With 1 for
    `CURLOPT_CONNECT_ONLY` `multi_runsingle` does not get there. -/
def StartsMail (set : UserDefined) : Prop :=
  set.connect_only ≠ some 1 ∧ (set.upload = true ∨ set.mimepost ≠ none) ∧ set.mail_rcpt ≠ none

instance (set : UserDefined) : Decidable (StartsMail set) := inferInstanceAs (Decidable (_ ∧ _ ∧ _))

/-- `smtp_done` ends the data of a mail. -/
def EndsMail (set : UserDefined) : Prop :=
  set.connect_only = some 0 ∧ set.mail_rcpt ≠ none ∧ (set.upload = true ∨ set.mimepost ≠ none)

instance (set : UserDefined) : Decidable (EndsMail set) := inferInstanceAs (Decidable (_ ∧ _ ∧ _))

theorem EndsMail.starts {set : UserDefined} (h : EndsMail set) : StartsMail set :=
  ⟨by rw [h.1]; decide, h.2.2, h.2.1⟩

/-- The bytes that `smtp_done` writes after a transfer without an error. -/
def smtpDone (set : UserDefined) (infilesize : Int) (smtp : SMTP) : List Byte :=
  if EndsMail set then
    if smtp.trailing_crlf ∨ infilesize = 0 then smtpEob.drop 2 else smtpEob
  else []

/-! ## What it does -/

/-- The members when the text is at a position. -/
def SMTP.of : Pos → SMTP
  | .line => { eob := 2, trailing_crlf := true }
  | .cr => { eob := 1, trailing_crlf := false }
  | .text => { eob := 0, trailing_crlf := false }

namespace Escaping

/-- Behind the text `done`, at the position `p`: what is in `scratch` and what
    matched make up the text. -/
structure Holds (p : Pos) (done : List Byte) (e : Escaping) : Prop where
  smtp : e.smtp = .of p
  sent_le : e.eob_sent ≤ e.smtp.eob
  text : e.scratch.values ++ e.pending = done

variable {e : Escaping} {p : Pos} {done : List Byte}

theorem copy_pending (h : e.Holds p done) :
    e.copy smtpEob e.eob_sent e.smtp.eob = some { e with scratch := ⟨done⟩ } := by
  have hlen : e.smtp.eob ≤ smtpEob.length := by
    rw [h.smtp]
    cases p <;> decide
  rw [copy, if_pos ⟨h.sent_le, hlen⟩]
  exact congrArg (fun s => some { e with scratch := s }) (congrArg Sink.mk h.text)

/-- The marker goes on matching. -/
theorem compare_of_eq (h : e.Holds p done) {b : Byte} (hb : smtpEob[e.smtp.eob]? = some b) :
    e.compare b = some { e with
      smtp := { eob := e.smtp.eob + 1, trailing_crlf := decide (e.smtp.eob + 1 = 2) } } := by
  have hfive : ¬ e.smtp.eob + 1 = smtpEob.length := by
    rw [h.smtp]
    cases p <;> decide
  simp [compare, hb, hfive]

/-- The marker stops matching: what matched goes out, and the byte may start the
    marker again. -/
theorem compare_of_ne (h : e.Holds p done) {b : Byte} (hb : smtpEob[e.smtp.eob]? ≠ some b) :
    ∃ e', e.compare b = some e' ∧ e'.smtp = .of (if b = 0x0d then .cr else .text) ∧
      e'.eob_sent = 0 ∧ e'.scratch = ⟨done⟩ := by
  obtain ⟨x, hx⟩ : ∃ x, smtpEob[e.smtp.eob]? = some x := by
    rw [h.smtp]
    cases p <;> exact ⟨_, rfl⟩
  have hxb : x ≠ b := fun heq => hb (heq ▸ hx)
  rw [compare, hx, Option.bind_some, if_neg hxb]
  by_cases hzero : e.smtp.eob = 0
  · -- nothing had matched; the byte is no CR, or it would match
    have hcr : b ≠ 0x0d := by
      rw [hzero] at hx
      exact fun heq => hxb ((Option.some.inj hx).symm.trans heq.symm)
    have hsent : e.eob_sent = 0 := Nat.le_zero.mp (hzero ▸ h.sent_le)
    have hsmtp : e.smtp = .of .text := by
      cases p with
      | text => exact h.smtp
      | _ => rw [h.smtp] at hzero; cases hzero
    have hdone : e.scratch.values = done := by
      have htext := h.text
      rw [pending, hzero, hsent, Nat.sub_zero, List.take_zero, List.append_nil] at htext
      exact htext
    rw [if_neg (not_not_intro hzero), if_neg hcr]
    exact ⟨e, rfl, hsmtp, hsent, congrArg Sink.mk hdone⟩
  · rw [if_pos hzero, copy_pending h, Option.map_some]
    refine ⟨_, rfl, ?_, rfl, rfl⟩
    by_cases hcr : b = 0x0d
    · rw [if_pos hcr, if_pos hcr]
      rfl
    · rw [if_neg hcr, if_neg hcr]
      rfl

theorem byte_of_ne (h : e.Holds p done) {b : Byte} (hb : smtpEob[e.smtp.eob]? ≠ some b) :
    ∃ e', e.byte b = some e' ∧ e'.Holds (if b = 0x0d then .cr else .text) (done ++ [b]) := by
  obtain ⟨e', hcompare, hsmtp, hsent, hscratch⟩ := compare_of_ne h hb
  rw [byte, hcompare, Option.bind_some]
  by_cases hcr : b = 0x0d
  · rw [if_pos hcr] at hsmtp ⊢
    refine ⟨e', by rw [replace, hsmtp]; rfl, hsmtp, by omega, ?_⟩
    rw [pending, hscratch, hsmtp, hsent, hcr]
    rfl
  · rw [if_neg hcr] at hsmtp ⊢
    refine ⟨{ e' with scratch := e'.scratch.put b }, by rw [replace, hsmtp]; rfl, hsmtp, ?_, ?_⟩
    · simp [hsent]
    · simp [pending, hscratch, hsmtp, SMTP.of, Sink.put]

/-- A whole match is replaced. -/
theorem replace_of_match {e : Escaping} (heob : e.smtp.eob = 3) (hsent : e.eob_sent ≤ 4) (b : Byte) :
    e.replace b = some { e with
      smtp := { e.smtp with eob := 0 }, eob_sent := 0,
      scratch := e.scratch.putAll ((smtpEobRepl.drop e.eob_sent).take (4 - e.eob_sent)) } := by
  have hcopy : e.copy smtpEobRepl e.eob_sent smtpEobRepl.length = some { e with
      scratch := e.scratch.putAll ((smtpEobRepl.drop e.eob_sent).take (4 - e.eob_sent)) } :=
    if_pos ⟨hsent, Nat.le_refl _⟩
  rw [replace, if_pos heob, hcopy]
  rfl

/-- The marker goes on matching, and is complete with the period. -/
theorem byte_of_eq (h : e.Holds p done) {b : Byte} (hb : smtpEob[e.smtp.eob]? = some b) :
    ∃ e', e.byte b = some e' ∧ e'.Holds (p.next marks b) (done ++ stuffAt marks p b) := by
  rw [byte, compare_of_eq h hb, Option.bind_some]
  obtain ⟨smtp, eob_sent, scratch⟩ := e
  obtain ⟨rfl, hsent, rfl⟩ := h
  simp only at hb hsent ⊢
  cases p with
  | text =>
      obtain rfl : 0x0d = b := Option.some.inj hb
      obtain rfl : eob_sent = 0 := Nat.le_zero.mp hsent
      exact ⟨_, rfl, rfl, Nat.zero_le _, by simp [pending]; rfl⟩
  | cr =>
      obtain rfl : 0x0a = b := Option.some.inj hb
      have hle : eob_sent ≤ 2 := Nat.le_succ_of_le hsent
      refine ⟨_, rfl, rfl, hle, ?_⟩
      have hcases : eob_sent = 0 ∨ eob_sent = 1 := Nat.le_one_iff_eq_zero_or_eq_one.mp hsent
      rcases hcases with rfl | rfl
      · exact (List.append_assoc scratch.values [0x0d] [0x0a]).symm
      · exact (List.append_assoc scratch.values [] [0x0a]).symm
  | line =>
      obtain rfl : 0x2e = b := Option.some.inj hb
      have hle : eob_sent ≤ 4 := Nat.le_trans hsent (by decide)
      refine ⟨_, replace_of_match rfl hle _, rfl, Nat.zero_le _, ?_⟩
      -- the replacement goes on where the bytes sent with an earlier block end
      have hcases : eob_sent = 0 ∨ eob_sent = 1 ∨ eob_sent = 2 := by
        have hsent' : eob_sent ≤ 2 := hsent
        omega
      rcases hcases with rfl | rfl | rfl
      · simp [pending, SMTP.of, smtpEob, smtpEobRepl, stuffAt, marks]
      · simp [pending, SMTP.of, smtpEob, smtpEobRepl, stuffAt, marks]
      · simp [pending, SMTP.of, smtpEob, smtpEobRepl, stuffAt, marks]

/-- One pass of the loop sends the byte as it has to be sent. -/
theorem byte_spec (h : e.Holds p done) (b : Byte) :
    ∃ e', e.byte b = some e' ∧ e'.Holds (p.next marks b) (done ++ stuffAt marks p b) := by
  by_cases hb : smtpEob[e.smtp.eob]? = some b
  · exact byte_of_eq h hb
  · have hne : ¬ (p = .cr ∧ b = marks.lf) ∧ ¬ (p = .line ∧ b = marks.dot) := by
      rw [h.smtp] at hb
      constructor <;> rintro ⟨rfl, rfl⟩ <;> exact hb rfl
    have hnext : p.next marks b = if b = 0x0d then .cr else .text := by
      rw [Pos.next, if_neg hne.1]
      rfl
    have hstuff : stuffAt marks p b = [b] := if_neg hne.2
    rw [hnext, hstuff]
    exact byte_of_ne h hb

/-- The whole loop. -/
theorem foldlM_byte (h : e.Holds p done) (xs : List Byte) :
    ∃ e', xs.foldlM byte e = some e' ∧ e'.Holds (p.after marks xs) (done ++ stuff marks p xs) := by
  induction xs generalizing e p done with
  | nil => exact ⟨e, rfl, by simpa using h⟩
  | cons x xs ih =>
      obtain ⟨e', he', h'⟩ := byte_spec h x
      obtain ⟨e'', he'', h''⟩ := ih h'
      refine ⟨e'', ?_, ?_⟩
      · rw [List.foldlM_cons, he']
        exact he''
      · rw [stuff_cons, ← List.append_assoc, Pos.after_cons]
        exact h''

end Escaping

/-- The bytes of a block that have not been gone over before are stuffed, wherever
    the text stands, and those before them are left alone. -/
theorem escapeEob_spec {size offset : Nat} {block : List Byte} (p : Pos)
    (hoffset : offset ≤ block.length)
    (hsize : offset + (stuff marks p (block.drop offset)).length ≤ size) :
    escapeEob size offset block (.of p) =
      some (.of (p.after marks (block.drop offset)),
        block.take offset ++ stuff marks p (block.drop offset)) := by
  have hstart : (Escaping.mk (.of p) (SMTP.of p).eob
      (Sink.empty.putAll (block.take offset))).Holds p (block.take offset) :=
    ⟨rfl, Nat.le_refl _, by simp [Escaping.pending]⟩
  obtain ⟨e, hloop, h⟩ := Escaping.foldlM_byte hstart (block.drop offset)
  have hlast : (if e.smtp.eob ≠ e.eob_sent then e.copy smtpEob e.eob_sent e.smtp.eob else some e) =
      some { e with scratch := ⟨block.take offset ++ stuff marks p (block.drop offset)⟩ } := by
    by_cases heob : e.smtp.eob = e.eob_sent
    · have htext := h.text
      rw [Escaping.pending, heob, Nat.sub_self, List.take_zero, List.append_nil] at htext
      rw [if_neg (not_not_intro heob), ← htext]
    · rw [if_pos heob, Escaping.copy_pending h]
  have htake : (block.take offset).length = offset := List.length_take_of_le hoffset
  have hlen : (Sink.mk (block.take offset ++ stuff marks p (block.drop offset))).len =
      offset + (stuff marks p (block.drop offset)).length := by
    rw [Sink.len, List.length_append, htake]
  unfold escapeEob
  simp only [hloop, Option.bind_some, hlast]
  rw [if_pos (hlen ▸ hsize), h.smtp]
  by_cases hsame : (Sink.mk (block.take offset ++ stuff marks p (block.drop offset))).len =
      block.length
  · -- nothing was replaced: the old block is the same
    have hstuff : stuff marks p (block.drop offset) = block.drop offset := by
      refine stuff_eq_self marks ?_
      rw [List.length_drop]
      omega
    rw [if_neg (not_not_intro hsame), hstuff, List.take_append_drop]
  · rw [if_pos hsame]

/-- `smtp_done` ends the data at the start of a line with the period alone; it does
    so too for a transfer whose announced size is 0. -/
theorem smtpDone_of {set : UserDefined} (hset : EndsMail set) (infilesize : Int) (p : Pos) :
    smtpDone set infilesize (.of p) =
      if infilesize = 0 then terminator marks .line else terminator marks p := by
  rw [smtpDone, if_pos hset]
  by_cases hsize : infilesize = 0
  · rw [if_pos (Or.inr hsize), if_pos hsize]
    rfl
  · rw [if_neg hsize]
    cases p <;> simp [SMTP.of, hsize] <;> rfl

end Curl1C.Smtp
