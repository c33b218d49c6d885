/-
  Curl1C.Lib.Chunked

  The chunked transfer coding (RFC 9112, section 7.1), as a lenient receiver reads
  it: a line may end with LF alone, anything may follow a chunk size on its line,
  and more than one CR may stand behind the data of a chunk.

  `Message` is what may be sent, `text` how it is written.  `push` is a receiver
  that takes one character at a time, with limits on what it accepts; `run_done_iff`
  says that it accepts exactly the messages within its limits, and that it hands out
  what they carry.
-/

import Mathlib.Data.List.Basic
import Mathlib.Data.List.Induction

namespace Curl1C.Lib.Chunked

/-- The characters with a meaning, and the values of hexadecimal digits. -/
structure Signs (α : Type*) where
  cr : α
  lf : α
  digit : α → Option Nat
  cr_ne_lf : cr ≠ lf
  digit_cr : digit cr = none
  digit_lf : digit lf = none

variable {α : Type*}

namespace Signs

variable (sg : Signs α)

/-- The number written with some digits. -/
def value (ds : List α) : Nat := ds.foldl (fun n d => 16 * n + (sg.digit d).getD 0) 0

/-- The end of a line. -/
def ending (cr : Bool) : List α := if cr then [sg.cr, sg.lf] else [sg.lf]

end Signs

/-! ## Messages -/

/-- A line with a chunk size. -/
structure SizeLine (sg : Signs α) where
  digits : List α
  ext : List α
  digits_ne : digits ≠ []
  digits_hex : ∀ d ∈ digits, (sg.digit d).isSome
  ext_head : ∀ x ∈ ext.head?, sg.digit x = none
  ext_lf : sg.lf ∉ ext

/-- A chunk with data. -/
structure Piece (sg : Signs α) where
  line : SizeLine sg
  data : List α
  crs : Nat
  data_ne : data ≠ []
  size_eq : sg.value line.digits = data.length

/-- A field of the trailer section. -/
structure Field (sg : Signs α) where
  content : List α
  cr : Bool
  content_ne : content ≠ []
  no_cr : sg.cr ∉ content
  no_lf : sg.lf ∉ content

/-- Chunks with data, one without, trailer fields, and an empty line. -/
structure Message (sg : Signs α) where
  pieces : List (Piece sg)
  last : SizeLine sg
  fields : List (Field sg)
  cr : Bool
  last_zero : sg.value last.digits = 0

/-- What a receiver hands out. -/
inductive Out (α : Type*) where
  | data (x : α)
  | field (xs : List α)

section Text

variable {sg : Signs α}

def SizeLine.text (l : SizeLine sg) : List α := l.digits ++ (l.ext ++ [sg.lf])

def Piece.text (p : Piece sg) : List α :=
  p.line.text ++ (p.data ++ (List.replicate p.crs sg.cr ++ [sg.lf]))

def Field.text (f : Field sg) : List α := f.content ++ sg.ending f.cr

namespace Message

def text (m : Message sg) : List α :=
  m.pieces.flatMap Piece.text ++ (m.last.text ++ (m.fields.flatMap Field.text ++ sg.ending m.cr))

/-- The data of a message. -/
def body (m : Message sg) : List α := m.pieces.flatMap Piece.data

/-- What a receiver hands out of a message. -/
def outs (m : Message sg) : List (Out α) :=
  m.body.map .data ++ m.fields.map fun f => .field f.content

end Message

end Text

/-! ## A receiver -/

/-- What a receiver accepts: digits of a size, the size itself, the length of a
    trailer field, and how much of a field it keeps before its end is seen. -/
structure Limits where
  digits : Nat
  size : Nat
  field : Nat
  buffer : Nat
  field_le : field ≤ buffer

def SizeLine.Within {sg : Signs α} (lim : Limits) (l : SizeLine sg) : Prop :=
  l.digits.length ≤ lim.digits ∧ sg.value l.digits ≤ lim.size

/-- The message is within the limits. -/
structure Message.Within {sg : Signs α} (lim : Limits) (m : Message sg) : Prop where
  pieces : ∀ p ∈ m.pieces, p.line.Within lim
  last : m.last.Within lim
  fields : ∀ f ∈ m.fields, f.content.length ≤ lim.field

/-- What the receiver waits for. -/
inductive Phase (α : Type*) where
  /-- the digits of a size, of which it has seen some -/
  | size (digits : List α)
  /-- the end of the line -/
  | ext (size : Nat)
  | data (left : Nat)
  /-- the end of the line behind the data -/
  | dataEnd
  /-- a trailer field or the empty line -/
  | line
  | field (seen : List α)
  /-- LF behind the CR of a field -/
  | fieldCr
  /-- LF behind the CR of the empty line -/
  | lastCr
  | done
  | failed

variable [DecidableEq α] (sg : Signs α) (lim : Limits)

/-- What follows the line with a size. -/
def Phase.afterSize (n : Nat) : Phase α := if n = 0 then .line else .data n

/-- One character of a line behind the size. -/
def pushExt (n : Nat) (x : α) : Phase α := if x = sg.lf then .afterSize n else .ext n

/-- One character of a field. -/
def pushField (seen : List α) (x : α) : Phase α :=
  if seen.length < lim.buffer then .field (seen ++ [x]) else .failed

/-- One character: what comes next, and what is handed out. -/
def push : Phase α → α → Phase α × List (Out α)
  | .size ds, x =>
      if (sg.digit x).isSome then
        (if ds.length < lim.digits then .size (ds ++ [x]) else .failed, [])
      else if ds.isEmpty ∨ lim.size < sg.value ds then (.failed, [])
      else (pushExt sg (sg.value ds) x, [])
  | .ext n, x => (pushExt sg n x, [])
  | .data n, x => (if n = 1 then .dataEnd else .data (n - 1), [.data x])
  | .dataEnd, x => (if x = sg.lf then .size [] else if x = sg.cr then .dataEnd else .failed, [])
  | .line, x =>
      (if x = sg.cr then .lastCr else if x = sg.lf then .done else pushField lim [] x, [])
  | .field xs, x =>
      if x = sg.cr ∨ x = sg.lf then
        if xs.length ≤ lim.field then (if x = sg.lf then .line else .fieldCr, [.field xs])
        else (.failed, [])
      else (pushField lim xs x, [])
  | .fieldCr, x => (if x = sg.lf then .line else .failed, [])
  | .lastCr, x => (if x = sg.lf then .done else .failed, [])
  | .done, _ => (.done, [])
  | .failed, _ => (.failed, [])

/-- Any number of characters. -/
def run : Phase α → List α → Phase α × List (Out α)
  | ph, [] => (ph, [])
  | ph, x :: xs =>
      let r := push sg lim ph x
      let t := run r.1 xs
      (t.1, r.2 ++ t.2)

@[simp] theorem run_nil (ph : Phase α) : run sg lim ph [] = (ph, []) := rfl

theorem run_cons (ph : Phase α) (x : α) (xs : List α) :
    run sg lim ph (x :: xs) =
      ((run sg lim (push sg lim ph x).1 xs).1,
        (push sg lim ph x).2 ++ (run sg lim (push sg lim ph x).1 xs).2) := rfl

theorem run_append (ph : Phase α) (xs ys : List α) :
    run sg lim ph (xs ++ ys) =
      ((run sg lim (run sg lim ph xs).1 ys).1,
        (run sg lim ph xs).2 ++ (run sg lim (run sg lim ph xs).1 ys).2) := by
  induction xs generalizing ph with
  | nil => rfl
  | cons x xs ih => simp [run_cons, ih]

theorem run_done (xs : List α) : run sg lim .done xs = (.done, []) := by
  induction xs with
  | nil => rfl
  | cons x xs ih => simp [run_cons, push, ih]

theorem run_failed (xs : List α) : run sg lim .failed xs = (.failed, []) := by
  induction xs with
  | nil => rfl
  | cons x xs ih => simp [run_cons, push, ih]

/-! ## Messages are accepted -/

section Accepts

variable {sg lim}

/-- Each part of a message takes the receiver to the next one. -/
theorem run_append_of {ph ph' : Phase α} {xs : List α} {os : List (Out α)}
    (h : run sg lim ph xs = (ph', os)) (ys : List α) :
    run sg lim ph (xs ++ ys) = ((run sg lim ph' ys).1, os ++ (run sg lim ph' ys).2) := by
  rw [run_append, h]

theorem run_digits {ds seen : List α} (hhex : ∀ d ∈ ds, (sg.digit d).isSome)
    (hlen : seen.length + ds.length ≤ lim.digits) :
    run sg lim (.size seen) ds = (.size (seen ++ ds), []) := by
  induction ds generalizing seen with
  | nil => simp
  | cons d ds ih =>
      rw [List.length_cons] at hlen
      have hpush : push sg lim (.size seen) d = (.size (seen ++ [d]), []) := by
        rw [push, if_pos (hhex d List.mem_cons_self), if_pos (by omega)]
      rw [run_cons, hpush, ih (fun e he => hhex e (List.mem_cons_of_mem d he)) (by simp; omega)]
      simp

theorem run_ext {n : Nat} {ext : List α} (hlf : sg.lf ∉ ext) :
    run sg lim (.ext n) (ext ++ [sg.lf]) = (.afterSize n, []) := by
  induction ext with
  | nil => simp [run_cons, push, pushExt]
  | cons x ext ih =>
      rw [List.mem_cons, not_or] at hlf
      rw [List.cons_append, run_cons, push, pushExt, if_neg (Ne.symm hlf.1), ih hlf.2]
      rfl

/-- Behind the digits of a size, the rest of the line is skipped. -/
theorem run_sizeLine {l : SizeLine sg} (h : l.Within lim) :
    run sg lim (.size []) l.text = (.afterSize (sg.value l.digits), []) := by
  obtain ⟨hdigits, hsize⟩ := h
  rw [SizeLine.text, run_append_of (run_digits l.digits_hex (by simpa using hdigits))]
  have hne : ¬ (l.digits.isEmpty = true ∨ lim.size < sg.value l.digits) := by
    simp [l.digits_ne, Nat.not_lt.mpr hsize]
  -- the first character behind the digits is looked at as the rest of the line is
  have hfirst : ∀ x rest, l.ext ++ [sg.lf] = x :: rest → sg.digit x = none := by
    intro x rest heq
    cases hext : l.ext with
    | nil =>
        rw [hext] at heq
        obtain ⟨rfl, -⟩ := List.cons_eq_cons.mp heq
        exact sg.digit_lf
    | cons y ys =>
        rw [hext] at heq
        obtain ⟨rfl, -⟩ := List.cons_eq_cons.mp heq
        exact l.ext_head y (by rw [hext]; rfl)
  obtain ⟨x, rest, hxs⟩ : ∃ x rest, l.ext ++ [sg.lf] = x :: rest :=
    List.exists_cons_of_ne_nil (by simp)
  have hpush : push sg lim (.size l.digits) x = push sg lim (.ext (sg.value l.digits)) x := by
    rw [push, hfirst x rest hxs, if_neg (by simp), if_neg hne]
    rfl
  have hext := @run_ext α _ sg lim (sg.value l.digits) l.ext l.ext_lf
  rw [List.nil_append, hxs, run_cons, hpush, ← run_cons, ← hxs, hext]
  rfl

theorem run_data {d : List α} {n : Nat} (h : d.length ≤ n) (hpos : 0 < n) :
    run sg lim (.data n) d =
      (if d.length = n then .dataEnd else .data (n - d.length), d.map .data) := by
  induction d generalizing n with
  | nil => simp [Nat.ne_of_lt hpos]
  | cons x d ih =>
      rw [List.length_cons] at h
      rw [run_cons, push]
      by_cases hone : n = 1
      · obtain rfl : d = [] := List.length_eq_zero_iff.mp (by omega)
        simp [hone]
      · simp only [if_neg hone]
        rw [ih (by omega) (by omega)]
        have hiff : d.length = n - 1 ↔ (x :: d).length = n := by
          rw [List.length_cons]
          omega
        have hsub : n - 1 - d.length = n - (x :: d).length := by
          rw [List.length_cons]
          omega
        simp only [hiff, hsub]
        rfl

theorem run_dataEnd (k : Nat) :
    run sg lim .dataEnd (List.replicate k sg.cr ++ [sg.lf]) = (.size [], []) := by
  induction k with
  | zero => simp [run_cons, push]
  | succ k ih =>
      rw [List.replicate_succ, List.cons_append, run_cons, push, if_neg sg.cr_ne_lf, if_pos rfl, ih]
      rfl

theorem run_piece {p : Piece sg} (h : p.line.Within lim) :
    run sg lim (.size []) p.text = (.size [], p.data.map .data) := by
  have hpos : 0 < p.data.length := List.length_pos_of_ne_nil p.data_ne
  have hafter : (Phase.afterSize (sg.value p.line.digits) : Phase α) = .data p.data.length := by
    rw [p.size_eq, Phase.afterSize, if_neg (Nat.ne_of_gt hpos)]
  rw [Piece.text, run_append_of (run_sizeLine h), hafter,
    run_append_of (run_data (Nat.le_refl _) hpos), if_pos rfl, run_dataEnd]
  simp

theorem run_pieces {ps : List (Piece sg)} (h : ∀ p ∈ ps, p.line.Within lim) :
    run sg lim (.size []) (ps.flatMap Piece.text) =
      (.size [], (ps.flatMap Piece.data).map .data) := by
  induction ps with
  | nil => rfl
  | cons p ps ih =>
      rw [List.flatMap_cons, run_append_of (run_piece (h p List.mem_cons_self)),
        ih fun q hq => h q (List.mem_cons_of_mem p hq)]
      simp

theorem run_content {xs seen : List α} (hcr : sg.cr ∉ xs) (hlf : sg.lf ∉ xs)
    (hlen : seen.length + xs.length ≤ lim.buffer) :
    run sg lim (.field seen) xs = (.field (seen ++ xs), []) := by
  induction xs generalizing seen with
  | nil => simp
  | cons x xs ih =>
      rw [List.mem_cons, not_or] at hcr hlf
      rw [List.length_cons] at hlen
      have hpush : push sg lim (.field seen) x = (.field (seen ++ [x]), []) := by
        have hx : ¬ (x = sg.cr ∨ x = sg.lf) := by
          rintro (rfl | rfl)
          · exact hcr.1 rfl
          · exact hlf.1 rfl
        rw [push, if_neg hx, pushField, if_pos (by omega)]
      rw [run_cons, hpush, ih hcr.2 hlf.2 (by simp; omega)]
      simp

theorem run_field {f : Field sg} (h : f.content.length ≤ lim.field) :
    run sg lim .line f.text = (.line, [.field f.content]) := by
  obtain ⟨content, cr, hne, hcr, hlf⟩ := f
  obtain ⟨x, xs, rfl⟩ := List.exists_cons_of_ne_nil hne
  have hle := lim.field_le
  rw [List.mem_cons, not_or] at hcr hlf
  simp only [List.length_cons] at h
  -- the first character is taken as the start of a field
  have hpush : push sg lim .line x = (.field [x], []) := by
    rw [push, if_neg (Ne.symm hcr.1), if_neg (Ne.symm hlf.1), pushField,
      if_pos (by simp; omega)]
    rfl
  have hcontent : run sg lim .line (x :: xs) = (.field (x :: xs), []) := by
    rw [run_cons, hpush, run_content hcr.2 hlf.2 (by simp; omega)]
    rfl
  rw [Field.text, run_append_of hcontent]
  have hfits : (x :: xs).length ≤ lim.field := by
    rw [List.length_cons]
    exact h
  cases cr with
  | false =>
      simp only [Signs.ending, Bool.false_eq_true, if_false, run_cons, run_nil]
      rw [push, if_pos (Or.inr rfl), if_pos hfits, if_pos rfl]
      rfl
  | true =>
      simp only [Signs.ending, if_true, run_cons, run_nil]
      rw [push, if_pos (Or.inl rfl), if_pos hfits, if_neg sg.cr_ne_lf]
      simp [push]

theorem run_fields {fs : List (Field sg)} (h : ∀ f ∈ fs, f.content.length ≤ lim.field) :
    run sg lim .line (fs.flatMap Field.text) = (.line, fs.map fun f => .field f.content) := by
  induction fs with
  | nil => rfl
  | cons f fs ih =>
      rw [List.flatMap_cons, run_append_of (run_field (h f List.mem_cons_self)),
        ih fun g hg => h g (List.mem_cons_of_mem f hg)]
      rfl

theorem run_ending (cr : Bool) : run sg lim .line (sg.ending cr) = (.done, []) := by
  cases cr with
  | false => simp [Signs.ending, run_cons, push, sg.cr_ne_lf.symm]
  | true => simp [Signs.ending, run_cons, push]

/-- In front of its last line end, a message has handed out everything. -/
theorem run_lines {m : Message sg} (h : m.Within lim) (rest : List α) :
    run sg lim (.size [])
        (m.pieces.flatMap Piece.text ++ (m.last.text ++ (m.fields.flatMap Field.text ++ rest))) =
      ((run sg lim .line rest).1, m.outs ++ (run sg lim .line rest).2) := by
  have hafter : (Phase.afterSize (sg.value m.last.digits) : Phase α) = .line := by
    rw [m.last_zero]
    rfl
  rw [run_append_of (run_pieces h.pieces), run_append_of (run_sizeLine h.last), hafter,
    run_append_of (run_fields h.fields)]
  simp [Message.outs, Message.body]

/-- The receiver accepts a message within its limits, whatever follows it. -/
theorem run_message {m : Message sg} (h : m.Within lim) (rest : List α) :
    run sg lim (.size []) (m.text ++ rest) = (.done, m.outs) := by
  simp only [Message.text, List.append_assoc]
  rw [run_lines h, run_append_of (run_ending m.cr), run_done]
  simp

/-- Inside a message within its limits the receiver waits for more, and has handed out a
    front part of what the message carries. -/
theorem run_front {m : Message sg} (h : m.Within lim) {xs : List α} (hfront : xs <+: m.text)
    (hshort : xs ≠ m.text) :
    (run sg lim (.size []) xs).1 ≠ .done ∧ (run sg lim (.size []) xs).1 ≠ .failed ∧
      (run sg lim (.size []) xs).2 <+: m.outs := by
  -- the message without its last character
  obtain ⟨most, hmost, ph, hrun, hdone, hfailed⟩ : ∃ most, m.text = most ++ [sg.lf] ∧ ∃ ph,
      run sg lim (.size []) most = (ph, m.outs) ∧ ph ≠ .done ∧ ph ≠ .failed := by
    cases hcr : m.cr with
    | false =>
        refine ⟨_, ?_, .line, (run_lines h []).trans (by simp), by simp, by simp⟩
        simp [Message.text, Signs.ending, hcr]
    | true =>
        refine ⟨_, ?_, .lastCr, (run_lines h [sg.cr]).trans (by simp [run_cons, push]), by simp,
          by simp⟩
        simp [Message.text, Signs.ending, hcr]
  rw [hmost] at hfront hshort
  obtain ⟨ys, rfl⟩ := (List.prefix_concat_iff.mp hfront).resolve_left hshort
  rw [run_append, Prod.mk.injEq] at hrun
  refine ⟨?_, ?_, hrun.2 ▸ List.prefix_append _ _⟩
  · intro hxs
    rw [hxs, run_done] at hrun
    exact hdone hrun.1.symm
  · intro hxs
    rw [hxs, run_failed] at hrun
    exact hfailed hrun.1.symm

end Accepts

/-! ## Only messages are accepted -/

section Only

variable {sg lim} {xs : List α} {os : List (Out α)}

theorem not_run_failed : run sg lim .failed xs ≠ (.done, os) := by
  rw [run_failed]
  exact fun h => by cases h

theorem of_run_lastCr (h : run sg lim .lastCr xs = (.done, os)) :
    os = [] ∧ ∃ rest, xs = sg.lf :: rest := by
  cases xs with
  | nil => cases h
  | cons x xs =>
      rw [run_cons, push] at h
      by_cases hx : x = sg.lf
      · rw [if_pos hx, run_done] at h
        exact ⟨(Prod.mk.inj h).2.symm, xs, by rw [hx]⟩
      · rw [if_neg hx] at h
        exact absurd h not_run_failed

theorem of_run_fieldCr (h : run sg lim .fieldCr xs = (.done, os)) :
    ∃ rest, xs = sg.lf :: rest ∧ run sg lim .line rest = (.done, os) := by
  cases xs with
  | nil => cases h
  | cons x xs =>
      rw [run_cons, push] at h
      by_cases hx : x = sg.lf
      · rw [if_pos hx] at h
        exact ⟨xs, by rw [hx], h⟩
      · rw [if_neg hx] at h
        exact absurd h not_run_failed

theorem of_run_field {seen : List α} (h : run sg lim (.field seen) xs = (.done, os)) :
    ∃ ys cr rest os', xs = ys ++ (sg.ending cr ++ rest) ∧ sg.cr ∉ ys ∧ sg.lf ∉ ys ∧
      (seen ++ ys).length ≤ lim.field ∧ os = .field (seen ++ ys) :: os' ∧
      run sg lim .line rest = (.done, os') := by
  induction xs generalizing seen with
  | nil => cases h
  | cons x xs ih =>
      rw [run_cons, push] at h
      by_cases hend : x = sg.cr ∨ x = sg.lf
      · rw [if_pos hend] at h
        by_cases hlen : seen.length ≤ lim.field
        · rw [if_pos hlen] at h
          obtain ⟨hrun, hos⟩ := Prod.mk.inj h
          by_cases hlf : x = sg.lf
          · rw [if_pos hlf] at hrun hos
            exact ⟨[], false, xs, _, by simp [Signs.ending, hlf], by simp, by simp, by simpa using hlen,
              by simpa using hos.symm, Prod.ext hrun rfl⟩
          · rw [if_neg hlf] at hrun hos
            obtain ⟨rest, rfl, hline⟩ := of_run_fieldCr (Prod.ext hrun rfl)
            exact ⟨[], true, rest, _, by simp [Signs.ending, hend.resolve_right hlf], by simp, by simp,
              by simpa using hlen, by simpa using hos.symm, hline⟩
        · rw [if_neg hlen] at h
          exact absurd h not_run_failed
      · rw [if_neg hend, pushField] at h
        by_cases hroom : seen.length < lim.buffer
        · rw [if_pos hroom] at h
          obtain ⟨ys, cr, rest, os', rfl, hcr, hlf, hlen, hos, hline⟩ := ih h
          rw [not_or] at hend
          refine ⟨x :: ys, cr, rest, os', rfl, ?_, ?_, by simpa using hlen, by simpa using hos, hline⟩
          · simpa using ⟨Ne.symm hend.1, hcr⟩
          · simpa using ⟨Ne.symm hend.2, hlf⟩
        · rw [if_neg hroom] at h
          exact absurd h not_run_failed

/-- From the start of a line of the trailer section. -/
theorem of_run_line (h : run sg lim .line xs = (.done, os)) :
    ∃ (fs : List (Field sg)) (cr : Bool) (rest : List α),
      xs = fs.flatMap Field.text ++ (sg.ending cr ++ rest) ∧
      (∀ f ∈ fs, f.content.length ≤ lim.field) ∧ os = fs.map fun f => .field f.content := by
  -- each field shortens what is left
  induction hn : xs.length using Nat.strongRecOn generalizing xs os with
  | ind n ih =>
    cases xs with
    | nil => cases h
    | cons x xs =>
        rw [run_cons, push] at h
        by_cases hcr : x = sg.cr
        · rw [if_pos hcr] at h
          obtain ⟨rfl, rest, rfl⟩ := of_run_lastCr h
          exact ⟨[], true, rest, by simp [Signs.ending, hcr], by simp, rfl⟩
        by_cases hlf : x = sg.lf
        · rw [if_neg hcr, if_pos hlf, run_done] at h
          exact ⟨[], false, xs, by simp [Signs.ending, hlf], by simp, (Prod.mk.inj h).2.symm⟩
        rw [if_neg hcr, if_neg hlf, pushField] at h
        by_cases hroom : ([] : List α).length < lim.buffer
        · rw [if_pos hroom] at h
          obtain ⟨ys, cr, rest, os', rfl, hycr, hylf, hlen, rfl, hline⟩ := of_run_field h
          obtain ⟨fs, cr', rest', rfl, hfs, rfl⟩ :=
            ih rest.length (by simp at hn; omega) hline rfl
          have hxcr : sg.cr ∉ x :: ys := by simpa using ⟨Ne.symm hcr, hycr⟩
          have hxlf : sg.lf ∉ x :: ys := by simpa using ⟨Ne.symm hlf, hylf⟩
          refine ⟨⟨x :: ys, cr, by simp, hxcr, hxlf⟩ :: fs, cr', rest', by simp [Field.text], ?_, rfl⟩
          simpa using ⟨by simpa using hlen, hfs⟩
        · rw [if_neg hroom] at h
          exact absurd h not_run_failed

theorem of_run_dataEnd (h : run sg lim .dataEnd xs = (.done, os)) :
    ∃ k rest, xs = List.replicate k sg.cr ++ sg.lf :: rest ∧
      run sg lim (.size []) rest = (.done, os) := by
  induction xs with
  | nil => cases h
  | cons x xs ih =>
      rw [run_cons, push] at h
      by_cases hlf : x = sg.lf
      · rw [if_pos hlf] at h
        exact ⟨0, xs, by simp [hlf], h⟩
      by_cases hcr : x = sg.cr
      · rw [if_neg hlf, if_pos hcr] at h
        obtain ⟨k, rest, rfl, hrun⟩ := ih h
        exact ⟨k + 1, rest, by simp [hcr, List.replicate_succ], hrun⟩
      · rw [if_neg hlf, if_neg hcr] at h
        exact absurd h not_run_failed

theorem of_run_data {n : Nat} (hpos : 0 < n) (h : run sg lim (.data n) xs = (.done, os)) :
    ∃ d rest os', d.length = n ∧ xs = d ++ rest ∧ os = d.map .data ++ os' ∧
      run sg lim .dataEnd rest = (.done, os') := by
  have hlen : n ≤ xs.length := by
    by_contra hlt
    rw [run_data (by omega) hpos, if_neg (by omega)] at h
    cases h
  rw [← List.take_append_drop n xs,
    run_append_of (run_data (List.length_take_le n xs) hpos)] at h
  have htake : (xs.take n).length = n := List.length_take_of_le hlen
  rw [if_pos htake] at h
  exact ⟨xs.take n, xs.drop n, _, htake, (List.take_append_drop n xs).symm,
    (Prod.mk.inj h).2.symm, Prod.ext (Prod.mk.inj h).1 rfl⟩

theorem of_run_ext {n : Nat} (h : run sg lim (.ext n) xs = (.done, os)) :
    ∃ ext rest, xs = ext ++ sg.lf :: rest ∧ sg.lf ∉ ext ∧
      run sg lim (.afterSize n) rest = (.done, os) := by
  induction xs with
  | nil => cases h
  | cons x xs ih =>
      rw [run_cons, push, pushExt] at h
      by_cases hlf : x = sg.lf
      · rw [if_pos hlf] at h
        exact ⟨[], xs, by simp [hlf], by simp, h⟩
      · rw [if_neg hlf] at h
        obtain ⟨ext, rest, rfl, hext, hrun⟩ := ih h
        exact ⟨x :: ext, rest, rfl, by simpa using ⟨Ne.symm hlf, hext⟩, hrun⟩

theorem of_run_size {seen : List α} (hseen : seen.length ≤ lim.digits)
    (h : run sg lim (.size seen) xs = (.done, os)) :
    ∃ ds ext rest, xs = ds ++ (ext ++ sg.lf :: rest) ∧ seen ++ ds ≠ [] ∧
      (∀ d ∈ ds, (sg.digit d).isSome) ∧ (seen ++ ds).length ≤ lim.digits ∧
      sg.value (seen ++ ds) ≤ lim.size ∧ (∀ x ∈ ext.head?, sg.digit x = none) ∧ sg.lf ∉ ext ∧
      run sg lim (.afterSize (sg.value (seen ++ ds))) rest = (.done, os) := by
  induction xs generalizing seen with
  | nil => cases h
  | cons x xs ih =>
      rw [run_cons, push] at h
      by_cases hhex : (sg.digit x).isSome = true
      · rw [if_pos hhex] at h
        by_cases hroom : seen.length < lim.digits
        · rw [if_pos hroom] at h
          obtain ⟨ds, ext, rest, rfl, hne, hds, hlen, hval, hhead, hext, hrun⟩ :=
            ih (by simp; omega) h
          rw [List.append_assoc, List.singleton_append] at hne hlen hval hrun
          exact ⟨x :: ds, ext, rest, rfl, hne, by simpa using ⟨hhex, hds⟩, hlen, hval, hhead, hext, hrun⟩
        · rw [if_neg hroom] at h
          exact absurd h not_run_failed
      · rw [if_neg hhex] at h
        by_cases hbad : seen.isEmpty ∨ lim.size < sg.value seen
        · rw [if_pos hbad] at h
          exact absurd h not_run_failed
        · rw [if_neg hbad] at h
          obtain ⟨ext, rest, hxs, hext, hrun⟩ := @of_run_ext α _ sg lim (x :: xs) os _ h
          rw [not_or, Nat.not_lt] at hbad
          refine ⟨[], ext, rest, hxs, ?_, by simp, by simpa using hseen, by simpa using hbad.2, ?_, hext,
            by simpa using hrun⟩
          · simpa using hbad.1
          · intro y hy
            cases ext with
            | nil => cases hy
            | cons z ext =>
                obtain ⟨rfl, -⟩ := List.cons_eq_cons.mp hxs
                obtain rfl : x = y := Option.some.inj hy
                simpa using hhex

/-- What the receiver accepts starts with a size. -/
theorem of_run_sizeLine (h : run sg lim (.size []) xs = (.done, os)) :
    ∃ (l : SizeLine sg) (rest : List α), l.Within lim ∧ xs = l.text ++ rest ∧
      run sg lim (.afterSize (sg.value l.digits)) rest = (.done, os) := by
  obtain ⟨ds, ext, rest, rfl, hne, hds, hlen, hval, hhead, hext, hrun⟩ :=
    of_run_size (Nat.zero_le _) h
  exact ⟨⟨ds, ext, hne, hds, hhead, hext⟩, rest, ⟨hlen, hval⟩, by simp [SizeLine.text], hrun⟩

/-- What the receiver accepts is a message within its limits. -/
theorem of_run_message (h : run sg lim (.size []) xs = (.done, os)) :
    ∃ (m : Message sg) (rest : List α), m.Within lim ∧ xs = m.text ++ rest ∧ os = m.outs := by
  -- each chunk shortens what is left
  induction hn : xs.length using Nat.strongRecOn generalizing xs os with
  | ind n ih =>
    obtain ⟨l, rest, hl, rfl, hrun⟩ := of_run_sizeLine h
    by_cases hzero : sg.value l.digits = 0
    · rw [hzero] at hrun
      obtain ⟨fs, cr, rest, rfl, hfs, rfl⟩ := of_run_line hrun
      exact ⟨⟨[], l, fs, cr, hzero⟩, rest, ⟨by simp, hl, hfs⟩, by simp [Message.text],
        by simp [Message.outs, Message.body]⟩
    · rw [Phase.afterSize, if_neg hzero] at hrun
      obtain ⟨d, rest, os', hd, rfl, rfl, hend⟩ := of_run_data (Nat.pos_of_ne_zero hzero) hrun
      obtain ⟨k, rest, rfl, hnext⟩ := of_run_dataEnd hend
      obtain ⟨m, rest, hm, rfl, rfl⟩ := ih rest.length (by simp at hn; omega) hnext rfl
      have hne : d ≠ [] := by
        rintro rfl
        exact hzero hd.symm
      refine ⟨{ m with pieces := ⟨l, d, k, hne, hd.symm⟩ :: m.pieces }, rest,
        ⟨by simpa using ⟨hl, hm.pieces⟩, hm.last, hm.fields⟩, ?_, ?_⟩
      · simp [Message.text, Piece.text]
      · simp [Message.outs, Message.body]

/-- The receiver accepts exactly the texts that start with a message within its
    limits, and hands out what the message carries. -/
theorem run_done_iff :
    run sg lim (.size []) xs = (.done, os) ↔
      ∃ m : Message sg, m.Within lim ∧ m.text <+: xs ∧ m.outs = os := by
  constructor
  · intro h
    obtain ⟨m, rest, hm, rfl, rfl⟩ := of_run_message h
    exact ⟨m, hm, List.prefix_append _ _, rfl⟩
  · rintro ⟨m, hm, ⟨rest, rfl⟩, rfl⟩
    exact run_message hm rest

end Only

end Curl1C.Lib.Chunked
