/-
  Curl1C.Lib.Rfc5321

  Mail data on the wire (RFC 5321, section 4.5.2).

  Lines end with CRLF, and a line that holds a single period ends the data.  So
  the sender puts a period in front of every line that starts with one
  (`stuff`), and the receiver takes it away again (`receive`).  Where a line
  starts is the only thing either has to remember (`Pos`).

  Main result: `receive_mail`.
-/

import Mathlib.Data.List.Basic

namespace Curl1C.Lib.Rfc5321

/-- The characters with a meaning. -/
structure Marks (α : Type*) where
  cr : α
  lf : α
  dot : α
  cr_ne_lf : cr ≠ lf
  cr_ne_dot : cr ≠ dot
  lf_ne_dot : lf ≠ dot

/-- Where the next character stands. -/
inductive Pos where
  /-- at the start of a line -/
  | line
  /-- right behind a CR -/
  | cr
  | text
deriving DecidableEq

variable {α : Type*}

/-- Characters in front of what is received. -/
def received (xs : List α) : Option (List α × List α) → Option (List α × List α) :=
  Option.map fun r => (xs ++ r.1, r.2)

@[simp] theorem received_nil (r : Option (List α × List α)) : received [] r = r := by
  cases r <;> rfl

theorem received_received (xs ys : List α) (r : Option (List α × List α)) :
    received xs (received ys r) = received (xs ++ ys) r := by
  cases r <;> simp [received]

variable [DecidableEq α] (m : Marks α)

namespace Pos

/-- Where the character behind `x` stands. -/
def next (p : Pos) (x : α) : Pos :=
  if x = m.cr then .cr else if p = .cr ∧ x = m.lf then .line else .text

/-- Where the character behind a text stands. -/
def after (p : Pos) (xs : List α) : Pos := xs.foldl (next m) p

@[simp] theorem after_nil (p : Pos) : p.after m [] = p := rfl

@[simp] theorem after_cons (p : Pos) (x : α) (xs : List α) :
    p.after m (x :: xs) = (p.next m x).after m xs := rfl

theorem after_append (p : Pos) (xs ys : List α) :
    p.after m (xs ++ ys) = (p.after m xs).after m ys := List.foldl_append

theorem next_cr (p : Pos) : p.next m m.cr = .cr := if_pos rfl

theorem cr_next_lf : Pos.cr.next m m.lf = .line := by
  rw [next, if_neg m.cr_ne_lf.symm, if_pos ⟨rfl, rfl⟩]

theorem next_dot (p : Pos) : p.next m m.dot = .text := by
  rw [next, if_neg m.cr_ne_dot.symm, if_neg fun h => m.lf_ne_dot h.2.symm]

end Pos

/-! ## The sender -/

/-- One character of the text as it is sent. -/
def stuffAt (p : Pos) (x : α) : List α := if p = .line ∧ x = m.dot then [m.dot, m.dot] else [x]

/-- A text as it is sent. -/
def stuff : Pos → List α → List α
  | _, [] => []
  | p, x :: xs => stuffAt m p x ++ stuff (p.next m x) xs

/-- What the sender puts behind the text. -/
def terminator : Pos → List α
  | .line => [m.dot, m.cr, m.lf]
  | _ => [m.cr, m.lf, m.dot, m.cr, m.lf]

@[simp] theorem stuff_nil (p : Pos) : stuff m p [] = [] := rfl

theorem stuff_cons (p : Pos) (x : α) (xs : List α) :
    stuff m p (x :: xs) = stuffAt m p x ++ stuff m (p.next m x) xs := rfl

/-- A text that is sent in two pieces. -/
theorem stuff_append (p : Pos) (xs ys : List α) :
    stuff m p (xs ++ ys) = stuff m p xs ++ stuff m (p.after m xs) ys := by
  induction xs generalizing p with
  | nil => rfl
  | cons x xs ih => rw [List.cons_append, stuff_cons, stuff_cons, ih, List.append_assoc, Pos.after_cons]

theorem length_stuffAt (p : Pos) (x : α) :
    (stuffAt m p x).length = if p = .line ∧ x = m.dot then 2 else 1 := by
  unfold stuffAt
  split <;> rfl

theorem length_le_stuff (p : Pos) (xs : List α) : xs.length ≤ (stuff m p xs).length := by
  induction xs generalizing p with
  | nil => exact Nat.le_refl 0
  | cons x xs ih =>
      have hrest := ih (p.next m x)
      have hfirst := length_stuffAt m p x
      rw [stuff_cons, List.length_append, List.length_cons]
      split at hfirst <;> omega

/-- A text that is sent with its own length is sent as it is. -/
theorem stuff_eq_self {p : Pos} {xs : List α} (h : (stuff m p xs).length = xs.length) :
    stuff m p xs = xs := by
  induction xs generalizing p with
  | nil => rfl
  | cons x xs ih =>
      have hrest := length_le_stuff m (p.next m x) xs
      have hfirst := length_stuffAt m p x
      rw [stuff_cons, List.length_append, List.length_cons] at h
      rw [stuff_cons, ih (by split at hfirst <;> omega)]
      unfold stuffAt
      split at hfirst
      · omega
      · rw [if_neg ‹_›]
        rfl

/-! ## The receiver -/

/-- What the receiver has seen of the current line. -/
inductive Seen where
  | at (p : Pos)
  /-- a period at its start -/
  | dot
  /-- a period at its start and a CR behind it -/
  | dotCr

/-- The data, and what follows it; `none` while the end has not been seen. -/
def receive : Seen → List α → Option (List α × List α)
  | _, [] => none
  | .at p, x :: xs =>
      if p = .line ∧ x = m.dot then receive .dot xs
      else received [x] (receive (.at (p.next m x)) xs)
  | .dot, x :: xs =>
      if x = m.cr then receive .dotCr xs else received [x] (receive (.at (Pos.text.next m x)) xs)
  | .dotCr, x :: xs =>
      if x = m.lf then some ([], xs)
      else received [m.cr, x] (receive (.at (Pos.cr.next m x)) xs)

/-- The receiver gets back each character of the text. -/
theorem receive_stuffAt (p : Pos) (x : α) (tail : List α) :
    receive m (.at p) (stuffAt m p x ++ tail) = received [x] (receive m (.at (p.next m x)) tail) := by
  unfold stuffAt
  by_cases h : p = .line ∧ x = m.dot
  · obtain ⟨rfl, rfl⟩ := h
    have hdot : Pos.text.next m m.dot = Pos.line.next m m.dot := by
      rw [Pos.next_dot, Pos.next_dot]
    rw [if_pos ⟨rfl, rfl⟩, List.cons_append, List.singleton_append, receive, if_pos ⟨rfl, rfl⟩,
      receive, if_neg m.cr_ne_dot.symm, hdot]
  · rw [if_neg h, List.singleton_append, receive, if_neg h]

theorem receive_stuff (p : Pos) (xs tail : List α) :
    receive m (.at p) (stuff m p xs ++ tail) = received xs (receive m (.at (p.after m xs)) tail) := by
  induction xs generalizing p with
  | nil => exact (received_nil _).symm
  | cons x xs ih =>
      rw [stuff_cons, List.append_assoc, receive_stuffAt, ih, received_received, Pos.after_cons]
      rfl

/-- A period on its own ends the data at the start of a line only. -/
theorem receive_period (p : Pos) (rest : List α) :
    receive m (.at p) (m.dot :: m.cr :: m.lf :: rest) =
      if p = .line then some ([], rest)
      else received [m.dot, m.cr, m.lf] (receive m (.at .line) rest) := by
  by_cases hp : p = .line
  · rw [if_pos hp, receive, if_pos ⟨hp, rfl⟩, receive, if_pos rfl, receive, if_pos rfl]
  · have hdot : ¬ (p = .line ∧ m.dot = m.dot) := fun h => hp h.1
    have hcr : ¬ (Pos.text = .line ∧ m.cr = m.dot) := fun h => m.cr_ne_dot h.2
    have hlf : ¬ (Pos.cr = .line ∧ m.lf = m.dot) := fun h => m.lf_ne_dot h.2
    rw [if_neg hp, receive, if_neg hdot, Pos.next_dot, receive, if_neg hcr, Pos.next_cr, receive,
      if_neg hlf, Pos.cr_next_lf, received_received, received_received]
    rfl

theorem receive_terminator (p : Pos) (rest : List α) :
    receive m (.at p) (terminator m p ++ rest) =
      some (if p = .line then [] else [m.cr, m.lf], rest) := by
  by_cases hp : p = .line
  · subst hp
    exact (receive_period m .line rest).trans (if_pos rfl)
  · have hterm : terminator m p = m.cr :: m.lf :: [m.dot, m.cr, m.lf] := by
      cases p with
      | line => exact absurd rfl hp
      | cr => rfl
      | text => rfl
    have hcr : ¬ (p = .line ∧ m.cr = m.dot) := fun h => m.cr_ne_dot h.2
    have hlf : ¬ (Pos.cr = .line ∧ m.lf = m.dot) := fun h => m.lf_ne_dot h.2
    rw [hterm, if_neg hp, List.cons_append, List.cons_append, receive, if_neg hcr, Pos.next_cr,
      receive, if_neg hlf, Pos.cr_next_lf]
    show received _ (received _ (receive m (.at .line) (m.dot :: m.cr :: m.lf :: rest))) = _
    rw [receive_period, if_pos rfl]
    rfl

/-- The data of a text: its last line ends like the others. -/
def lined (xs : List α) : List α :=
  if Pos.line.after m xs = .line then xs else xs ++ [m.cr, m.lf]

/-- Whatever follows it, the data of a mail ends where the sender ended it, and is
    the text. -/
theorem receive_mail (xs rest : List α) :
    receive m (.at .line)
        (stuff m .line xs ++ (terminator m (Pos.line.after m xs) ++ rest)) =
      some (lined m xs, rest) := by
  rw [receive_stuff, receive_terminator, lined]
  split <;> simp [received]

end Curl1C.Lib.Rfc5321
