/-
  Curl1C.Lib.Lines

  Cutting a list into lines.

  Lines end in front of a pair of elements `x y`, which belongs to no line, or
  when they have `width` elements, or at the end of the list.  A pair behind a
  line of `width` elements is left out as well; a line may be empty only in
  front of a pair.

  `cutFrom` gives the lines as index ranges.  `cutFrom_count` says that they
  and the pairs left out cover every index once.
-/

import Mathlib.Algebra.Ring.Nat
import Mathlib.Data.List.Basic

namespace Curl1C.Lib

/-- A line: `len` elements from the index `start` on, and whether the pair
    behind them is left out. -/
structure Piece where
  start : Nat
  len : Nat
  skips : Bool
deriving DecidableEq

namespace Piece

/-- The index behind the line and what it leaves out. -/
def stop (p : Piece) : Nat := p.start + p.len + if p.skips then 2 else 0

/-- The line has the element with index `k`. -/
def shows (p : Piece) (k : Nat) : Bool := p.start ≤ k ∧ k < p.start + p.len

/-- The line leaves the element with index `k` out. -/
def drops (p : Piece) (k : Nat) : Bool := p.start + p.len ≤ k ∧ k < p.stop

/-- The elements of the line. -/
def elems {α : Type*} (l : List α) (p : Piece) : List α := (l.drop p.start).take p.len

end Piece

section Cutting

variable {α : Type*} [DecidableEq α] (x y : α) (width : Nat) (l : List α)

/-- The pair `x y` is at index `k`. -/
def PairAt (k : Nat) : Prop := l[k]? = some x ∧ l[k + 1]? = some y

instance (k : Nat) : Decidable (PairAt x y l k) := inferInstanceAs (Decidable (_ ∧ _))

/-- The distance from index `i` to the next pair, or to the end if there is
    none. -/
def pairDist (i : Nat) : Nat := (List.range (l.length - i)).findIdx fun d => PairAt x y l (i + d)

/-- The number of elements of a line from index `i` on. -/
def lineLen (i : Nat) : Nat := min width (min (pairDist x y l i) (l.length - i))

/-- The line from index `i` on. -/
def pieceAt (i : Nat) : Piece :=
  if PairAt x y l i then { start := i, len := 0, skips := true }
  else
    { start := i, len := lineLen x y width l i
      skips := PairAt x y l (i + lineLen x y width l i) }

variable {x y width l}

omit [DecidableEq α] in
/-- A pair is inside the list. -/
theorem PairAt.lt_length {k : Nat} (h : PairAt x y l k) : k + 1 < l.length :=
  (List.getElem?_eq_some_iff.mp h.2).1

/-- The next pair is not in front of its distance. -/
theorem not_pairAt_of_lt {i d : Nat} (h : d < pairDist x y l i) : ¬ PairAt x y l (i + d) := by
  have hnot := List.not_of_lt_findIdx h
  simpa using hnot

/-- At its distance there is the pair or the end. -/
theorem pairAt_of_pairDist_lt {i : Nat} (h : pairDist x y l i < l.length - i) :
    PairAt x y l (i + pairDist x y l i) := by
  unfold pairDist at h ⊢
  have hlt : (List.range (l.length - i)).findIdx (fun d => decide (PairAt x y l (i + d))) <
      (List.range (l.length - i)).length := by
    rwa [List.length_range]
  have hat := List.findIdx_getElem (w := hlt)
  rw [List.getElem_range] at hat
  exact of_decide_eq_true hat

/-- A line ends after `c` elements if no pair starts in front of that, and
    there the line is full, the list ends or a pair starts. -/
theorem lineLen_eq {i c : Nat} (hbefore : ∀ d < c, ¬ PairAt x y l (i + d)) (hwidth : c ≤ width)
    (hlen : i + c ≤ l.length)
    (hend : c = width ∨ i + c = l.length ∨ PairAt x y l (i + c)) : lineLen x y width l i = c := by
  have hle : c ≤ pairDist x y l i := by
    by_contra hlt
    exact hbefore _ (by omega) (pairAt_of_pairDist_lt (by omega))
  unfold lineLen
  rcases hend with hfull | hstop | hpair
  · omega
  · omega
  · have hge : pairDist x y l i ≤ c := by
      by_contra hlt
      exact not_pairAt_of_lt (Nat.lt_of_not_le hlt) hpair
    omega

/-- A line is empty only in front of a pair. -/
theorem lineLen_pos {i : Nat} (hwidth : 0 < width) (hi : i < l.length) (h : ¬ PairAt x y l i) :
    0 < lineLen x y width l i := by
  have hdist : 0 < pairDist x y l i := by
    by_contra hzero
    have hnone : pairDist x y l i = 0 := Nat.eq_zero_of_not_pos hzero
    have hat : PairAt x y l (i + pairDist x y l i) := pairAt_of_pairDist_lt (by omega)
    rw [hnone] at hat
    exact h hat
  unfold lineLen
  omega

/-- The line from a pair on. -/
theorem pieceAt_of_pairAt {i : Nat} (h : PairAt x y l i) :
    pieceAt x y width l i = { start := i, len := 0, skips := true } := if_pos h

/-- The line from anywhere else. -/
theorem pieceAt_of_not_pairAt {i c : Nat} (h : ¬ PairAt x y l i) (hc : lineLen x y width l i = c) :
    pieceAt x y width l i = { start := i, len := c, skips := PairAt x y l (i + c) } := by
  subst hc
  exact if_neg h

variable (x y width l)

theorem start_pieceAt (i : Nat) : (pieceAt x y width l i).start = i := by
  unfold pieceAt
  split <;> rfl

theorem lt_stop_pieceAt {i : Nat} (hwidth : 0 < width) (hi : i < l.length) :
    i < (pieceAt x y width l i).stop := by
  unfold pieceAt
  split
  · simp only [Piece.stop, if_true]
    omega
  · have hpos := lineLen_pos hwidth hi ‹_›
    simp only [Piece.stop]
    omega

/-- A piece ends inside the list. -/
theorem stop_pieceAt_le {i : Nat} (hi : i < l.length) :
    (pieceAt x y width l i).stop ≤ l.length := by
  unfold pieceAt
  split
  · have hinside := PairAt.lt_length ‹PairAt x y l i›
    simp only [Piece.stop, if_true]
    omega
  · have hlen : lineLen x y width l i ≤ l.length - i := by
      unfold lineLen
      omega
    by_cases hpair : PairAt x y l (i + lineLen x y width l i)
    · have hinside := hpair.lt_length
      simp only [Piece.stop, hpair, decide_true, if_true]
      omega
    · simp only [Piece.stop, hpair, decide_false, Bool.false_eq_true, if_false]
      omega

/-- The lines from index `i` on. -/
def cutFrom [NeZero width] (i : Nat) : List Piece :=
  if i < l.length then
    pieceAt x y width l i :: cutFrom (pieceAt x y width l i).stop
  else []
termination_by l.length - i
decreasing_by
  have hadvance := lt_stop_pieceAt x y width l (Nat.pos_of_neZero width) ‹i < l.length›
  omega

variable {x y width l} [NeZero width]

theorem cutFrom_of_lt {i : Nat} (hi : i < l.length) :
    cutFrom x y width l i =
      pieceAt x y width l i :: cutFrom x y width l (pieceAt x y width l i).stop := by
  rw [cutFrom, if_pos hi]

theorem cutFrom_of_le {i : Nat} (hi : l.length ≤ i) : cutFrom x y width l i = [] := by
  rw [cutFrom, if_neg (Nat.not_lt_of_le hi)]

/-- A line shows or leaves out what is between its start and its stop. -/
theorem Piece.shows_add_drops (p : Piece) (k : Nat) :
    (if p.shows k then 1 else 0) + (if p.drops k then 1 else 0) =
      if p.start ≤ k ∧ k < p.stop then 1 else 0 := by
  have hstop : p.start + p.len ≤ p.stop := Nat.le_add_right _ _
  simp only [shows, drops, decide_eq_true_eq]
  split_ifs <;> omega

/-- Every index from `i` on is in one line or left out by one line. -/
theorem cutFrom_count (i k : Nat) :
    (cutFrom x y width l i).countP (·.shows k) + (cutFrom x y width l i).countP (·.drops k) =
      if i ≤ k ∧ k < l.length then 1 else 0 := by
  induction i using cutFrom.induct x y width l with
  | case1 i hi ih =>
      rw [cutFrom_of_lt hi, List.countP_cons, List.countP_cons]
      -- the first line has the indexes up to its stop, the others those behind
      have hpiece := Piece.shows_add_drops (pieceAt x y width l i) k
      rw [start_pieceAt] at hpiece
      have hadvance := lt_stop_pieceAt x y width l (Nat.pos_of_neZero width) hi
      have hstop := stop_pieceAt_le x y width l hi
      split_ifs at ih hpiece ⊢ <;> omega
  | case2 i hi =>
      rw [cutFrom_of_le (Nat.le_of_not_lt hi), if_neg (fun h => hi (Nat.lt_of_le_of_lt h.1 h.2))]
      rfl

/-- What a line leaves out is a pair. -/
theorem pairAt_of_skips {i : Nat} {p : Piece} (hp : p ∈ cutFrom x y width l i) (h : p.skips = true) :
    PairAt x y l (p.start + p.len) := by
  induction i using cutFrom.induct x y width l with
  | case1 i hi ih =>
      rw [cutFrom_of_lt hi, List.mem_cons] at hp
      rcases hp with rfl | hp
      · unfold pieceAt at h ⊢
        split
        · assumption
        · rw [if_neg ‹_›] at h
          exact of_decide_eq_true h
      · exact ih hp
  | case2 i hi =>
      rw [cutFrom_of_le (Nat.le_of_not_lt hi)] at hp
      cases hp

end Cutting

end Curl1C.Lib
