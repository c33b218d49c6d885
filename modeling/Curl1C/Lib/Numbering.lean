/-
  Curl1C.Lib.Numbering

  Lists of keys whose positions are stored beside them.

  `numbered 0 L` pairs every element of `L` with its position.  A program that
  keeps only the pairs, in any order, has to renumber them when the list
  changes: everything from a position on moves by one for an insertion or a
  removal (`shift`), a range moves by one against the element that is moved
  (`moveTo`).  The lemmas say that these renumberings give the numbering of the
  new list, up to the order of the pairs.
-/

import Mathlib.Data.List.Basic

namespace Curl1C.Lib

variable {κ : Type*}

/-! ## Positions -/

theorem getElem?_snoc {A : List κ} {a b : κ} {n : Nat} :
    (A ++ [a])[n]? = some b ↔ A[n]? = some b ∨ (n = A.length ∧ b = a) := by
  rcases Nat.lt_trichotomy n A.length with hlt | rfl | hgt
  · rw [List.getElem?_append_left hlt]
    exact ⟨Or.inl, fun h => h.resolve_right fun h => absurd h.1 (Nat.ne_of_lt hlt)⟩
  · simp [eq_comm]
  · rw [List.getElem?_eq_none_iff.mpr (by simp; omega), List.getElem?_eq_none_iff.mpr (by omega)]
    simp [Nat.ne_of_gt hgt]

theorem exists_split_at {L : List κ} {n : Nat} (hn : n < L.length) :
    ∃ A k B, L = A ++ k :: B ∧ A.length = n := by
  refine ⟨L.take n, L[n], L.drop (n + 1), ?_, List.length_take_of_le (Nat.le_of_lt hn)⟩
  rw [← List.drop_eq_getElem_cons hn, List.take_append_drop]

theorem insertIdx_length (A B : List κ) (k : κ) :
    (A ++ B).insertIdx A.length k = A ++ k :: B :=
  List.modifyTailIdx_add (List.cons k) 0 A B

theorem eraseIdx_length (A B : List κ) (k : κ) : (A ++ k :: B).eraseIdx A.length = A ++ B := by
  rw [List.eraseIdx_append_of_length_le (Nat.le_refl _), Nat.sub_self, List.eraseIdx_cons_zero]

/-! ## Numberings -/

/-- The elements of a list with their positions, counted from `i`. -/
def numbered (i : Int) : List κ → List (κ × Int)
  | [] => []
  | k :: ks => (k, i) :: numbered (i + 1) ks

/-- New positions for the same elements. -/
def renumber (f : Int → Int) (l : List (κ × Int)) : List (κ × Int) := l.map fun e => (e.1, f e.2)

theorem numbered_append (i : Int) (A B : List κ) :
    numbered i (A ++ B) = numbered i A ++ numbered (i + A.length) B := by
  induction A generalizing i with
  | nil => simp [numbered]
  | cons k A ih =>
      have hnext : i + 1 + A.length = i + ((k :: A).length : Nat) := by
        rw [List.length_cons]
        omega
      rw [List.cons_append, numbered, numbered, ih, hnext, List.cons_append]

@[simp] theorem length_numbered (i : Int) (L : List κ) : (numbered i L).length = L.length := by
  induction L generalizing i with
  | nil => rfl
  | cons k L ih => rw [numbered, List.length_cons, List.length_cons, ih]

@[simp] theorem map_fst_numbered (i : Int) (L : List κ) : (numbered i L).map Prod.fst = L := by
  induction L generalizing i with
  | nil => rfl
  | cons k L ih => rw [numbered, List.map_cons, ih]

/-- Every position is used once. -/
theorem map_snd_numbered (i : Nat) (L : List κ) :
    (numbered i L).map Prod.snd = (List.range' i L.length).map Nat.cast := by
  induction L generalizing i with
  | nil => rfl
  | cons k L ih =>
      rw [numbered, List.map_cons, List.length_cons, List.range'_succ, List.map_cons]
      exact congrArg _ (ih (i + 1))

theorem mem_numbered {i x : Int} {k : κ} {L : List κ} :
    (k, x) ∈ numbered i L ↔ ∃ n : Nat, L[n]? = some k ∧ x = i + n := by
  induction L generalizing i with
  | nil => simp [numbered]
  | cons a L ih =>
      rw [numbered, List.mem_cons, ih]
      constructor
      · rintro (heq | ⟨n, hn, rfl⟩)
        · obtain ⟨rfl, rfl⟩ := Prod.mk.inj heq
          exact ⟨0, rfl, by omega⟩
        · exact ⟨n + 1, hn, by omega⟩
      · rintro ⟨n, hn, rfl⟩
        cases n with
        | zero =>
            obtain rfl := Option.some.inj hn
            exact Or.inl (by simp)
        | succ n => exact Or.inr ⟨n, hn, by omega⟩

theorem renumber_append (f : Int → Int) (l l' : List (κ × Int)) :
    renumber f (l ++ l') = renumber f l ++ renumber f l' := List.map_append

theorem renumber_cons (f : Int → Int) (k : κ) (x : Int) (l : List (κ × Int)) :
    renumber f ((k, x) :: l) = (k, f x) :: renumber f l := rfl

@[simp] theorem map_fst_renumber (f : Int → Int) (l : List (κ × Int)) :
    (renumber f l).map Prod.fst = l.map Prod.fst := by
  rw [renumber, List.map_map]
  rfl

@[simp] theorem length_renumber (f : Int → Int) (l : List (κ × Int)) :
    (renumber f l).length = l.length := List.length_map ..

/-- Moving a whole stretch. -/
theorem renumber_numbered {f : Int → Int} {i j : Int} {L : List κ}
    (hf : ∀ x, i ≤ x → x < i + L.length → f x = x + (j - i)) :
    renumber f (numbered i L) = numbered j L := by
  induction L generalizing i j with
  | nil => rfl
  | cons k L ih =>
      simp only [List.length_cons] at hf
      have hk : f i = j := by
        rw [hf i (Int.le_refl i) (by omega)]
        omega
      have hrest : renumber f (numbered (i + 1) L) = numbered (j + 1) L := by
        apply ih
        intro x hlow hhigh
        rw [hf x (by omega) (by omega)]
        omega
      rw [numbered, renumber_cons, hk, hrest, numbered]

/-! ## Insertion and removal -/

/-- Positions from `start` on move by `delta`. -/
def shift (start delta x : Int) : Int := if start ≤ x then x + delta else x

/-- Below the position of an insertion or a removal nothing moves. -/
theorem renumber_shift_below (A : List κ) (delta : Int) :
    renumber (shift A.length delta) (numbered 0 A) = numbered 0 A := by
  apply renumber_numbered
  intro x hlow hhigh
  rw [shift, if_neg (by omega)]
  omega

/-- From the position on everything moves. -/
theorem renumber_shift_above {i start : Int} (B : List κ) (delta : Int) (hi : start ≤ i) :
    renumber (shift start delta) (numbered i B) = numbered (i + delta) B := by
  apply renumber_numbered
  intro x hlow hhigh
  rw [shift, if_pos (by omega)]
  omega

theorem numbered_middle (A B : List κ) (k : κ) :
    (numbered 0 (A ++ k :: B)).Perm
      ((k, (A.length : Int)) :: (numbered 0 A ++ numbered (A.length + 1) B)) := by
  rw [numbered_append, numbered, Int.zero_add]
  exact List.perm_middle

/-- The numbering after an insertion. -/
theorem numbered_insert (A B : List κ) (k : κ) :
    (numbered 0 (A ++ k :: B)).Perm
      ((k, (A.length : Int)) :: renumber (shift A.length 1) (numbered 0 (A ++ B))) := by
  rw [numbered_append 0 A B, renumber_append, renumber_shift_below, Int.zero_add,
    renumber_shift_above B 1 (Int.le_refl _)]
  exact numbered_middle A B k

/-- The numbering after a removal. -/
theorem numbered_remove (A B : List κ) :
    renumber (shift A.length (-1)) (numbered 0 A ++ numbered (A.length + 1) B) =
      numbered 0 (A ++ B) := by
  rw [renumber_append, renumber_shift_below, renumber_shift_above B (-1) (by omega),
    numbered_append]
  congr 2
  omega

/-! ## Moves -/

/-- Takes an element out and puts it back at another position. -/
def moveElem (L : List κ) (i j : Nat) : List κ :=
  match L[i]? with
  | some k => (L.eraseIdx i).insertIdx j k
  | none => L

/-- The element at `i` moves by `offset`; those that it passes move by one the
    other way. -/
def moveTo (i offset x : Int) : Int :=
  if x = i then i + offset
  else if offset < 0 then if i + offset ≤ x ∧ x ≤ i then x + 1 else x
  else if i ≤ x ∧ x ≤ i + offset then x - 1
  else x

theorem moveElem_forward (A B C : List κ) (k : κ) :
    moveElem (A ++ k :: (B ++ C)) A.length (A.length + B.length) = A ++ (B ++ k :: C) := by
  have hget : (A ++ k :: (B ++ C))[A.length]? = some k := by simp
  have hinsert := insertIdx_length (A ++ B) C k
  simp only [List.length_append, List.append_assoc] at hinsert
  rw [moveElem, hget]
  simp only [eraseIdx_length, hinsert]

theorem moveElem_backward (A B C : List κ) (k : κ) :
    moveElem (A ++ (B ++ k :: C)) (A.length + B.length) A.length = A ++ k :: (B ++ C) := by
  have hget : (A ++ (B ++ k :: C))[A.length + B.length]? = some k := by
    rw [← List.append_assoc, ← List.length_append]
    simp
  have herase := eraseIdx_length (A ++ B) C k
  simp only [List.length_append, List.append_assoc] at herase
  rw [moveElem, hget]
  simp only [herase, insertIdx_length]

theorem numbered_forward (A B C : List κ) (k : κ) (hB : B ≠ []) :
    (renumber (moveTo A.length B.length) (numbered 0 (A ++ k :: (B ++ C)))).Perm
      (numbered 0 (A ++ (B ++ k :: C))) := by
  have hpos : 0 < B.length := List.length_pos_iff.mpr hB
  -- `A` and `C` keep their numbers, and `B` closes the gap that `k` leaves
  have hk : moveTo A.length B.length A.length = A.length + B.length := if_pos rfl
  have hA : renumber (moveTo A.length B.length) (numbered 0 A) = numbered 0 A := by
    apply renumber_numbered
    intro x hlow hhigh
    rw [moveTo, if_neg (by omega), if_neg (by omega), if_neg (by omega)]
    omega
  have hBs : renumber (moveTo A.length B.length) (numbered (A.length + 1) B) =
      numbered A.length B := by
    apply renumber_numbered
    intro x hlow hhigh
    rw [moveTo, if_neg (by omega), if_neg (by omega), if_pos (by omega)]
    omega
  have hC : renumber (moveTo A.length B.length) (numbered (A.length + 1 + B.length) C) =
      numbered (A.length + B.length + 1) C := by
    apply renumber_numbered
    intro x hlow hhigh
    rw [moveTo, if_neg (by omega), if_neg (by omega), if_neg (by omega)]
    omega
  simp only [numbered_append, numbered, Int.zero_add, renumber_append, renumber_cons, hk, hA, hBs,
    hC]
  exact List.Perm.append_left _ List.perm_middle.symm

theorem numbered_backward (A B C : List κ) (k : κ) (hB : B ≠ []) :
    (renumber (moveTo (A.length + B.length) (-B.length)) (numbered 0 (A ++ (B ++ k :: C)))).Perm
      (numbered 0 (A ++ k :: (B ++ C))) := by
  have hpos : 0 < B.length := List.length_pos_iff.mpr hB
  -- here `B` makes room in front of it
  have hk : moveTo (A.length + B.length) (-B.length) (A.length + B.length) = A.length := by
    rw [moveTo, if_pos rfl]
    omega
  have hA : renumber (moveTo (A.length + B.length) (-B.length)) (numbered 0 A) = numbered 0 A := by
    apply renumber_numbered
    intro x hlow hhigh
    rw [moveTo, if_neg (by omega), if_pos (by omega), if_neg (by omega)]
    omega
  have hBs : renumber (moveTo (A.length + B.length) (-B.length)) (numbered A.length B) =
      numbered (A.length + 1) B := by
    apply renumber_numbered
    intro x hlow hhigh
    rw [moveTo, if_neg (by omega), if_pos (by omega), if_pos (by omega)]
    omega
  have hC : renumber (moveTo (A.length + B.length) (-B.length))
      (numbered (A.length + B.length + 1) C) = numbered (A.length + 1 + B.length) C := by
    apply renumber_numbered
    intro x hlow hhigh
    rw [moveTo, if_neg (by omega), if_pos (by omega), if_neg (by omega)]
    omega
  simp only [numbered_append, numbered, Int.zero_add, renumber_append, renumber_cons, hk, hA, hBs,
    hC]
  exact List.Perm.append_left _ List.perm_middle

end Curl1C.Lib
