/-
  Curl1C.Lib.Sink

  Writing a buffer from its start through an advancing index, as in
  `buf[len++] = x`.

  A `Sink` is what has been written so far.  The index of the next write is
  the number of values written, so the `k`-th store is at index `k`
  (`stores_put`).  `writeAll` performs stores on a buffer and fails at the
  first one outside of it.

  A `Cursor` writes the same through a pointer that moves along the buffer, as
  in `*out++ = x`; `Sink.cursor` is where it stands after the stores of a sink.
-/

import Mathlib.Data.List.Induction

namespace Curl1C.Lib

variable {α : Type*}

/-- The values written so far, in order. -/
structure Sink (α : Type*) where
  values : List α

namespace Sink

/-- Nothing written yet. -/
def empty : Sink α := ⟨[]⟩

/-- The index of the next write. -/
def len (s : Sink α) : Nat := s.values.length

/-- `buf[len++] = x`. -/
def put (x : α) (s : Sink α) : Sink α := ⟨s.values ++ [x]⟩

/-- `put` the values of a list one after the other. -/
def putAll (xs : List α) (s : Sink α) : Sink α := ⟨s.values ++ xs⟩

/-- The stores performed so far: index and value. -/
def stores (s : Sink α) : List (Nat × α) := s.values.zipIdx.map Prod.swap

@[simp] theorem values_empty : (empty : Sink α).values = [] := rfl

@[simp] theorem values_putAll (xs : List α) (s : Sink α) :
    (s.putAll xs).values = s.values ++ xs := rfl

@[simp] theorem len_putAll (xs : List α) (s : Sink α) :
    (s.putAll xs).len = s.len + xs.length := by
  simp only [len, values_putAll, List.length_append]

theorem stores_put (x : α) (s : Sink α) : (s.put x).stores = s.stores ++ [(s.len, x)] := by
  simp only [stores, put, len, List.zipIdx_append, List.map_append]
  simp

/-- The store at index `i` is the `i`-th value. -/
theorem mem_stores_iff {s : Sink α} {i : Nat} {x : α} :
    (i, x) ∈ s.stores ↔ s.values[i]? = some x := by
  simp [stores, List.mem_zipIdx_iff_getElem?]

/-- Every store is inside a buffer of size `n` exactly when the index has not
    passed `n`. -/
theorem forall_stores_lt_iff (s : Sink α) (n : Nat) : (∀ w ∈ s.stores, w.1 < n) ↔ s.len ≤ n := by
  constructor
  · intro h
    by_contra hlt
    have hn : n < s.values.length := by
      unfold len at hlt
      omega
    have hbad := h (n, s.values[n]) (mem_stores_iff.mpr (List.getElem?_eq_getElem hn))
    exact absurd hbad (Nat.lt_irrefl n)
  · intro hle w hw
    have hw' := mem_stores_iff.mp hw
    have hi : w.1 < s.values.length := (List.getElem?_eq_some_iff.mp hw').1
    exact Nat.lt_of_lt_of_le hi hle

end Sink

/-- One store, refused outside the buffer. -/
def writeAt (buf : List α) (w : Nat × α) : Option (List α) :=
  if w.1 < buf.length then some (buf.set w.1 w.2) else none

/-- Stores performed one after the other. -/
def writeAll (buf : List α) (ws : List (Nat × α)) : Option (List α) := ws.foldlM writeAt buf

theorem writeAll_put (buf : List α) (x : α) (s : Sink α) :
    writeAll buf (s.put x).stores = (writeAll buf s.stores).bind (fun b => writeAt b (s.len, x)) := by
  rw [Sink.stores_put, writeAll, List.foldlM_append]
  simp only [List.foldlM_cons, List.foldlM_nil, bind_pure]
  rfl

/-- A sink that fits replaces the start of the buffer. -/
theorem writeAll_stores {buf : List α} {s : Sink α} (h : s.len ≤ buf.length) :
    writeAll buf s.stores = some (s.values ++ buf.drop s.len) := by
  obtain ⟨values⟩ := s
  -- induction on the last value written
  induction values using List.reverseRecOn with
  | nil => rfl
  | append_singleton xs x ih =>
      have hlen : xs.length < buf.length := by
        simp only [Sink.len, List.length_append, List.length_singleton] at h
        omega
      have hput := writeAll_put buf x (Sink.mk xs)
      rw [ih (Nat.le_of_lt hlen), Option.bind_some] at hput
      have hfits : xs.length < (xs ++ buf.drop xs.length).length := by
        simp only [List.length_append, List.length_drop]
        omega
      have hset : (xs ++ buf.drop xs.length).set xs.length x =
          (xs ++ [x]) ++ buf.drop (xs.length + 1) := by
        rw [List.set_append_right _ _ (Nat.le_refl _), Nat.sub_self,
          List.drop_eq_getElem_cons hlen, List.set_cons_zero, List.append_assoc]
        rfl
      calc writeAll buf ((Sink.mk xs).put x).stores
          = writeAt (xs ++ buf.drop xs.length) (xs.length, x) := hput
        _ = some ((xs ++ buf.drop xs.length).set xs.length x) := if_pos hfits
        _ = some ((xs ++ [x]) ++ buf.drop (xs ++ [x]).length) := by
            rw [hset, List.length_append, List.length_singleton]

/-- A sink that does not fit fails at the first store behind the end. -/
theorem writeAll_stores_of_lt {buf : List α} {s : Sink α} (h : buf.length < s.len) :
    writeAll buf s.stores = none := by
  obtain ⟨values⟩ := s
  induction values using List.reverseRecOn with
  | nil => exact absurd h (Nat.not_lt_zero _)
  | append_singleton xs x ih =>
      have hput := writeAll_put buf x (Sink.mk xs)
      by_cases hlt : buf.length < xs.length
      · rw [ih hlt, Option.bind_none] at hput
        exact hput
      · -- everything in front of the last value fills the buffer
        have hlen : xs.length = buf.length := by
          simp only [Sink.len, List.length_append, List.length_singleton] at h
          omega
        have hfull : writeAll buf (Sink.mk xs).stores = some xs := by
          rw [writeAll_stores (Nat.le_of_eq hlen)]
          simp [Sink.len, hlen]
        rw [hfull, Option.bind_some] at hput
        exact hput.trans (if_neg (Nat.lt_irrefl xs.length))

/-- What the stores of a sink do to a buffer. -/
theorem writeAll_stores_eq (buf : List α) (s : Sink α) :
    writeAll buf s.stores = if s.len ≤ buf.length then some (s.values ++ buf.drop s.len) else none := by
  split
  · exact writeAll_stores ‹_›
  · exact writeAll_stores_of_lt (Nat.lt_of_not_le ‹_›)

/-! ## A moving pointer -/

/-- A buffer and the distance of the pointer from its start. -/
@[ext] structure Cursor (α : Type*) where
  mem : List α
  pos : Nat

namespace Cursor

/-- `*out++ = x`. -/
def put (x : α) (cur : Cursor α) : Option (Cursor α) :=
  (writeAt cur.mem (cur.pos, x)).map fun mem => ⟨mem, cur.pos + 1⟩

/-- `put` the values of a list one after the other. -/
def putAll (xs : List α) (cur : Cursor α) : Option (Cursor α) := xs.foldlM (fun cur x => cur.put x) cur

end Cursor

namespace Sink

/-- The cursor that has performed the stores of a sink. -/
def cursor (buf : List α) (s : Sink α) : Option (Cursor α) :=
  (writeAll buf s.stores).map fun mem => ⟨mem, s.len⟩

theorem cursor_put (buf : List α) (x : α) (s : Sink α) :
    (s.cursor buf).bind (Cursor.put x) = (s.put x).cursor buf := by
  rw [cursor, cursor, writeAll_put]
  cases writeAll buf s.stores with
  | none => rfl
  | some mem =>
      have hlen : (s.put x).len = s.len + 1 := List.length_append
      rw [Option.map_some, Option.bind_some, Option.bind_some, Cursor.put, hlen]

/-- The cursor follows the sink. -/
theorem cursor_putAll (buf : List α) (xs : List α) (s : Sink α) :
    (s.cursor buf).bind (Cursor.putAll xs) = (s.putAll xs).cursor buf := by
  induction xs generalizing s with
  | nil =>
      have hsame : s.putAll [] = s := congrArg Sink.mk (List.append_nil _)
      rw [hsame]
      exact Option.bind_fun_some _
  | cons x xs ih =>
      have hstep : s.putAll (x :: xs) = (s.put x).putAll xs :=
        congrArg Sink.mk (by simp [put])
      rw [hstep, ← ih, ← cursor_put, Option.bind_assoc]
      rfl

end Sink

end Curl1C.Lib
