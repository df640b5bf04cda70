import Mathlib.Data.Set.Basic
import Mathlib.Order.Bounds.Basic
import UiMarkup.Spelling

/-!
The distance of two texts is the length of a shortest run of edits from one to the other
(`isLeast_distance`). Between them stands the recursion that takes one character off each text
(`leastEdits`): it can be followed by edits, and one edit changes it by one at the most. The rows of
the table hold its values for the beginnings of both texts, read from the right.
-/

namespace UiMarkup.Spelling

/-- One character more, one less, or another one in its place. -/
inductive Edit : List Char → List Char → Prop
  | insert (a : List Char) (c : Char) (b : List Char) : Edit (a ++ b) (a ++ c :: b)
  | delete (a : List Char) (c : Char) (b : List Char) : Edit (a ++ c :: b) (a ++ b)
  | replace (a : List Char) (c d : Char) (b : List Char) : Edit (a ++ c :: b) (a ++ d :: b)

/-- So many edits, one after another, turn the first text into the second. -/
inductive Edits : Nat → List Char → List Char → Prop
  | none (s : List Char) : Edits 0 s s
  | more {n : Nat} {s t u : List Char} (first : Edit s t) (others : Edits n t u) : Edits (n + 1) s u

/-- The least number of edits between two texts, by what becomes of the first character of each. -/
def leastEdits : List Char → List Char → Nat
  | [], t => t.length
  | s, [] => s.length
  | c :: s, d :: t =>
    min (min (leastEdits s (d :: t) + 1) (leastEdits (c :: s) t + 1))
      (leastEdits s t + if c = d then 0 else 1)

variable {n m : Nat} {s t u : List Char}

/-! ### Edits -/

theorem Edit.symm (h : Edit s t) : Edit t s := by
  cases h with
  | insert a c b => exact .delete a c b
  | delete a c b => exact .insert a c b
  | replace a c d b => exact .replace a d c b

theorem Edit.cons (c : Char) (h : Edit s t) : Edit (c :: s) (c :: t) := by
  cases h with
  | insert a d b => exact .insert (c :: a) d b
  | delete a d b => exact .delete (c :: a) d b
  | replace a d e b => exact .replace (c :: a) d e b

theorem Edit.reverse (h : Edit s t) : Edit s.reverse t.reverse := by
  cases h with
  | insert a c b => simpa using Edit.insert b.reverse c a.reverse
  | delete a c b => simpa using Edit.delete b.reverse c a.reverse
  | replace a c d b => simpa using Edit.replace b.reverse c d a.reverse

namespace Edits

theorem trans (h : Edits n s t) (h' : Edits m t u) : Edits (n + m) s u := by
  induction h with
  | none s => simpa using h'
  | more first _ ih =>
      rw [Nat.add_right_comm]
      exact .more first (ih h')

theorem single (h : Edit s t) : Edits 1 s t := .more h (.none t)

theorem min (h : Edits n s t) (h' : Edits m s t) : Edits (min n m) s t := by
  rcases Nat.le_total n m with le | le
  · rwa [Nat.min_eq_left le]
  · rwa [Nat.min_eq_right le]

theorem symm (h : Edits n s t) : Edits n t s := by
  induction h with
  | none s => exact .none s
  | more first _ ih => exact ih.trans (single first.symm)

theorem cons (c : Char) (h : Edits n s t) : Edits n (c :: s) (c :: t) := by
  induction h with
  | none s => exact .none (c :: s)
  | more first _ ih => exact .more (first.cons c) ih

theorem reverse (h : Edits n s t) : Edits n s.reverse t.reverse := by
  induction h with
  | none s => exact .none s.reverse
  | more first _ ih => exact .more first.reverse ih

theorem reverse_iff : Edits n s.reverse t.reverse ↔ Edits n s t :=
  ⟨fun h => by simpa using h.reverse, reverse⟩

theorem insertAll (t : List Char) : Edits t.length [] t := by
  induction t with
  | nil => exact .none []
  | cons d t ih => exact .more (.insert [] d []) (ih.cons d)

end Edits

/-! ### The recursion -/

@[simp] theorem leastEdits_nil_left (t : List Char) : leastEdits [] t = t.length := by
  rw [leastEdits]

@[simp] theorem leastEdits_nil_right (s : List Char) : leastEdits s [] = s.length := by
  cases s <;> rw [leastEdits]
  simp

theorem leastEdits_cons_cons (c d : Char) (s t : List Char) : leastEdits (c :: s) (d :: t) =
    min (min (leastEdits s (d :: t) + 1) (leastEdits (c :: s) t + 1))
      (leastEdits s t + if c = d then 0 else 1) := by
  rw [leastEdits]

/-- The recursion is followed by edits at the front. -/
theorem edits_leastEdits (s t : List Char) : Edits (leastEdits s t) s t := by
  fun_induction leastEdits s t with
  | case1 t => exact .insertAll t
  | case2 s => exact (Edits.insertAll s).symm
  | case3 c s d t dropped added both =>
      have hdrop : Edits (leastEdits s (d :: t) + 1) (c :: s) (d :: t) :=
        .more (.delete [] c s) dropped
      have hadd : Edits (leastEdits (c :: s) t + 1) (c :: s) (d :: t) :=
        .more (.insert [] d (c :: s)) (added.cons d)
      have hboth : Edits (leastEdits s t + if c = d then 0 else 1) (c :: s) (d :: t) := by
        split
        · next same => exact same ▸ both.cons c
        · exact .more (.replace [] c d s) (both.cons d)
      exact (hdrop.min hadd).min hboth

theorem leastEdits_self (s : List Char) : leastEdits s s = 0 := by
  induction s with
  | nil => simp
  | cons c s ih => simp [leastEdits_cons_cons, ih]

theorem leastEdits_cons_left_le (c : Char) (s u : List Char) :
    leastEdits (c :: s) u ≤ leastEdits s u + 1 := by
  cases u with
  | nil => simp
  | cons d u =>
      rw [leastEdits_cons_cons]
      omega

theorem leastEdits_cons_right_le (s : List Char) (d : Char) (u : List Char) :
    leastEdits s (d :: u) ≤ leastEdits s u + 1 := by
  cases s with
  | nil => simp
  | cons c s =>
      rw [leastEdits_cons_cons]
      omega

theorem le_leastEdits_cons_left (c : Char) (s u : List Char) :
    leastEdits s u ≤ leastEdits (c :: s) u + 1 := by
  induction u with
  | nil =>
      simp only [leastEdits_nil_right, List.length_cons]
      omega
  | cons d u ih =>
      have := leastEdits_cons_right_le s d u
      rw [leastEdits_cons_cons c d]
      omega

theorem leastEdits_replace_le (c d : Char) (s u : List Char) :
    leastEdits (c :: s) u ≤ leastEdits (d :: s) u + 1 := by
  induction u with
  | nil => simp
  | cons e u ih =>
      have := leastEdits_cons_left_le c s u
      have hc := leastEdits_cons_cons c e s u
      have hd := leastEdits_cons_cons d e s u
      split at hc <;> split at hd <;> omega

/-- A difference by one stays one behind a common character. -/
theorem leastEdits_cons_le (c : Char) (h : ∀ u, leastEdits s u ≤ leastEdits t u + 1)
    (u : List Char) : leastEdits (c :: s) u ≤ leastEdits (c :: t) u + 1 := by
  induction u with
  | nil => simpa using h []
  | cons d u ih =>
      have := h u
      have := h (d :: u)
      rw [leastEdits_cons_cons c d s, leastEdits_cons_cons c d t]
      omega

theorem leastEdits_append_le (a : List Char) (h : ∀ u, leastEdits s u ≤ leastEdits t u + 1)
    (u : List Char) : leastEdits (a ++ s) u ≤ leastEdits (a ++ t) u + 1 := by
  induction a generalizing u with
  | nil => exact h u
  | cons c a ih => exact leastEdits_cons_le c ih u

/-- One edit changes the number by one at the most. -/
theorem Edit.leastEdits_le (h : Edit s t) (u : List Char) :
    leastEdits s u ≤ leastEdits t u + 1 := by
  cases h with
  | insert a c b => exact leastEdits_append_le a (le_leastEdits_cons_left c b) u
  | delete a c b => exact leastEdits_append_le a (leastEdits_cons_left_le c b) u
  | replace a c d b => exact leastEdits_append_le a (leastEdits_replace_le c d b) u

theorem leastEdits_le (h : Edits n s t) : leastEdits s t ≤ n := by
  induction h with
  | none s => rw [leastEdits_self]
  | @more n s t u first _ ih =>
      have := first.leastEdits_le u
      omega

theorem isLeast_leastEdits (s t : List Char) : IsLeast {n | Edits n s t} (leastEdits s t) :=
  ⟨edits_leastEdits s t, fun _ h => leastEdits_le h⟩

theorem leastEdits_comm (s t : List Char) : leastEdits s t = leastEdits t s :=
  Nat.le_antisymm (leastEdits_le (edits_leastEdits t s).symm)
    (leastEdits_le (edits_leastEdits s t).symm)

/-! ### The table -/

/-- The entries of a row behind those for `before`. The characters of both texts that are
done stand nearest first. -/
def columns (done : List Char) : List Char → List Char → List Nat
  | _, [] => []
  | before, d :: ds => leastEdits done (d :: before) :: columns done (d :: before) ds

theorem columns_nil (before ds : List Char) :
    columns [] before ds = List.range' (before.length + 1) ds.length := by
  induction ds generalizing before with
  | nil => rfl
  | cons d ds ih => simp [columns, ih, List.range'_succ]

theorem fillRow_columns (c : Char) (done before ds : List Char) :
    fillRow c (leastEdits (c :: done) before) (leastEdits done before) ds (columns done before ds) =
      columns (c :: done) before ds := by
  induction ds generalizing before with
  | nil => rfl
  | cons d ds ih => rw [columns, fillRow, ← leastEdits_cons_cons, ih, columns]

/-- The row for some characters of the first text. -/
def rowOf (done t : List Char) : List Nat := leastEdits done [] :: columns done [] t

theorem rowOf_nil (t : List Char) : rowOf [] t = List.range (t.length + 1) := by
  rw [rowOf, columns_nil, leastEdits_nil_left, List.length_nil, List.range_eq_range',
    List.range'_succ]

theorem nextRow_rowOf (c : Char) (done t : List Char) :
    nextRow c t (rowOf done t) = rowOf (c :: done) t := by
  have corner : leastEdits done [] + 1 = leastEdits (c :: done) [] := by simp
  rw [rowOf, nextRow, corner, fillRow_columns, rowOf]

theorem foldl_nextRow (s done t : List Char) :
    s.foldl (fun row c => nextRow c t row) (rowOf done t) = rowOf (s.reverse ++ done) t := by
  induction s generalizing done with
  | nil => rfl
  | cons c s ih =>
      rw [List.foldl_cons, nextRow_rowOf, ih, List.reverse_cons, List.append_assoc,
        List.singleton_append]

theorem getLastD_columns (done before ds : List Char) :
    (columns done before ds).getLastD (leastEdits done before) =
      leastEdits done (ds.reverse ++ before) := by
  induction ds generalizing before with
  | nil => rfl
  | cons d ds ih =>
      rw [columns, List.getLastD_cons, ih, List.reverse_cons, List.append_assoc,
        List.singleton_append]

/-- The last entry of the last row is for the whole texts, read from the right. -/
theorem lastEntry_eq (s t : List Char) : lastEntry s t = leastEdits s.reverse t.reverse := by
  rw [lastEntry, ← rowOf_nil, foldl_nextRow, rowOf, List.getLastD_cons, getLastD_columns,
    List.append_nil, List.append_nil]

theorem distanceOfLonger_eq (s t : List Char) :
    distanceOfLonger s t = leastEdits s.reverse t.reverse := by
  cases t with
  | nil => simp [distanceOfLonger]
  | cons d t => exact lastEntry_eq s (d :: t)

/-- Which of the two texts has the rows makes no difference. -/
theorem distance_eq (s t : List Char) : distance s t = leastEdits s.reverse t.reverse := by
  rw [distance]
  split
  · rw [distanceOfLonger_eq, leastEdits_comm]
  · exact distanceOfLonger_eq s t

theorem isLeast_distance (s t : List Char) : IsLeast {n | Edits n s t} (distance s t) := by
  have h := isLeast_leastEdits s.reverse t.reverse
  simp only [Edits.reverse_iff] at h
  rwa [distance_eq]

/-! ### A metric -/

theorem edits_distance (s t : List Char) : Edits (distance s t) s t := (isLeast_distance s t).1

theorem distance_le (h : Edits n s t) : distance s t ≤ n := (isLeast_distance s t).2 h

theorem distance_comm (s t : List Char) : distance s t = distance t s :=
  Nat.le_antisymm (distance_le (edits_distance t s).symm) (distance_le (edits_distance s t).symm)

theorem distance_triangle (s t u : List Char) : distance s u ≤ distance s t + distance t u :=
  distance_le ((edits_distance s t).trans (edits_distance t u))

end UiMarkup.Spelling
