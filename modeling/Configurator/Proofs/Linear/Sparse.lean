import Configurator.Linear.SparseMatrix
import Mathlib.Algebra.BigOperators.Group.List.Basic
import Mathlib.Tactic.Ring

/-!
# Rows of sparse matrices

The entries of a row in coordinate form, each times the entry of a point in
its column, add up to the product of the row with the point.
-/

namespace Configurator.Linear

/--
The product of a row in coordinate form with a point that is given by its
columns.
-/
def SparseMatrix.rowValue
    (matrix : SparseMatrix)
    (row : Nat)
    (point : Nat → Int) :
    Int :=
  (((matrix.rows.zip matrix.columns).zip matrix.values).map fun entry =>
    if entry.1.1 = row then entry.2 * point entry.1.2 else 0).sum

/-- What an entry adds to the product of a row with a point. -/
private def contribution
    (row : Nat)
    (point : Nat → Int)
    (entry : Entry) :
    Int :=
  if entry.row = row then entry.value * point entry.column else 0

/--
The product of a row, whose columns are counted from `start` on, with a
point.
-/
private def denseValue
    (start : Nat)
    (row : List Int)
    (point : Nat → Int) :
    Int :=
  ((row.zipIdx start).map fun entry => entry.1 * point entry.2).sum

private theorem sum_rowEntries
    (index row : Nat)
    (point : Nat → Int)
    (start : Nat)
    (entries : List Int) :
    (((entries.zipIdx start).filterMap fun (value, column) =>
       if value = 0 then none else some (Entry.mk index column value)).map
      (contribution row point)).sum =
      if index = row then denseValue start entries point else 0 := by
  induction entries generalizing start with
  | nil =>
      show (0 : Int) = if index = row then 0 else 0
      split
      · rfl
      · rfl
  | cons value rest ih =>
      have tail := ih (start + 1)
      simp only [denseValue] at tail ⊢
      rw [List.zipIdx_cons, List.filterMap_cons, List.map_cons,
        List.sum_cons]
      dsimp only
      by_cases zero : value = 0
      · rw [if_pos zero, tail, zero, Int.zero_mul, Int.zero_add]
      · rw [if_neg zero]
        dsimp only
        rw [List.map_cons, List.sum_cons, tail]
        unfold contribution
        dsimp only
        by_cases here : index = row
        · rw [if_pos here, if_pos here, if_pos here]
        · rw [if_neg here, if_neg here, if_neg here, Int.zero_add]

private theorem sum_matrixEntries
    (row : Nat)
    (point : Nat → Int)
    (start : Nat)
    (rows : List (List Int)) :
    (((rows.zipIdx start).flatMap fun (entries, index) =>
       rowEntries index entries).map (contribution row point)).sum =
      if start ≤ row then
        ((rows[row - start]?).map fun entries =>
          denseValue 0 entries point).getD 0
      else 0 := by
  induction rows generalizing start with
  | nil =>
      show (0 : Int) = if start ≤ row then 0 else 0
      split
      · rfl
      · rfl
  | cons entries rest ih =>
      have first := sum_rowEntries start row point 0 entries
      rw [List.zipIdx_cons, List.flatMap_cons, List.map_append,
        List.sum_append, ih]
      simp only [rowEntries]
      rw [first]
      by_cases here : start = row
      · subst here
        have beyond : ¬ start + 1 ≤ start := by omega
        rw [if_pos rfl, if_neg beyond, if_pos (Nat.le_refl start),
          Nat.sub_self]
        simp
      · rw [if_neg here, Int.zero_add]
        by_cases later : start + 1 ≤ row
        · have step : row - start = (row - (start + 1)) + 1 := by omega
          rw [if_pos later, if_pos (by omega), step,
            List.getElem?_cons_succ]
        · rw [if_neg later, if_neg (by omega)]

/-- The coordinate form has the same products with points as the rows. -/
theorem Polyhedron.rowValue_sparse
    {polyhedron : Polyhedron}
    {index : Nat}
    {row : List Int}
    (here : polyhedron.rows[index]? = some row)
    (point : Nat → Int) :
    polyhedron.sparse.rowValue index point =
      (row.zipIdx.map fun entry => entry.1 * point entry.2).sum := by
  have whole := sum_matrixEntries index point 0 polyhedron.rows
  rw [if_pos (Nat.zero_le index), Nat.sub_zero, here] at whole
  unfold SparseMatrix.rowValue Polyhedron.sparse
  dsimp only
  rw [List.zip_map', List.zip_map', List.map_map]
  exact whole

end Configurator.Linear
