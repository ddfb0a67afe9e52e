import Configurator.Linear.SparseMatrix
import Configurator.Proofs.Faultless
import Configurator.Proofs.Linear.Row

/-!
# Shapes of polyhedra and sparse matrices

A polyhedron that does not contradict its own shape keeps it when it is
widened, when inequalities are appended and when columns are selected, and
none of these steps leaves the rows.  The coordinate form of its rows lists
entries inside the shape, row by row and from left to right, none of which
is zero.
-/

namespace Configurator.Linear

open Configurator.Arithmetic Configurator.Collection

namespace Polyhedron

variable {polyhedron grown : Polyhedron} {ids : OrderedSet String}
  {inequality : Inequality} {inequalities : List Inequality}

/--
A polyhedron is well shaped exactly if no contradiction to its shape is
found.
-/
theorem misshape?_eq_none_iff :
    polyhedron.misshape? = none ↔ polyhedron.WellShaped := by
  have indexed :
      (∀ place ∈ polyhedron.rows.zipIdx,
        place.1.length = polyhedron.columns) ↔
        ∀ row ∈ polyhedron.rows, row.length = polyhedron.columns := by
    have listed : polyhedron.rows.zipIdx.map Prod.fst = polyhedron.rows :=
      List.zipIdx_map_fst 0 _
    rw [← List.forall_mem_map (f := Prod.fst) (P := fun row : List Int =>
      row.length = polyhedron.columns), listed]
  simp only [misshape?, WellShaped]
  rw [← indexed]
  by_cases sized : polyhedron.bounds.length = polyhedron.rows.length
  · simp [sized, List.findSome?_eq_none_iff]
  · simp [sized]

theorem WellShaped.widen
    (shaped : polyhedron.WellShaped) :
    polyhedron.widen.WellShaped := by
  refine ⟨?_, List.forall_mem_map.2 fun row member => ?_⟩
  · show polyhedron.bounds.length = (polyhedron.rows.map _).length
    rw [shaped.1, List.length_map]
  · show (row ++ [0]).length = polyhedron.columns + 1
    rw [List.length_append, shaped.2 row member]
    rfl

/-- Appending an inequality keeps the shape and the columns. -/
theorem WellShaped.appendInequality
    (shaped : polyhedron.WellShaped)
    (appended : polyhedron.appendInequality inequality ids = .ok grown) :
    grown.WellShaped ∧ grown.columns = polyhedron.columns := by
  obtain ⟨row, _, _, width, rfl⟩ := appendInequality_eq_ok appended
  refine ⟨⟨?_, ?_⟩, rfl⟩
  · simp [shaped.1]
  · intro other member
    rcases List.mem_append.1 member with old | new
    · exact shaped.2 other old
    · rwa [List.mem_singleton.1 new]

theorem WellShaped.appendAll
    (shaped : polyhedron.WellShaped)
    (appended : polyhedron.appendAll inequalities ids = .ok grown) :
    grown.WellShaped ∧ grown.columns = polyhedron.columns := by
  refine invariant_of_foldlM
    (fun current =>
      current.WellShaped ∧ current.columns = polyhedron.columns)
    ⟨shaped, rfl⟩ ?_ appended
  rintro inequality _ current next ⟨currentShaped, width⟩ step
  rcases currentShaped.appendInequality step with ⟨nextShaped, same⟩
  exact ⟨nextShaped, same.trans width⟩

/--
Appending an inequality can fault only where the bias has no opposite.
-/
theorem faultless_appendInequality
    (opposite : IsWord (-inequality.bias)) :
    Faultless (polyhedron.appendInequality inequality ids) := by
  refine (Faultless.refusable _).bind fun row _ => ?_
  refine (Faultless.faulting (word_eq_ok_iff.2 ⟨opposite, rfl⟩)).bind
    fun bound _ => ?_
  exact Faultless.refusable _

theorem faultless_appendAll
    (opposites : ∀ inequality ∈ inequalities, IsWord (-inequality.bias)) :
    Faultless (polyhedron.appendAll inequalities ids) :=
  Faultless.foldlM (fun _ => True) trivial (fun _ _ _ _ _ _ => trivial)
    fun inequality member _ _ =>
      faultless_appendInequality (opposites inequality member)

/-- Columns inside the shape can be selected. -/
theorem WellShaped.selectColumns
    (shaped : polyhedron.WellShaped)
    {columns : List Nat}
    (inside : ∀ column ∈ columns, column < polyhedron.columns) :
    ∃ selected,
      polyhedron.selectColumns columns = .ok selected ∧
      selected.WellShaped ∧
      selected.columns = columns.length := by
  have picked : ∀ row ∈ polyhedron.rows, pick columns row =
      .ok (columns.map fun column => (row[column]?).getD 0) := by
    intro row member
    apply mapM_eq_ok
    intro column listed
    have bounded : column < row.length := by
      rw [shaped.2 row member]
      exact inside column listed
    rw [List.getElem?_eq_getElem bounded]
    rfl
  refine ⟨⟨polyhedron.rows.map fun row =>
            columns.map fun column => (row[column]?).getD 0,
            polyhedron.bounds, columns.length⟩, ?_, ⟨?_, ?_⟩, rfl⟩
  · rw [Polyhedron.selectColumns, mapM_eq_ok picked]
    rfl
  · rw [shaped.1, List.length_map]
  · exact List.forall_mem_map.2 fun row _ => List.length_map _

end Polyhedron

/-! ## The coordinate form -/

/--
The entry comes before the other one, row by row and from left to right.
-/
def Entry.Before (left right : Entry) : Prop :=
  left.row < right.row ∨ left.row = right.row ∧ left.column < right.column

/--
A matrix in coordinate form whose entries are listed as they should be.
-/
structure SparseMatrix.WellFormed (matrix : SparseMatrix) : Prop where
  /-- Every row has a column. -/
  columns_length : matrix.columns.length = matrix.rows.length
  /-- Every position has a value. -/
  values_length : matrix.values.length = matrix.rows.length
  /-- Positions lie inside the shape. -/
  inside : ∀ position ∈ matrix.rows.zip matrix.columns,
    position.1 < matrix.shape.rows ∧ position.2 < matrix.shape.columns
  /-- Positions ascend row by row and from left to right. -/
  ascending : (matrix.rows.zip matrix.columns).Pairwise fun left right =>
    left.1 < right.1 ∨ left.1 = right.1 ∧ left.2 < right.2
  /-- No value is zero. -/
  nonzero : ∀ value ∈ matrix.values, value ≠ 0

theorem mem_rowEntries
    {index : Nat}
    {row : List Int}
    {entry : Entry}
    (member : entry ∈ rowEntries index row) :
    entry.row = index ∧ entry.column < row.length ∧ entry.value ≠ 0 := by
  rcases List.mem_filterMap.1 member with ⟨⟨value, column⟩, indexed, kept⟩
  dsimp only at kept
  split at kept
  · cases kept
  · rename_i nonzero
    cases kept
    exact ⟨rfl,
      (List.getElem?_eq_some_iff.1
        (List.mk_mem_zipIdx_iff_getElem?.1 indexed)).1, nonzero⟩

/-- The indices of a list ascend. -/
private theorem zipIdx_ascending
    {α : Type}
    (items : List α) :
    items.zipIdx.Pairwise fun left right => left.2 < right.2 := by
  have indices : (items.zipIdx.map Prod.snd).Pairwise (· < ·) := by
    rw [List.zipIdx_map_snd]
    exact List.pairwise_lt_range'
  exact List.pairwise_map.1 indices

theorem rowEntries_ascending
    (index : Nat)
    (row : List Int) :
    (rowEntries index row).Pairwise Entry.Before := by
  refine List.pairwise_filterMap.2 ((zipIdx_ascending row).imp ?_)
  rintro ⟨leftValue, leftColumn⟩ ⟨rightValue, rightColumn⟩ earlier left
    leftKept right rightKept
  dsimp only at leftKept rightKept earlier
  split at leftKept
  · cases leftKept
  · split at rightKept
    · cases rightKept
    · cases leftKept
      cases rightKept
      exact Or.inr ⟨rfl, earlier⟩

theorem matrixEntries_ascending
    (rows : List (List Int)) :
    (matrixEntries rows).Pairwise Entry.Before := by
  refine List.pairwise_flatMap.2
    ⟨fun place _ => rowEntries_ascending _ _, ?_⟩
  refine (zipIdx_ascending rows).imp ?_
  intro left right earlier first firstMember second secondMember
  left
  rw [(mem_rowEntries firstMember).1, (mem_rowEntries secondMember).1]
  exact earlier

/-- The coordinate form of a well-shaped polyhedron is well formed. -/
theorem Polyhedron.WellShaped.sparse
    {polyhedron : Polyhedron}
    (shaped : polyhedron.WellShaped) :
    polyhedron.sparse.WellFormed := by
  have listed :
      ∀ entry ∈ matrixEntries polyhedron.rows,
        entry.row < polyhedron.rows.length ∧
        entry.column < polyhedron.columns ∧
        entry.value ≠ 0 := by
    intro entry member
    rcases List.mem_flatMap.1 member with ⟨⟨row, index⟩, indexed, rowMember⟩
    rcases mem_rowEntries rowMember with ⟨rfl, bounded, nonzero⟩
    have here := List.mk_mem_zipIdx_iff_getElem?.1 indexed
    rw [shaped.2 row (List.mem_of_getElem? here)] at bounded
    exact ⟨(List.getElem?_eq_some_iff.1 here).1, bounded, nonzero⟩
  have positions :
      polyhedron.sparse.rows.zip polyhedron.sparse.columns =
        (matrixEntries polyhedron.rows).map fun entry =>
          (entry.row, entry.column) :=
    List.zip_map'
  constructor
  · simp [Polyhedron.sparse]
  · simp [Polyhedron.sparse]
  · rw [positions, List.forall_mem_map]
    exact fun entry member =>
      ⟨(listed entry member).1, (listed entry member).2.1⟩
  · rw [positions, List.pairwise_map]
    exact matrixEntries_ascending _
  · exact List.forall_mem_map.2 fun entry member =>
      (listed entry member).2.2

end Configurator.Linear
