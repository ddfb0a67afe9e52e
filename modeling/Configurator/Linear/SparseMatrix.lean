import Configurator.Linear.Polyhedron

/-!
# Sparse matrices

The coordinate form of a matrix lists the entries other than zero, row by
row and from left to right: their rows, their columns and their values in
three lists of one length.
-/

namespace Configurator.Linear

/-- The numbers of rows and columns of a matrix. -/
structure Shape where
  rows : Nat
  columns : Nat
  deriving DecidableEq

/--
The positions and values of the entries of a matrix that are not zero.
-/
structure SparseMatrix where
  rows : List Nat
  columns : List Nat
  values : List Int
  shape : Shape
  deriving DecidableEq

/-- An entry of a matrix with its position. -/
structure Entry where
  row : Nat
  column : Nat
  value : Int
  deriving DecidableEq

/-- The entries of a row that are not zero. -/
def rowEntries (index : Nat) (row : List Int) : List Entry :=
  row.zipIdx.filterMap fun (value, column) =>
    if value = 0 then none else some ⟨index, column, value⟩

/-- The entries of a matrix that are not zero, row by row. -/
def matrixEntries (rows : List (List Int)) : List Entry :=
  rows.zipIdx.flatMap fun (row, index) => rowEntries index row

/-- The matrix of a polyhedron in coordinate form. -/
def Polyhedron.sparse (polyhedron : Polyhedron) : SparseMatrix :=
  let entries := matrixEntries polyhedron.rows
  { rows := entries.map Entry.row
    columns := entries.map Entry.column
    values := entries.map Entry.value
    shape := ⟨polyhedron.rows.length, polyhedron.columns⟩ }

end Configurator.Linear
