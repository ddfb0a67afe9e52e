import Configurator.Linear.SparseMatrix
import Configurator.Logic.Constraint
import Configurator.Persistence.Basic

/-!
# Persistent linear forms

Inequalities, constraints, polyhedra and sparse matrices are records.  A
constraint is read with the id that it is written with, and a polyhedron
with the shape that it is written with; neither is checked here.
-/

namespace Configurator.Persistence

open Configurator.Json Configurator.Linear Configurator.Logic

/-- The record of an inequality. -/
def decodeInequality (value : Value) : Option Inequality := do
  match ← required? ["coefficients", "bias"] value with
  | [coefficients, bias] => return ⟨← decode coefficients, ← decode bias⟩
  | _ => none

instance : Persistent Inequality :=
  ⟨fun inequality =>
    .object
      [("coefficients", encode inequality.coefficients),
        ("bias", encode inequality.bias)],
    decodeInequality⟩

/-- The record of a constraint. -/
def decodeConstraint (value : Value) : Option Constraint := do
  match ← required? ["id", "row"] value with
  | [id, row] => return ⟨← decode id, ← decode row⟩
  | _ => none

instance : Persistent Constraint :=
  ⟨fun constraint =>
    .object [("id", encode constraint.id), ("row", encode constraint.row)],
    decodeConstraint⟩

/-- The record of a polyhedron. -/
def decodePolyhedron (value : Value) : Option Polyhedron := do
  match ← required? ["A", "b", "ncols"] value with
  | [rows, bounds, columns] =>
      return ⟨← decode rows, ← decode bounds, ← decode columns⟩
  | _ => none

instance : Persistent Polyhedron :=
  ⟨fun polyhedron =>
    .object
      [("A", encode polyhedron.rows), ("b", encode polyhedron.bounds),
        ("ncols", encode polyhedron.columns)],
    decodePolyhedron⟩

/-- The record of a shape. -/
def decodeShape (value : Value) : Option Shape := do
  match ← required? ["nrows", "ncols"] value with
  | [rows, columns] => return ⟨← decode rows, ← decode columns⟩
  | _ => none

instance : Persistent Shape :=
  ⟨fun shape =>
    .object [("nrows", encode shape.rows), ("ncols", encode shape.columns)],
    decodeShape⟩

/-- The record of a sparse matrix. -/
def decodeSparseMatrix (value : Value) : Option SparseMatrix := do
  match ← required? ["rows", "cols", "vals", "shape"] value with
  | [rows, columns, values, shape] =>
      return ⟨← decode rows, ← decode columns, ← decode values,
        ← decode shape⟩
  | _ => none

instance : Persistent SparseMatrix :=
  ⟨fun matrix =>
    .object
      [("rows", encode matrix.rows), ("cols", encode matrix.columns),
        ("vals", encode matrix.values), ("shape", encode matrix.shape)],
    decodeSparseMatrix⟩

end Configurator.Persistence
