import Configurator.Collection.OrderedSet
import Configurator.Error
import Configurator.Linear.Inequality

/-!
# Integer polyhedra

A polyhedron is a list of rows, a list of bounds and a number of columns:
the integer points at which every row, multiplied with the point, is at
least its bound.  Columns have no names here; whoever owns a polyhedron
keeps the order of the variables.  A polyhedron that was read from a text
can contradict its own shape, and `misshape?` says how.
-/

namespace Configurator.Linear

open Configurator.Arithmetic Configurator.Collection

/-- The points `x` with `row · x ≥ bound` for each row and its bound. -/
structure Polyhedron where
  rows : List (List Int)
  bounds : List Int
  columns : Nat
  deriving DecidableEq

namespace Polyhedron

/-- The polyhedron of all points. -/
def unbounded (columns : Nat) : Polyhedron :=
  ⟨[], [], columns⟩

/--
Every row has one entry for each column, and there is one bound for each
row.
-/
def WellShaped (polyhedron : Polyhedron) : Prop :=
  polyhedron.bounds.length = polyhedron.rows.length ∧
    ∀ row ∈ polyhedron.rows, row.length = polyhedron.columns

/-- The first way in which the polyhedron contradicts its own shape. -/
def misshape? (polyhedron : Polyhedron) : Option Misshape :=
  if polyhedron.bounds.length ≠ polyhedron.rows.length then
    some (.bounds polyhedron.bounds.length polyhedron.rows.length)
  else
    polyhedron.rows.zipIdx.findSome? fun (row, index) =>
      if row.length ≠ polyhedron.columns then
        some (.row index row.length polyhedron.columns)
      else none

/-- Refuse a polyhedron that contradicts its own shape. -/
def checkShape (polyhedron : Polyhedron) : Except Error Unit :=
  match polyhedron.misshape? with
  | none => .ok ()
  | some misshape => .error (.misshapen misshape)

/-- Give every row a zero entry in one more column. -/
def widen (polyhedron : Polyhedron) : Polyhedron :=
  { polyhedron with
    rows := polyhedron.rows.map (· ++ [0])
    columns := polyhedron.columns + 1 }

/--
Widen by one column, whose index must have a successor, and return that
index.
-/
def addColumn (polyhedron : Polyhedron) : Except Fault (Polyhedron × Nat) :=
  if polyhedron.columns + 1 < indexBound then
    .ok (polyhedron.widen, polyhedron.columns)
  else .error .overflow

/-- Add a row, which must have one entry for each column. -/
def append
    (polyhedron : Polyhedron)
    (row : List Int)
    (bound : Int) :
    Except Error Polyhedron :=
  if row.length = polyhedron.columns then
    .ok { polyhedron with
      rows := polyhedron.rows ++ [row]
      bounds := polyhedron.bounds ++ [bound] }
  else .error (.rowWidth row polyhedron.columns)

/-- The row with the coefficients at the columns of their variables. -/
def project
    (coefficients : Coefficients)
    (ids : OrderedSet String)
    (columns : Nat) :
    Except Error (List Int) :=
  coefficients.entries.foldlM
    (fun row (id, value) =>
      match ids.indexOf? id with
      | none => .error (.notFound id)
      | some column =>
          if column < columns then .ok (row.set column value)
          else .error (.noColumn id))
    (List.replicate columns 0)

/--
Add an inequality between named variables as a row over their columns.
-/
def appendInequality
    (polyhedron : Polyhedron)
    (inequality : Inequality)
    (ids : OrderedSet String) :
    Except Failure Polyhedron := do
  let row ← project inequality.coefficients ids polyhedron.columns
  let bound ← word (-inequality.bias)
  polyhedron.append row bound

/-- The number of columns from which on no row fits into memory. -/
def widthLimit : Nat := 1152921504606846976

/--
Add an inequality to a polyhedron whose declared width may exceed all
memory.
-/
def appendDeclared
    (polyhedron : Polyhedron)
    (inequality : Inequality)
    (ids : OrderedSet String) :
    Except Failure Polyhedron :=
  if polyhedron.columns < widthLimit then
    polyhedron.appendInequality inequality ids
  else .error (.fault .overflow)

/-- Add inequalities one after another. -/
def appendAll
    (polyhedron : Polyhedron)
    (inequalities : List Inequality)
    (ids : OrderedSet String) :
    Except Failure Polyhedron :=
  inequalities.foldlM
    (fun grown inequality => grown.appendInequality inequality ids)
    polyhedron

/--
Whether the entries of a column are zero, down to the first that is not.
-/
def zeroColumn (column : Nat) : List (List Int) → Except Fault Bool
  | [] => .ok true
  | row :: rest =>
      match row[column]? with
      | none => .error .outOfRange
      | some 0 => zeroColumn column rest
      | some _ => .ok false

/-- Whether no row mentions a column. -/
def columnIsZero
    (polyhedron : Polyhedron)
    (column : Nat) :
    Except Fault Bool :=
  zeroColumn column polyhedron.rows

/-- The entries of a row at some columns. -/
def pick (columns : List Nat) (row : List Int) : Except Fault (List Int) :=
  columns.mapM fun column =>
    match row[column]? with
    | none => .error .outOfRange
    | some value => .ok value

/-- The polyhedron that has only the given columns, in the given order. -/
def selectColumns
    (polyhedron : Polyhedron)
    (columns : List Nat) :
    Except Fault Polyhedron := do
  let rows ← polyhedron.rows.mapM (pick columns)
  return ⟨rows, polyhedron.bounds, columns.length⟩

/-- Whether a point meets every row, down to the first that it violates. -/
def meets (point : List Int) : List (List Int × Int) → Except Fault Bool
  | [] => .ok true
  | (row, bound) :: rest => do
      let value ← dot row point
      if bound ≤ value then meets point rest else .ok false

/--
Whether a point with one entry for each column lies in the polyhedron.
-/
def satisfies
    (polyhedron : Polyhedron)
    (point : List Int) :
    Except Fault Bool :=
  if point.length = polyhedron.columns then
    meets point (polyhedron.rows.zip polyhedron.bounds)
  else .error .lengthMismatch

/--
One line for each row with its bound, numbers being at least three
characters wide.
-/
def text (polyhedron : Polyhedron) : String :=
  let number (value : Int) : String :=
    Text.rightAligned 3 (Text.decimalText value)
  let line (entry : List Int × Int) : String :=
    String.join (entry.1.map fun value => number value ++ " ") ++
      ">= " ++ number entry.2 ++ "\n"
  String.join ((polyhedron.rows.zip polyhedron.bounds).map line)

end Polyhedron

end Configurator.Linear
