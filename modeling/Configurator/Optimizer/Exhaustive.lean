import Configurator.Optimizer.Problem
import Configurator.Optimizer.Response

/-!
# The exhaustive optimiser

Every assignment of 0 and 1 is tried, in the order of the numbers whose
lowest bit is the first variable.  The first feasible assignment with the
greatest value of the first objective is the solution.
-/

namespace Configurator.Optimizer

open Configurator.Arithmetic Configurator.Collection Configurator.Linear

/-- The assignment that a number stands for, its lowest bit first. -/
def assignment (count number : Nat) : List Int :=
  (List.range count).map fun bit => if number.testBit bit then 1 else 0

/-- A matrix with one entry changed. -/
def setEntry
    (rows : List (List Int))
    (row column : Nat)
    (value : Int) :
    Except Fault (List (List Int)) :=
  match rows[row]? with
  | none => .error .outOfRange
  | some entries =>
      if column < entries.length then
        .ok (rows.set row (entries.set column value))
      else .error .outOfRange

/-- The rows of a sparse matrix, over so many columns. -/
def denseRows
    (matrix : SparseMatrix)
    (columns : Nat) :
    Except Fault (List (List Int)) :=
  ((matrix.rows.zip matrix.columns).zip matrix.values).foldlM
    (fun rows ((row, column), value) => setEntry rows row column value)
    (List.replicate matrix.shape.rows (List.replicate columns 0))

/--
The coefficients of the first objective by variable, which are zero where it
has none.
-/
def objectiveRow (problem : Problem) : Except Fault (List Int) :=
  problem.polyhedron.unknowns.mapM fun unknown =>
    match problem.objectives with
    | [] => .error .outOfRange
    | objective :: _ => .ok ((objective.get? unknown.id).getD 0)

/--
The better one of the best assignment so far and another, which must be
feasible.
-/
def improve
    (rows : List (List Int × Int))
    (objective : List Int)
    (count : Nat)
    (best : Option (Int × Nat))
    (number : Nat) :
    Except Fault (Option (Int × Nat)) := do
  let point := assignment count number
  if ← Polyhedron.meets point rows then
    let value ← dot objective point
    match best with
    | some (greatest, _) =>
        return if greatest < value then some (value, number) else best
    | none => return some (value, number)
  else return best

/--
The first feasible assignment with the greatest value, and that value.
-/
def bestAssignment
    (problem : Problem) :
    Except Fault (Option (Int × Nat)) := do
  let count := problem.polyhedron.unknowns.length
  let rows ← denseRows problem.polyhedron.matrix count
  let objective ← objectiveRow problem
  (List.range (Nat.pow 2 count)).foldlM
    (improve (rows.zip problem.polyhedron.bounds) objective count) none

/-- The answer for a best assignment, or for there being none. -/
def answerOf (problem : Problem) : Option (Int × Nat) → Answer
  | some (value, number) =>
      let ids := problem.polyhedron.unknowns.map BoundedVariable.id
      { status := "optimal"
        reason := none
        objective := some (Float.ofInt value)
        values :=
          OrderedMap.ofList (ids.zip (assignment ids.length number)) }
  | none =>
      { status := "mipfailed"
        reason := some "infeasible"
        objective := none
        values := ∅ }

/--
Solve a problem of at most `limit` variables by trying every assignment.
-/
def exhaustive
    (limit : Nat)
    (problem : Problem) :
    Except Failure Response := do
  if limit < problem.polyhedron.unknowns.length then
    throw (.error (.solverFailed "too large"))
  let best ← bestAssignment problem
  return ⟨[answerOf problem best]⟩

end Configurator.Optimizer
