import Configurator.Optimizer.Problem
import Configurator.Optimizer.Response
import Configurator.Persistence.Linear

/-!
# Problems and answers on the wire

Problems are written for an optimiser and can be read back; its answers are
only read.  An answer may leave out everything but its status.
-/

namespace Configurator.Persistence

open Configurator.Collection Configurator.Json Configurator.Optimizer

/-- The two bounds of a variable. -/
def decodeBounds : Value → Option (Int × Int)
  | .array [least, greatest] =>
      do return (← decode least, ← decode greatest)
  | _ => none

/-- The record of a variable with its bounds. -/
def decodeBoundedVariable (value : Value) : Option BoundedVariable := do
  match ← required? ["id", "bound"] value with
  | [id, bounds] =>
      let (least, greatest) ← decodeBounds bounds
      return ⟨← decode id, least, greatest⟩
  | _ => none

instance : Persistent BoundedVariable :=
  ⟨fun bounded =>
    .object
      [("id", encode bounded.id),
        ("bound", encode [bounded.least, bounded.greatest])],
    decodeBoundedVariable⟩

/-- The record of the rows of a problem. -/
def decodeProblemRows (value : Value) : Option ProblemRows := do
  match ← required? ["A", "b", "variables"] value with
  | [matrix, bounds, unknowns] =>
      return ⟨← decode matrix, ← decode bounds, ← decode unknowns⟩
  | _ => none

instance : Persistent ProblemRows :=
  ⟨fun rows =>
    .object
      [("A", encode rows.matrix), ("b", encode rows.bounds),
        ("variables", encode rows.unknowns)],
    decodeProblemRows⟩

/-- The name of a direction. -/
def directionName : Direction → String
  | .maximize => "maximize"
  | .minimize => "minimize"

/-- The direction with a name. -/
def decodeDirection (value : Value) : Option Direction := do
  let name ← decodeName value
  if name = directionName .maximize then some .maximize
  else if name = directionName .minimize then some .minimize
  else none

instance : Persistent Direction :=
  ⟨fun direction => .text (directionName direction), decodeDirection⟩

/-- The record of a problem. -/
def decodeProblem (value : Value) : Option Problem := do
  match ← required? ["polyhedron", "objectives", "direction"] value with
  | [polyhedron, objectives, direction] =>
      return ⟨← decode polyhedron, ← decode objectives, ← decode direction⟩
  | _ => none

instance : Persistent Problem :=
  ⟨fun problem =>
    .object
      [("polyhedron", encode problem.polyhedron),
        ("objectives", encode problem.objectives),
        ("direction", encode problem.direction)],
    decodeProblem⟩

/-- The fields of an answer. -/
def answerFields : List Field :=
  [⟨"status", .required⟩, ⟨"error", .defaulted⟩, ⟨"objective", .defaulted⟩,
    ⟨"solution", .defaulted⟩]

/-- A floating number. -/
def decodeFloat : Value → Option Float
  | .number numeral => numeral.toFloat?
  | _ => none

/-- The record of an answer. -/
def decodeAnswer (value : Value) : Option Answer := do
  match ← slots? answerFields value with
  | [some status, reason, objective, values] =>
      let values ←
        match values with
        | none => some ∅
        | some values => decode values
      return {
        status := ← decode status
        reason := ← decodeOption decode reason
        objective := ← decodeOption decodeFloat objective
        values := values }
  | _ => none

/-- The record of a response. -/
def decodeResponse (value : Value) : Option Response := do
  match ← required? ["solutions"] value with
  | [.array solutions] => return ⟨← solutions.mapM decodeAnswer⟩
  | _ => none

/-- The response that a text stands for; other texts are malformed. -/
def readResponse (text : String) : Except Error Response :=
  match (Value.ofText? text).bind decodeResponse with
  | some response => .ok response
  | none => .error .malformedText

end Configurator.Persistence
