import Configurator.Optimizer.Response
import Configurator.Ruleset.Query

/-!
# Solutions

The answer of an optimiser is read as values of the selectable variables.
Variables that no row mentions are not part of the problem: the last
selection of such a variable decides.
-/

namespace Configurator

open Configurator.Calendar Configurator.Collection Configurator.Objective
  Configurator.Optimizer Configurator.Request

/--
Values of the selectable variables, with the objective and a warning about
weights.
-/
structure Solution where
  values : OrderedMap String Int
  objective : Option Float
  warning : Option Error

/-- The ids that have the value one. -/
def Solution.selected (solution : Solution) : List String :=
  (solution.values.entries.filter fun entry => entry.2 = 1).map Prod.fst

namespace Query

/--
The value of an independent variable: one if the last selection of it is an
addition.
-/
def independentValue (query : Query) (id : String) : Int :=
  match query.selections.reverse.find? fun selection =>
    selection.id = id with
  | some selection => if selection.action.isAdd then 1 else 0
  | none => 0

/--
The value of a selectable variable in an answer; a variable without a value
is zero.
-/
def valueIn
    (query : Query)
    (values : OrderedMap String Int)
    (id : String) :
    Except Error Int :=
  if id ∈ query.independent then .ok (query.independentValue id)
  else
    match values.get? id with
    | none => .ok 0
    | some value =>
        if value = 0 ∨ value = 1 then .ok value
        else .error (.notBinary id value)

/-- Read the answer of an optimiser. -/
def decode
    (query : Query)
    (response : Response) :
    Except Error Solution := do
  let answer ← response.single
  let entries ← query.selectable.toList.mapM fun id => do
    return (id, ← query.valueIn answer.values id)
  return {
    values := OrderedMap.ofList entries
    objective := answer.objective
    warning := query.weights.saturated }

end Query

/--
Prepare selections with the default weights, ask an optimiser and read its
answer.
-/
def Ruleset.solve
    (ruleset : Ruleset)
    (optimiser : Problem → Except Failure Response)
    (selections : List Selection)
    (time : Option Instant) :
    Except Failure Solution := do
  let query ← ruleset.prepare selections time {}
  let problem ← query.problem
  let response ← optimiser problem
  query.decode response

end Configurator
