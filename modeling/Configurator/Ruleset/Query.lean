import Configurator.Objective.Weights
import Configurator.Optimizer.Problem
import Configurator.Request.Reduction
import Configurator.Ruleset.Basic

/-!
# Queries

A query answers a list of selections about a rule set.  It has a polyhedron
of its own, in which every composite selection has a support for its
conjunction and the active period may be pinned, and the weights of an
objective.  The rule set itself does not change.
-/

namespace Configurator

open Configurator.Calendar Configurator.Collection Configurator.Linear
  Configurator.Objective Configurator.Optimizer Configurator.Request
  Configurator.Schedule

/-- A polyhedron with the names of its columns. -/
structure NamedPolyhedron where
  polyhedron : Polyhedron
  ids : OrderedSet String
  deriving DecidableEq

/-- Selections about a rule set, prepared for an optimiser. -/
structure Query where
  polyhedron : Polyhedron
  ids : OrderedSet String
  selectable : OrderedSet String
  independent : OrderedSet String
  /-- The selections that are left after reduction. -/
  selections : List Selection
  weights : Weights
  deriving DecidableEq

namespace Ruleset

/--
Refuse an id of a selection that cannot be selected, or not together with
others.
-/
def checkId
    (ruleset : Ruleset)
    (composite : Bool)
    (id : String) :
    Except Error Unit :=
  if id = "" then .error .emptyId
  else if id ∉ ruleset.selectable then .error (.notSelectable id)
  else
    if composite ∧ id ∈ ruleset.independent then
      .error (.independentInComposite id)
  else .ok ()

/-- Refuse a selection with an id that cannot be selected. -/
def checkSelection
    (ruleset : Ruleset)
    (selection : Selection) :
    Except Error Unit :=
  selection.ids.forM (ruleset.checkId selection.isComposite)

/--
The selections that have an effect; removals of preferred ids stay explicit.
-/
def reduce
    (ruleset : Ruleset)
    (selections : List Selection) :
    List Selection :=
  reduceWith (fun selection => selection.id ∈ ruleset.preferences)
    selections

/--
Give a composite selection a column for its conjunction, unless there is
one.
-/
def materialise
    (named : NamedPolyhedron)
    (selection : Selection) :
    Except Failure NamedPolyhedron := do
  let conjunction := selection.conjunction
  if !selection.isComposite || conjunction.id ∈ named.ids then
    return named
  else
    let ids := named.ids.insert conjunction.id
    let rows ← conjunction.linkingRows
    let polyhedron ← named.polyhedron.widen.appendAll rows ids
    return ⟨polyhedron, ids⟩

/--
Let the period that contains an instant hold; without periods nothing
changes.
-/
def pin
    (ruleset : Ruleset)
    (named : NamedPolyhedron)
    (time : Instant) :
    Except Failure NamedPolyhedron := do
  if ruleset.periods.isEmpty then
    return named
  else
    match (locate ruleset.periods time).bind fun index =>
      ruleset.periods[index]? with
    | none => throw (.error (.timeOutside time))
    | some active =>
        let polyhedron ← named.polyhedron.appendInequality
          (Inequality.require active.id) named.ids
        return { named with polyhedron := polyhedron }

/-- What the weights of a query are derived from. -/
def weightInputs
    (ruleset : Ruleset)
    (selections : List Selection) :
    WeightInputs where
  selectable := ruleset.selectable
  covered := OrderedSet.ofList (selections.flatMap Selection.ids)
  preferred := ruleset.preferredSupports
  periods := ruleset.periods.map PeriodVariable.id
  targets :=
    selections.map fun selection => ⟨selection.column, selection.action⟩

/-- Prepare selections, at an instant if one is given. -/
def prepare
    (ruleset : Ruleset)
    (selections : List Selection)
    (time : Option Instant)
    (config : WeightConfig) :
    Except Failure Query := do
  selections.forM fun selection =>
    liftError (ruleset.checkSelection selection)
  let reduced := ruleset.reduce selections
  let materialised ← reduced.foldlM materialise
    ⟨ruleset.polyhedron, ruleset.ids⟩
  let pinned ←
    match time with
    | some time => ruleset.pin materialised time
    | none => pure materialised
  let weights ← Weights.derive (ruleset.weightInputs reduced) config
  return {
    polyhedron := pinned.polyhedron
    ids := pinned.ids
    selectable := ruleset.selectable
    independent := ruleset.independent
    selections := reduced
    weights := weights }

end Ruleset

namespace Query

/--
The columns of the variables that some row mentions, with their names.
-/
def decidedColumns (query : Query) : List (String × Nat) :=
  query.ids.toList.zipIdx.filter fun (id, _) => id ∉ query.independent

/--
What an optimiser is asked: the columns that some row mentions, and their
weights.
-/
def problem (query : Query) : Except Fault Problem := do
  let columns := query.decidedColumns
  let polyhedron ← query.polyhedron.selectColumns (columns.map Prod.snd)
  let ids := columns.map Prod.fst
  let weighted := ids.filterMap fun id =>
    (query.weights.values.get? id).map fun weight => (id, weight)
  return {
    polyhedron :=
      { matrix := polyhedron.sparse
        bounds := polyhedron.bounds
        unknowns := ids.map BoundedVariable.binary }
    objectives := [OrderedMap.ofList weighted]
    direction := .maximize }

end Query

end Configurator
