import Configurator.Logic.Model
import Configurator.Ruleset.Basic
import Configurator.Schedule.Atoms

/-!
# Building rule sets

A builder adds to a model what concerns the whole rule set: preferences,
time bounds and the enabled period.  Compiling gives every preferred id a
support for its negation, lets exactly one atomic period hold, makes each
group of periods imply the ids that are active in it, and joins all
assumptions in one root.
-/

namespace Configurator

open Configurator.Calendar Configurator.Collection Configurator.Linear
  Configurator.Logic Configurator.Schedule

/-- A model with preferences, time bounds and the enabled period. -/
structure Builder where
  model : Model
  preferences : OrderedSet String
  bounds : List TimeBound
  enabledPeriod : Option Period
  deriving DecidableEq

namespace Builder

/-- A builder that adds nothing to the model. -/
def ofModel (model : Model) : Builder :=
  ⟨model, ∅, [], none⟩

/-- Prefer that the ids hold where nothing else decides. -/
def prefer
    (builder : Builder)
    (ids : List String) :
    Except Error Builder := do
  builder.model.require ids
  return { builder with preferences := builder.preferences.append ids }

/-- Assume that the ids hold. -/
def assume
    (builder : Builder)
    (ids : List String) :
    Except Error Builder := do
  let model ← builder.model.assume ids
  return { builder with model := model }

/--
Require that an id holds during a period, which must lie in the enabled one.
-/
def assumeInPeriod
    (builder : Builder)
    (id : String)
    (period : Period) :
    Except Error Builder := do
  builder.model.require [id]
  match builder.enabledPeriod with
  | some enabled =>
      if ¬ enabled.Covers period then throw (.outsideEnabled period enabled)
  | none => pure ()
  return { builder with bounds := builder.bounds ++ [⟨id, period⟩] }

/-- Enable a period, which must cover every time bound. -/
def enablePeriod
    (builder : Builder)
    (period : Period) :
    Except Error Builder :=
  match builder.bounds.find? fun bound => ¬ period.Covers bound.period with
  | some bound => .error (.boundOutside bound.id bound.period period)
  | none => .ok { builder with enabledPeriod := some period }

/--
The model with a support for the negation of every preferred id, and these
supports.
-/
def lowerPreferences
    (model : Model)
    (preferences : List String) :
    Except Error (OrderedSet String × Model) :=
  preferences.foldlM
    (fun (supports, grown) id => do
      let (support, grown) ← grown.extend .negation [id]
      return (supports.insert support, grown))
    (∅, model)

/--
The id that says whether some or all of the ids hold: an only one is its
own.
-/
def joined
    (connective : Connective)
    (model : Model)
    (ids : List String) :
    Except Error (String × Model) :=
  match ids with
  | [id] => .ok (id, model)
  | _ => model.extend connective ids

/--
The model in which a group of periods implies the ids that are active in
them.
-/
def lowerGroup
    (model : Model)
    (group : List String × List Nat) :
    Except Error Model := do
  let (during, model) ← joined .disjunction model (group.2.map periodName)
  let (required, model) ← joined .conjunction model group.1
  let (rule, model) ← model.extend .implication [during, required]
  model.assume [rule]

/-- The model in which exactly one of the names holds. -/
def assumeExactlyOne
    (model : Model)
    (names : List String) :
    Except Error Model :=
  match names with
  | [_] => model.assume names
  | _ => do
      let (one, model) ← model.extend .exactlyOne names
      model.assume [one]

/-- The span that is cut into atomic periods, if there is one. -/
def span (builder : Builder) : Option Period :=
  builder.enabledPeriod.or (spanOf builder.bounds)

/-- The model with its period variables, and these variables. -/
def lowerPeriods
    (builder : Builder)
    (model : Model) :
    Except Error (List PeriodVariable × Model) :=
  match builder.span with
  | none => .ok ([], model)
  | some span => do
      let atoms := atoms span builder.bounds
      let names := (List.range atoms.length).map periodName
      let model ← model.addPrimitives names
      let model ← assumeExactlyOne model names
      let model ← (groupByActive atoms builder.bounds).entries.foldlM
        lowerGroup model
      return (List.zipWith PeriodVariable.mk names atoms, model)

/-- The model in which a single root stands for all assumptions. -/
def lowerAssumptions (model : Model) : Except Error Model :=
  if 2 ≤ model.assumed.size then do
    let (root, model) ← model.extend .conjunction model.assumed.toList
    return model.replaceAssumed root
  else .ok model

/--
A model that holds all rules of a builder, with the meaning of its new
variables.
-/
structure Lowered where
  model : Model
  preferredSupports : OrderedSet String
  periods : List PeriodVariable
  deriving DecidableEq

/-- Lower preferences, periods and assumptions into the model. -/
def lower (builder : Builder) : Except Error Lowered := do
  let (preferredSupports, model) ← lowerPreferences builder.model
    builder.preferences.toList
  let (periods, model) ← builder.lowerPeriods model
  let model ← lowerAssumptions model
  return ⟨model, preferredSupports, periods⟩

/-- Those of the named columns that no row mentions. -/
def unmentioned
    (polyhedron : Polyhedron) :
    List (String × Nat) → Except Fault (List String)
  | [] => .ok []
  | (id, column) :: rest => do
      let zero ← polyhedron.columnIsZero column
      let others ← unmentioned polyhedron rest
      return if zero then id :: others else others

/-- Compile the rules of a builder. -/
def build (builder : Builder) : Except Failure Ruleset := do
  let lowered ← builder.lower
  let polyhedron ← lowered.model.polyhedron
  let periodIds := lowered.periods.map PeriodVariable.id
  let primitives := lowered.model.ids.toList.zipIdx.filter fun (id, _) =>
    !lowered.model.isSupport id
  let independent ← unmentioned polyhedron primitives
  return {
    polyhedron := polyhedron
    ids := lowered.model.ids
    selectable := OrderedSet.ofList
      ((primitives.map Prod.fst).filter fun id => id ∉ periodIds)
    independent := OrderedSet.ofList independent
    preferredSupports := lowered.preferredSupports
    preferences := builder.preferences
    periods := lowered.periods
    enabledPeriod := builder.enabledPeriod }

end Builder

end Configurator
