import Configurator.Linear.Polyhedron
import Configurator.Logic.Lowering

/-!
# Models

A model holds the variables of a rule set in the order of their creation,
the constraints of those that are supports, and the ids that are assumed to
hold.  A support is created after the variables that its constraint
mentions, so the order of the variables is an order of evaluation.  A
request that is refused changes nothing, except that the helper constraints
which a connective needed before it was refused stay in the model.
-/

namespace Configurator.Logic

open Configurator.Collection Configurator.Linear

/-- The variables, constraints and assumptions of a rule set. -/
structure Model where
  /-- Primitives and supports, in creation order. -/
  ids : OrderedSet String
  /-- The constraints of the supports, in creation order. -/
  constraints : List Constraint
  /-- The ids that must hold. -/
  assumed : OrderedSet String
  deriving DecidableEq

namespace Model

/-- The model without variables. -/
def empty : Model :=
  ⟨∅, [], ∅⟩

/-- The constraint whose support is `id`. -/
def constraint? (model : Model) (id : String) : Option Constraint :=
  model.constraints.find? (·.id = id)

/-- Whether `id` is the support of a constraint. -/
def isSupport (model : Model) (id : String) : Bool :=
  model.constraints.any (·.id = id)

/-- The variables that are no supports, in creation order. -/
def primitives (model : Model) : List String :=
  model.ids.toList.filter fun id => !model.isSupport id

/-- The supports, in creation order. -/
def supports (model : Model) : List String :=
  model.constraints.map (·.id)

/-- Whether every id is a variable. -/
def knows (model : Model) (ids : List String) : Bool :=
  ids.all (· ∈ model.ids)

/-- Refuse the first id that is empty or no variable. -/
def require (model : Model) : List String → Except Error Unit
  | [] => .ok ()
  | id :: rest =>
      if id = "" then .error .emptyId
      else if id ∈ model.ids then model.require rest
      else .error (.notFound id)

/-- Extend the variables by a new one. -/
def declare
    (ids : OrderedSet String)
    (name : String) :
    Except Error (OrderedSet String) :=
  if name = "" then .error .emptyId
  else if name ∈ ids then .error (.alreadyExists name)
  else .ok (ids.insert name)

/-- Declare primitives; all names must be new and distinct. -/
def addPrimitives
    (model : Model)
    (names : List String) :
    Except Error Model := do
  let ids ← names.foldlM declare model.ids
  return { model with ids := ids }

/-- Introduce a constraint and its support, unless the support exists. -/
def introduce
    (model : Model)
    (constraint : Constraint) :
    Except Error Model :=
  if model.isSupport constraint.id then .ok model
  else
    if constraint.id ∈ model.ids then .error (.alreadyExists constraint.id)
  else
    match constraint.operands.find? (· ∉ model.ids) with
    | some missing => .error (.notFound missing)
    | none =>
        .ok { model with
          ids := model.ids.insert constraint.id
          constraints := model.constraints ++ [constraint] }

/--
Carry out a plan: the id of its last support or a refusal, and the model
after it.
-/
def carryOut (model : Model) : Lowering → Except Error String × Model
  | .done constraint =>
      match model.introduce constraint with
      | .ok grown => (.ok constraint.id, grown)
      | .error cause => (.error cause, model)
  | .refused cause => (.error cause, model)
  | .after helper rest =>
      match model.introduce helper with
      | .ok grown => grown.carryOut rest
      | .error cause => (.error cause, model)

/--
The id that is true exactly if the connective holds of the operands, and the
model with it.
-/
def set
    (model : Model)
    (connective : Connective)
    (operands : List String) :
    Except Error String × Model :=
  match model.require operands with
  | .error cause => (.error cause, model)
  | .ok () => model.carryOut (connective.lower operands)

/--
Build a connective as one of several steps that succeed or fail together.
-/
def extend
    (model : Model)
    (connective : Connective)
    (operands : List String) :
    Except Error (String × Model) :=
  match model.set connective operands with
  | (.ok id, grown) => .ok (id, grown)
  | (.error cause, _) => .error cause

/-- Assume that the ids hold. -/
def assume (model : Model) (ids : List String) : Except Error Model := do
  model.require ids
  return { model with assumed := model.assumed.append ids }

/-- Assume one id in place of all assumptions. -/
def replaceAssumed (model : Model) (root : String) : Model :=
  { model with assumed := OrderedSet.ofList [root] }

/--
The polyhedron over the variables: the linking rows of every constraint in
creation order, then a row for every assumed id.
-/
def polyhedron (model : Model) : Except Failure Polyhedron := do
  let linked ← model.constraints.foldlM
    (fun grown constraint => do
      let rows ← constraint.linkingRows
      grown.appendAll rows model.ids)
    (Polyhedron.unbounded model.ids.size)
  linked.appendAll (model.assumed.toList.map Inequality.require) model.ids

end Model

end Configurator.Logic
