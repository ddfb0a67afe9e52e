import Configurator.Collection.OrderedSet
import Configurator.Logic.Constraint

/-!
# Selections

A selection asks for an id, or for several ids together, to be added or to
be removed.  A selection of several ids stands for their conjunction.
-/

namespace Configurator.Request

open Configurator.Collection Configurator.Linear Configurator.Logic

/-- What a selection asks for. -/
inductive Action where
  | add
  | remove
  deriving DecidableEq, Repr

namespace Action

/-- The name of an action. -/
def name : Action → String
  | add => "ADD"
  | remove => "REMOVE"

/-- Whether the action is an addition. -/
def isAdd : Action → Bool
  | add => true
  | remove => false

/-- The action with a name; the case of its letters does not matter. -/
def ofName? (text : String) : Except Error Action :=
  let name := text.toList.map Char.toUpper
  if name = "ADD".toList then .ok add
  else if name = "REMOVE".toList then .ok remove
  else .error (.unknownAction text)

end Action

/-- A request to add or remove an id, or an id together with others. -/
structure Selection where
  id : String
  others : List String
  action : Action
  deriving DecidableEq

namespace Selection

/-- Whether the selection names others beside its id. -/
def isComposite (selection : Selection) : Bool :=
  !selection.others.isEmpty

/-- The distinct ids of the selection, its own id first. -/
def ids (selection : Selection) : List String :=
  (OrderedSet.ofList (selection.id :: selection.others)).toList

/-- The constraint that all ids of the selection hold. -/
def conjunction (selection : Selection) : Constraint :=
  Constraint.ofForm (Coefficients.uniform selection.ids 1)
    (-(selection.ids.length : Int))

/--
The column that a selection decides: its id, or the support of its
conjunction.
-/
def column (selection : Selection) : String :=
  if selection.isComposite then selection.conjunction.id else selection.id

/--
Whether a selection of higher priority leaves another one without a point.
-/
def makesRedundant (selection other : Selection) : Bool :=
  other.ids.all (· ∈ selection.ids) ||
    (other.action == .remove && other.others.any (· ∈ selection.ids)) ||
    (selection.id == other.id &&
      (!other.isComposite || other.others.all (· ∈ selection.ids)))

/-- The action, the id and the others in brackets. -/
def text (selection : Selection) : String :=
  let others :=
    if selection.isComposite then
      " [" ++ String.intercalate ", " selection.others ++ "]"
    else ""
  selection.action.name ++ " " ++ selection.id ++ others

end Selection

end Configurator.Request
