import Configurator.Collection.OrderedSet
import Configurator.Logic.Constraint

/-!
# Lowering connectives to constraints

A `Lowering` is the plan by which a connective becomes a constraint: helper
constraints that have to exist first, and the constraint whose support
stands for the connective, or the cause for which there is none.  A plan
does not depend on the rules that exist already; a model carries it out.
-/

namespace Configurator.Logic

open Configurator.Collection

/--
Constraints to be introduced in order, ending in a last one or a refusal.
-/
inductive Lowering where
  /-- The last constraint, whose support stands for the whole. -/
  | done (constraint : Constraint)
  /-- There is no such constraint. -/
  | refused (cause : Error)
  /-- A helper constraint, and what comes after it. -/
  | after (helper : Constraint) (rest : Lowering)

namespace Lowering

/-- A plan of a single step. -/
def ofResult : Except Error Constraint → Lowering
  | .ok constraint => .done constraint
  | .error cause => .refused cause

/-- Go on after a plan, with its last constraint as a helper. -/
def andThen : Lowering → (Constraint → Lowering) → Lowering
  | done constraint, next => .after constraint (next constraint)
  | refused cause, _ => .refused cause
  | after helper rest, next => .after helper (rest.andThen next)

/-- The distinct operands of a connective, of which there must be enough. -/
def withDistinct
    (connective : Connective)
    (operands : List String)
    (plan : List String → Lowering) :
    Lowering :=
  let distinct := (OrderedSet.ofList operands).toList
  if distinct.length < connective.leastOperands then
    .refused (.tooFewOperands connective distinct)
  else plan distinct

/-- All of the operands hold. -/
def allOf (operands : List String) : Lowering :=
  withDistinct .conjunction operands fun ids =>
    ofResult (Constraint.atLeast ids ids.length)

/-- Some of the operands hold. -/
def someOf (operands : List String) : Lowering :=
  withDistinct .disjunction operands fun ids =>
    ofResult (Constraint.atLeast ids 1)

/-- None of the operands holds. -/
def noneOf (operands : List String) : Lowering :=
  withDistinct .negation operands fun ids =>
    ofResult (Constraint.atMost ids 0)

/-- Exactly one of the operands holds: some do, and at most one. -/
def exactlyOneOf (operands : List String) : Lowering :=
  withDistinct .exactlyOne operands fun ids =>
    (ofResult (Constraint.atLeast ids 1)).andThen fun present =>
      (ofResult (Constraint.atMost ids 1)).andThen fun few =>
        ofResult (Constraint.atLeast [present.id, few.id] 2)

/-- The condition does not hold, or the consequence does. -/
def implies (condition consequence : String) : Lowering :=
  (noneOf [condition]).andThen fun absent => someOf [absent.id, consequence]

/-- Both sides hold, or neither does. -/
def sameAs (left right : String) : Lowering :=
  if left = right then .refused (.equalSides left)
  else
    (allOf [left, right]).andThen fun both =>
      (noneOf [left, right]).andThen fun neither =>
        someOf [both.id, neither.id]

end Lowering

/-- The plan by which a connective over operands becomes a constraint. -/
def Connective.lower : Connective → List String → Lowering
  | .conjunction, operands => Lowering.allOf operands
  | .disjunction, operands => Lowering.someOf operands
  | .negation, operands => Lowering.noneOf operands
  | .exactlyOne, operands => Lowering.exactlyOneOf operands
  | .oneOrNone, operands =>
      Lowering.withDistinct .oneOrNone operands fun ids =>
        Lowering.ofResult (Constraint.atMost ids 1)
  | .atLeast count, operands =>
      Lowering.withDistinct (.atLeast count) operands fun ids =>
        Lowering.ofResult (Constraint.atLeast ids count)
  | .atMost count, operands =>
      Lowering.withDistinct (.atMost count) operands fun ids =>
        Lowering.ofResult (Constraint.atMost ids count)
  | .implication, [condition, consequence] =>
      Lowering.implies condition consequence
  | .equivalence, [left, right] => Lowering.sameAs left right
  | connective, operands => .refused (.notTwoOperands connective operands)

end Configurator.Logic
