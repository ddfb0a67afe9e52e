import Configurator.Fault
import Configurator.Calendar.Period
import Configurator.Logic.Connective
import Configurator.Text.Quoted

/-!
# Refusals

An `Error` is the cause for which a request is refused.  Its kind and its
wording are functions of the cause; no other module holds the text of a
message.  A `Failure` is an error or a fault: the end of an operation that
can be refused and can also leave the range of its numbers.
-/

namespace Configurator

open Configurator.Calendar Configurator.Logic Configurator.Text

/-- The class of an error. -/
inductive ErrorKind where
  | empty
  | invalidOperand
  | alreadyExists
  | notFound
  | invalidArgument
  | solverFailed
  | invalidResponse
  | weightSaturated
  | serialization
  deriving DecidableEq, Repr

/-- How the shape of a matrix contradicts itself. -/
inductive Misshape where
  /-- The right-hand side does not have one entry for each row. -/
  | bounds (count rows : Nat)
  /-- A row does not have one entry for each column. -/
  | row (index width columns : Nat)
  deriving DecidableEq

/-- The cause for which a request is refused. -/
inductive Error where
  /-- A variable id is the empty text. -/
  | emptyId
  /-- A linear form has no coefficient other than zero. -/
  | noCoefficient
  /-- A bias is so low that the support could not be false. -/
  | biasTooLow (bias lowest : Int)
  /-- A cardinality constraint has no variables. -/
  | noOperand
  /-- A cardinality lies outside 0 to the number of variables. -/
  | cardinalityOutside (bound : Int) (count : Nat)
  /-- A cardinality constraint names a variable twice. -/
  | repeatedOperand (id : String)
  /-- A connective on pairs has another number of operands. -/
  | notTwoOperands (connective : Connective) (operands : List String)
  /-- A connective has too few distinct operands. -/
  | tooFewOperands (connective : Connective) (operands : List String)
  /-- Both sides of an equivalence are the same. -/
  | equalSides (id : String)
  /-- An id is already in use. -/
  | alreadyExists (id : String)
  /-- An id was never introduced. -/
  | notFound (id : String)
  /-- A text names no action. -/
  | unknownAction (text : String)
  /-- A period ends before it starts, or at its start. -/
  | emptyPeriod (period : Period)
  /-- An appended row does not have one entry for each column. -/
  | rowWidth (row : List Int) (columns : Nat)
  /-- A variable lies beyond the columns of the matrix. -/
  | noColumn (id : String)
  /-- A matrix contradicts its own shape. -/
  | misshapen (misshape : Misshape)
  /-- A time bound reaches outside the enabled period. -/
  | outsideEnabled (period enabled : Period)
  /-- An earlier time bound reaches outside the period to be enabled. -/
  | boundOutside (id : String) (period enabled : Period)
  /-- A selection names an id that cannot be selected. -/
  | notSelectable (id : String)
  /-- A composite selection names an independent variable. -/
  | independentInComposite (id : String)
  /-- A time lies in none of the compiled periods. -/
  | timeOutside (time : Instant)
  /-- The optimiser gives up for a reason of its own. -/
  | solverFailed (reason : String)
  /-- The optimiser gives up with no more than a status. -/
  | unsolved (status : String)
  /-- An answer does not hold exactly one solution. -/
  | solutionCount (count : Nat)
  /-- An answer has a status that is no success. -/
  | unknownStatus (status : String)
  /-- An answer gives a variable a value other than 0 and 1. -/
  | notBinary (id : String) (value : Int)
  /-- A weight lies beyond the threshold, or beyond the range of a word. -/
  | weightSaturated (id : String) (weight threshold : Int)
  /-- A text is not the written form of a value. -/
  | malformedText
  /-- A persisted rule set has not one column for each variable. -/
  | columnCount (columns ids : Nat)
  /-- The matrix of a persisted rule set contradicts its own shape. -/
  | persistedMisshapen (misshape : Misshape)
  deriving DecidableEq

namespace Error

/-- The class of an error. -/
def kind : Error → ErrorKind
  | emptyId => .empty
  | noCoefficient | biasTooLow .. | noOperand | cardinalityOutside .. |
      repeatedOperand _ | notTwoOperands .. | tooFewOperands .. | equalSides
      _ =>
        .invalidOperand
  | alreadyExists _ => .alreadyExists
  | notFound _ => .notFound
  | unknownAction _ | emptyPeriod _ | rowWidth .. | noColumn _ | misshapen _
      | outsideEnabled .. | boundOutside .. | notSelectable _ |
      independentInComposite _ | timeOutside _ =>
      .invalidArgument
  | solverFailed _ | unsolved _ => .solverFailed
  | solutionCount _ | unknownStatus _ | notBinary .. => .invalidResponse
  | weightSaturated .. => .weightSaturated
  | malformedText | columnCount .. | persistedMisshapen _ => .serialization

/-- A value that cannot be an operand, and why. -/
def operandMessage (operand reason : String) : String :=
  "invalid operand " ++ quoted operand ++ ": " ++ reason

/-- A value that cannot be an argument, and why. -/
def argumentMessage (value reason : String) : String :=
  "invalid argument " ++ quoted value ++ ": " ++ reason

/-- A row of another width than the matrix. -/
def widthReason (width columns : Nat) : String :=
  s!"row has {width} columns, expected {columns}"

/-- The wording of a matrix that contradicts its own shape. -/
def misshapeMessage : Misshape → String
  | .bounds count rows =>
      argumentMessage s!"b of length {count}"
        s!"expected one entry per row ({rows})"
  | .row index width columns =>
      argumentMessage s!"row {index}" (widthReason width columns)

/-- A list of numbers between brackets. -/
def numberList (numbers : List Int) : String :=
  "[" ++ String.intercalate ", " (numbers.map decimalText) ++ "]"

/-- The wording of an error. -/
def message : Error → String
  | emptyId => "variable id must not be empty"
  | noCoefficient =>
      operandMessage "\x7b\x7d"
        "at least one non-zero coefficient is required"
  | biasTooLow bias lowest =>
      operandMessage (decimalText bias)
        ("bias must be at least " ++ decimalText lowest ++
          " for a representable support")
  | noOperand => operandMessage "[]" "at least one variable is required"
  | cardinalityOutside bound count =>
      operandMessage (decimalText bound)
        s!"cardinality must be in 0..={count}"
  | repeatedOperand id => operandMessage id "duplicate operand"
  | notTwoOperands connective operands =>
      operandMessage (quotedList operands)
        (connective.name ++ " takes exactly two operands")
  | tooFewOperands connective operands =>
      let least := connective.leastOperands
      operandMessage (quotedSet operands)
        (connective.name ++ s!" needs at least {least} distinct operands")
  | equalSides id => operandMessage id "EQUIV needs two distinct operands"
  | alreadyExists id => "variable " ++ quoted id ++ " already exists"
  | notFound id => "variable " ++ quoted id ++ " not found"
  | unknownAction text =>
      argumentMessage text "action must be ADD or REMOVE"
  | emptyPeriod period =>
      argumentMessage (period.textIn TimeFormat.spaced)
        "period must start before it ends"
  | rowWidth row columns =>
      argumentMessage (numberList row) (widthReason row.length columns)
  | noColumn id =>
      argumentMessage id "variable has no column in the polyhedron"
  | misshapen misshape => misshapeMessage misshape
  | outsideEnabled period enabled =>
      argumentMessage period.text
        ("period lies outside the enabled period " ++ enabled.text)
  | boundOutside id period enabled =>
      argumentMessage period.text
        ("time-bound assumption of " ++ quoted id ++ " lies outside " ++
          enabled.text)
  | notSelectable id =>
      argumentMessage id "selection of a non-selectable variable"
  | independentInComposite id =>
      argumentMessage id
        "composite selection cannot include an independent variable"
  | timeOutside time =>
      argumentMessage (time.text TimeFormat.shown)
        "time lies outside every compiled period"
  | solverFailed reason => "solver failed: " ++ reason
  | unsolved status => "solver failed: status " ++ quoted status
  | solutionCount count =>
      "invalid solver response: expected exactly one solution, got " ++
        toString count
  | unknownStatus status =>
      "invalid solver response: status " ++ quoted status
  | notBinary id value =>
      "invalid solver response: " ++ quoted id ++ " = " ++
        decimalText value ++ " is not binary"
  | weightSaturated id weight threshold =>
      "weight of " ++ quoted id ++ " is " ++ decimalText weight ++
        ", beyond the threshold " ++ decimalText threshold
  | malformedText => "serialization error: malformed text"
  | columnCount columns ids =>
      s!"serialization error: polyhedron has {columns} columns for " ++
        s!"{ids} variables"
  | persistedMisshapen misshape =>
      "serialization error: " ++ misshapeMessage misshape

end Error

/-- The end of an operation that was refused or that left its range. -/
inductive Failure where
  | error (cause : Error)
  | fault (cause : Fault)
  deriving DecidableEq

/-- A computation that can only be refused is one that can also fault. -/
def liftError {α : Type} : Except Error α → Except Failure α
  | .ok value => .ok value
  | .error cause => .error (.error cause)

/-- A computation that can only fault is one that can also be refused. -/
def liftFault {α : Type} : Except Fault α → Except Failure α
  | .ok value => .ok value
  | .error cause => .error (.fault cause)

instance : MonadLift (Except Error) (Except Failure) :=
  ⟨liftError⟩

instance : MonadLift (Except Fault) (Except Failure) :=
  ⟨liftFault⟩

@[simp]
theorem liftError_eq_ok_iff
    {α : Type}
    {computation : Except Error α}
    {value : α} :
    liftError computation = .ok value ↔ computation = .ok value := by
  cases computation <;> simp [liftError]

@[simp]
theorem liftFault_eq_ok_iff
    {α : Type}
    {computation : Except Fault α}
    {value : α} :
    liftFault computation = .ok value ↔ computation = .ok value := by
  cases computation <;> simp [liftFault]

end Configurator
