import Configurator.Text.Decimal

/-!
# Connectives

The propositional connectives from which rules are built, their names, and
how many operands they take.
-/

namespace Configurator.Logic

/-- How the truth of a rule depends on its operands. -/
inductive Connective where
  /-- All operands hold. -/
  | conjunction
  /-- Some operand holds. -/
  | disjunction
  /-- No operand holds. -/
  | negation
  /-- Exactly one operand holds. -/
  | exactlyOne
  /-- At most one operand holds. -/
  | oneOrNone
  /-- The second operand holds if the first does. -/
  | implication
  /-- Both operands hold or neither does. -/
  | equivalence
  /-- At least so many operands hold. -/
  | atLeast (count : Int)
  /-- At most so many operands hold. -/
  | atMost (count : Int)
  deriving DecidableEq, Repr

namespace Connective

/-- The name of a connective in messages. -/
def name : Connective → String
  | conjunction => "AND"
  | disjunction => "OR"
  | negation => "NOT"
  | exactlyOne => "XOR"
  | oneOrNone => "ONE_OR_NONE"
  | implication => "IMPLY"
  | equivalence => "EQUIV"
  | atLeast count => "AT_LEAST(" ++ Text.decimalText count ++ ")"
  | atMost count => "AT_MOST(" ++ Text.decimalText count ++ ")"

/-- The least number of distinct operands. -/
def leastOperands : Connective → Nat
  | conjunction | disjunction | exactlyOne | implication | equivalence => 2
  | negation | oneOrNone | atLeast _ | atMost _ => 1

/-- Whether a connective takes an ordered pair and not a set of operands. -/
def isBinary : Connective → Bool
  | implication | equivalence => true
  | _ => false

end Connective

end Configurator.Logic
