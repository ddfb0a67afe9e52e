import Configurator.Arithmetic.Word
import Configurator.Linear.Coefficients
import Configurator.Text.Decimal

/-!
# Linear inequalities

An inequality states that a linear form plus a bias is not negative.  Its
inner bound is the greatest absolute value that the form takes at points
with entries 0 and 1, and its negation holds exactly where it does not.
-/

namespace Configurator.Linear

open Configurator.Arithmetic

/-- The statement that the form plus the bias is at least zero. -/
structure Inequality where
  coefficients : Coefficients
  bias : Int
  deriving DecidableEq

/-- The sum of the negative coefficients. -/
def Coefficients.negativeSum
    (coefficients : Coefficients) :
    Except Fault Int :=
  total (coefficients.values.filter (· < 0))

/-- The sum of the coefficients that are not negative. -/
def Coefficients.positiveSum
    (coefficients : Coefficients) :
    Except Fault Int :=
  total (coefficients.values.filter (0 ≤ ·))

/--
The greatest absolute value of the form at points with entries 0 and 1: all
positive or all negative coefficients together, whichever weighs more.
-/
def Coefficients.innerBound
    (coefficients : Coefficients) :
    Except Fault Int := do
  let negative ← coefficients.negativeSum
  let positive ← coefficients.positiveSum
  let magnitude ← word negative.natAbs
  return max magnitude positive

/--
The bias of the negated inequality: over whole numbers, `f + b < 0` is
`-f - b - 1 ≥ 0`.
-/
def negatedBias (bias : Int) : Except Fault Int := do
  let opposite ← word (-bias)
  word (opposite - 1)

namespace Inequality

/-- The inequality that holds exactly where `id` is at least one. -/
def require (id : String) : Inequality :=
  ⟨(∅ : Coefficients).insert id 1, -1⟩

/--
The greatest absolute value of the form at points with entries 0 and 1.
-/
def innerBound (inequality : Inequality) : Except Fault Int :=
  inequality.coefficients.innerBound

/-- The inequality that holds exactly where this one does not. -/
def negate (inequality : Inequality) : Except Fault Inequality := do
  let _ ← inequality.coefficients.values.mapM fun value => word (-value)
  let bias ← negatedBias inequality.bias
  return ⟨inequality.coefficients.map fun _ value => -value, bias⟩

/--
Whether the inequality holds at an assignment; ids without a value count as
zero.
-/
def holdsAt
    (inequality : Inequality)
    (assignment : String → Option Int) :
    Except Fault Bool := do
  let values :=
    inequality.coefficients.ids.map fun id => (assignment id).getD 0
  let form ← dot inequality.coefficients.values values
  let value ← word (form + inequality.bias)
  return decide (0 ≤ value)

/-- The terms with their signs, then the bias. -/
def text (inequality : Inequality) : String :=
  let term (entry : String × Int) : String :=
    Text.signedText entry.2 ++ "*" ++ entry.1 ++ " "
  String.join (inequality.coefficients.entries.map term) ++
    Text.signedText inequality.bias ++ " >= 0"

end Inequality

end Configurator.Linear
