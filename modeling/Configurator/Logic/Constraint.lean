import Configurator.Digest.Sha1
import Configurator.Error
import Configurator.Linear.Inequality

/-!
# Constraints and their supports

A constraint is an inequality with an id.  The id is the SHA-1 digest of the
inequality's coefficients and bias, so equal inequalities have equal ids,
and it is also the name of the constraint's support: the 0/1 variable that
says whether the inequality holds.  Two linking rows tie the support to the
inequality.
-/

namespace Configurator.Logic

open Configurator.Arithmetic Configurator.Linear

/-- Whether a bound is the least or the greatest number of ids that hold. -/
inductive Limit where
  | least
  | greatest

namespace Limit

/-- The coefficient with which every id is counted. -/
def weight : Limit → Int
  | least => 1
  | greatest => -1

/--
The bias with which a sum of weights is not negative exactly within the
bound.
-/
def bias : Limit → (bound : Int) → Int
  | least, bound => -bound
  | greatest, bound => bound

end Limit

/-- An inequality with an id. -/
structure Constraint where
  id : String
  row : Inequality
  deriving DecidableEq

namespace Constraint

/--
What an id is the digest of: each id with its coefficient, then the bias.
-/
def canonicalText (coefficients : Coefficients) (bias : Int) : List Char :=
  coefficients.entries.flatMap
    (fun entry => entry.1.toList ++ Text.decimal entry.2) ++
    Text.decimal bias

/-- The id of a linear form and a bias. -/
def contentId (coefficients : Coefficients) (bias : Int) : String :=
  Digest.Sha1.hexDigest
    ((canonicalText coefficients bias).flatMap String.utf8EncodeChar)

/-- The constraint of a linear form without its zero coefficients. -/
def ofForm (coefficients : Coefficients) (bias : Int) : Constraint :=
  let coefficients := coefficients.dropZeros
  ⟨contentId coefficients bias, ⟨coefficients, bias⟩⟩

/-- The ids that a constraint mentions, in order. -/
def operands (constraint : Constraint) : List String :=
  constraint.row.coefficients.ids

/-- The least bias with which the support of a form can be false. -/
def lowestBias (coefficients : Coefficients) : Except Fault Int := do
  let negative ← coefficients.negativeSum
  let magnitude ← word negative.natAbs
  let bound ← coefficients.innerBound
  word (magnitude - bound)

/--
The constraint of a linear form that mentions a variable and whose support
can be false.
-/
def ofForm?
    (coefficients : Coefficients)
    (bias : Int) :
    Except Failure Constraint := do
  let constraint := ofForm coefficients bias
  if constraint.operands.isEmpty then throw (.error .noCoefficient)
  let lowest ← lowestBias constraint.row.coefficients
  if bias < lowest then throw (.error (.biasTooLow bias lowest))
  return constraint

/-- The first text that repeats an earlier one. -/
def firstRepeated? : (seen : List String) → List String → Option String
  | _, [] => none
  | seen, id :: rest =>
      if id ∈ seen then some id else firstRepeated? (id :: seen) rest

/--
Refuse the operands of a cardinality constraint that are none, repeated or
too few.
-/
def checkCardinality
    (ids : List String)
    (bound : Int) :
    Except Error Unit :=
  if ids.isEmpty then .error .noOperand
  else if bound < 0 ∨ (ids.length : Int) < bound then
    .error (.cardinalityOutside bound ids.length)
  else
    match firstRepeated? [] ids with
    | some id => .error (.repeatedOperand id)
    | none => .ok ()

/-- The distinct ids that hold are as many as a bound allows. -/
def cardinality
    (limit : Limit)
    (ids : List String)
    (bound : Int) :
    Except Error Constraint := do
  checkCardinality ids bound
  return ofForm (Coefficients.uniform ids limit.weight) (limit.bias bound)

/-- At least `bound` of the distinct ids hold. -/
def atLeast (ids : List String) (bound : Int) : Except Error Constraint :=
  cardinality .least ids bound

/-- At most `bound` of the distinct ids hold. -/
def atMost (ids : List String) (bound : Int) : Except Error Constraint :=
  cardinality .greatest ids bound

/--
The row by which the support implies the inequality: with `M` the inner
bound, `form - M * support + (bias + M) ≥ 0`.
-/
def supportImplies (constraint : Constraint) : Except Fault Inequality := do
  let bound ← constraint.row.innerBound
  let bias ← word (constraint.row.bias + bound)
  return ⟨constraint.row.coefficients.insert constraint.id (-bound), bias⟩

/--
The row by which the inequality implies the support: the negated inequality
is loosened, by its inner bound less its bias, where the support holds.
-/
def impliesSupport (constraint : Constraint) : Except Fault Inequality := do
  let negated ← constraint.row.negate
  let bound ← negated.innerBound
  let slack ← word (bound - negated.bias)
  return ⟨negated.coefficients.insert constraint.id slack, negated.bias⟩

/-- The two rows that tie the support to the inequality. -/
def linkingRows
    (constraint : Constraint) :
    Except Fault (List Inequality) := do
  let implies ← constraint.supportImplies
  let implied ← constraint.impliesSupport
  return [implies, implied]

/-- The leading characters of a list that take up exactly `bytes` bytes. -/
def leadingBytes? : (bytes : Nat) → List Char → Option (List Char)
  | 0, _ => some []
  | _ + 1, [] => none
  | bytes + 1, character :: rest =>
      if character.utf8Size ≤ bytes + 1 then
        (leadingBytes? (bytes + 1 - character.utf8Size) rest).map
          (character :: ·)
      else none

/-- The first eight bytes of the id, then the inequality. -/
def text (constraint : Constraint) : Except Fault String :=
  match leadingBytes? 8 constraint.id.toList with
  | none => .error .brokenText
  | some start => .ok (String.ofList start ++ ": " ++ constraint.row.text)

end Constraint

end Configurator.Logic
