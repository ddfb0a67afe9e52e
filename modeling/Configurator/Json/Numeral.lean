import Configurator.Arithmetic.Word
import Configurator.Text.Decimal

/-!
# Numerals

A numeral is the written form of a JSON number: sign, whole part, fraction
and exponent.  It is kept as it is written, because a field decides what it
accepts: an integer field takes no fraction and no exponent, and a field of
floating numbers turns the digits into the nearest value that its algorithm
reaches.
-/

namespace Configurator.Json

open Configurator.Arithmetic Configurator.Text

/-- The parts of a written number. -/
structure Numeral where
  negative : Bool
  whole : Nat
  /-- The digits after the point; there are none without a point. -/
  fraction : List Char
  exponent : Option Int
  deriving DecidableEq

namespace Numeral

/-- The numeral of a whole number. -/
def ofInt (number : Int) : Numeral :=
  ⟨number < 0, number.natAbs, [], none⟩

/--
The whole number that a numeral writes; none has a fraction, an exponent or
a negative zero.
-/
def toInt? (numeral : Numeral) : Option Int :=
  if numeral.fraction ≠ [] ∨ numeral.exponent ≠ none then none
  else if numeral.negative then
    if numeral.whole = 0 then none else some (-numeral.whole)
  else some numeral.whole

@[simp]
theorem toInt?_ofInt
    (number : Int) :
    (ofInt number).toInt? = some number := by
  cases number with
  | ofNat magnitude =>
      have negative : ¬ Int.ofNat magnitude < 0 :=
        Int.not_lt.2 (Int.natCast_nonneg magnitude)
      simp only [toInt?, ofInt, negative]
      rfl
  | negSucc magnitude =>
      have negative : Int.negSucc magnitude < 0 :=
        Int.negSucc_lt_zero magnitude
      simp only [toInt?, ofInt, negative]
      rfl

/--
Take in digits as long as the number they make lies below the bound of
unsigned words; what is left over comes second.
-/
def accumulate : List Char → Nat → Nat × List Char
  | [], number => (number, [])
  | digit :: rest, number =>
      let longer := number * 10 + digitsValue [digit]
      if longer < indexBound then accumulate rest longer
      else (number, digit :: rest)

/--
The floating number nearest to a power of ten, for exponents up to 308.
-/
def powerOfTen (exponent : Nat) : Float :=
  Float.ofScientific 1 false exponent

/-- A floating number times a power of ten; none if it would be infinite. -/
def scale (number : Float) (exponent : Int) : Option Float :=
  if tiny : exponent < -308 then
    if number == 0 then some number
    else scale (number / powerOfTen 308) (exponent + 308)
  else if exponent < 0 then some (number / powerOfTen exponent.natAbs)
  else if exponent ≤ 308 then
    let product := number * powerOfTen exponent.natAbs
    if product.isInf then none else some product
  else if number == 0 then some number
  else none
termination_by exponent.natAbs
decreasing_by omega

/--
The floating number for a numeral.  As many digits as fit into an unsigned
word are converted at once; the digits of the whole part that do not fit
count for the exponent, and a division or multiplication by a power of ten
follows.
-/
def toFloat? (numeral : Numeral) : Option Float := do
  let (whole, skipped) := accumulate (decimalDigits numeral.whole) 0
  let (significand, dropped) := accumulate numeral.fraction whole
  let places := numeral.fraction.length - dropped.length
  let exponent : Int := skipped.length - places + numeral.exponent.getD 0
  let magnitude ← scale significand.toUInt64.toFloat exponent
  return if numeral.negative then -magnitude else magnitude

/-- The characters of a numeral. -/
def characters (numeral : Numeral) : List Char :=
  let sign := if numeral.negative then ['-'] else []
  let fraction :=
    if numeral.fraction = [] then [] else '.' :: numeral.fraction
  let exponent :=
    match numeral.exponent with
    | none => []
    | some exponent => 'e' :: decimal exponent
  sign ++ decimalDigits numeral.whole ++ fraction ++ exponent

end Numeral

end Configurator.Json
