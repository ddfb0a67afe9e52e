/-!
# Decimal digits

Numbers are written with the fewest decimal digits, or with zeros in front
up to a given width, and read back from a list of digits.
-/

namespace Configurator.Text

/-- Whether a character is a decimal digit. -/
def isDigit (character : Char) : Bool :=
  '0' ≤ character && character ≤ '9'

/-- The number that a list of decimal digits stands for. -/
def digitsValue (digits : List Char) : Nat :=
  Nat.ofDigitChars 10 digits 0

/-- The decimal digits of a number. -/
def decimalDigits (number : Nat) : List Char :=
  Nat.toDigits 10 number

@[simp]
theorem digitsValue_decimalDigits
    (number : Nat) :
    digitsValue (decimalDigits number) = number :=
  Nat.ofDigitChars_toDigits (by decide) (by decide)

/--
The decimal digits of a number, with zeros in front up to `width` digits.
-/
def paddedDigits (width number : Nat) : List Char :=
  let digits := decimalDigits number
  List.replicate (width - digits.length) '0' ++ digits

/-- A whole number in decimal, a negative one after a minus sign. -/
def decimal (number : Int) : List Char :=
  if number < 0 then '-' :: decimalDigits number.natAbs
  else decimalDigits number.natAbs

/-- A whole number in decimal as a text. -/
def decimalText (number : Int) : String :=
  String.ofList (decimal number)

/--
A whole number in decimal that always has a sign; zero has a plus sign.
-/
def signedText (number : Int) : String :=
  if number < 0 then decimalText number
  else String.ofList ('+' :: decimalDigits number.natAbs)

/-- A text with spaces in front up to `width` characters. -/
def rightAligned (width : Nat) (text : String) : String :=
  String.ofList (List.replicate (width - text.length) ' ' ++ text.toList)

end Configurator.Text
