/-!
# Hexadecimal digits

Digests and escaped characters are written with lowercase hexadecimal
digits; escaped characters are read with digits of either case.
-/

namespace Configurator.Text

/-- The lowercase hexadecimal digit of a number below sixteen. -/
def hexDigit (number : Nat) : Char :=
  Nat.digitChar number

/-- The value of a hexadecimal digit of either case. -/
def hexValue? (character : Char) : Option Nat :=
  if '0' ≤ character ∧ character ≤ '9' then
    some (character.toNat - '0'.toNat)
  else
    if 'a' ≤ character ∧ character ≤ 'f' then
      some (character.toNat - 'a'.toNat + 10)
  else
    if 'A' ≤ character ∧ character ≤ 'F' then
      some (character.toNat - 'A'.toNat + 10)
  else none

/-- A digit is read as the number it was written for. -/
theorem hexValue?_hexDigit
    {number : Nat}
    (small : number < 16) :
    hexValue? (hexDigit number) = some number := by
  have checked :
      ∀ digit : Fin 16, hexValue? (hexDigit digit) = some digit.val := by
    decide
  exact checked ⟨number, small⟩

end Configurator.Text
