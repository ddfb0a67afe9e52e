import Configurator.Text.Decimal
import Mathlib.Algebra.Group.Nat.Defs

/-!
# Written digits

Numbers are written with decimal digits only, with at least one, and without
a zero in front unless one pads to a width.  Padding changes neither the
value nor, for numbers that fit, the width.  What follows the digits
separates them from the rest of a text if it does not start with a digit.
-/

namespace Configurator.Text

/-- All characters are decimal digits. -/
def AllDigits (characters : List Char) : Prop :=
  ∀ character ∈ characters, isDigit character = true

/-- The text does not go on with a digit. -/
def EndsDigits (rest : List Char) : Prop :=
  ∀ character ∈ rest.head?, isDigit character = false

theorem endsDigits_cons
    {first : Char}
    (stops : isDigit first = false)
    (rest : List Char) :
    EndsDigits (first :: rest) := by
  intro character member
  cases member
  exact stops

/-- Written digits start with a digit. -/
theorem AllDigits.exists_cons
    {digits : List Char}
    (all : AllDigits digits)
    (some : digits ≠ []) :
    ∃ first rest, digits = first :: rest ∧ isDigit first = true := by
  rcases List.exists_cons_of_ne_nil some with ⟨first, rest, rfl⟩
  exact ⟨first, rest, rfl, all first List.mem_cons_self⟩

theorem isDigit_eq
    (character : Char) :
    isDigit character = character.isDigit :=
  rfl

theorem allDigits_decimalDigits
    (number : Nat) :
    AllDigits (decimalDigits number) := by
  intro character member
  rw [isDigit_eq]
  exact Nat.isDigit_of_mem_toDigits (by decide) (by decide) member

theorem decimalDigits_ne_nil (number : Nat) : decimalDigits number ≠ [] :=
  Nat.toDigits_ne_nil

/-- A number other than zero is not written with a zero in front. -/
theorem head?_decimalDigits_ne_zero
    {number : Nat}
    (nonzero : number ≠ 0) :
    (decimalDigits number).head? ≠ some '0' := by
  induction number using Nat.strongRecOn with
  | ind number ih =>
      simp only [decimalDigits] at ih ⊢
      rw [Nat.toDigits_eq_if (by decide)]
      split
      · rw [List.head?_cons, Ne, Option.some.injEq, Nat.digitChar_eq_zero]
        exact nonzero
      · have shorter := ih (number / 10) (by omega) (by omega)
        have written : Nat.toDigits 10 (number / 10) ≠ [] :=
          Nat.toDigits_ne_nil
        rcases List.exists_cons_of_ne_nil written with
          ⟨first, rest, spelled⟩
        rw [spelled] at shorter ⊢
        exact shorter

theorem allDigits_paddedDigits
    (width number : Nat) :
    AllDigits (paddedDigits width number) := by
  intro character member
  rcases List.mem_append.1 member with zero | digit
  · rw [List.eq_of_mem_replicate zero]
    rfl
  · exact allDigits_decimalDigits number character digit

/-- Zeros in front do not change the value. -/
@[simp]
theorem digitsValue_paddedDigits
    (width number : Nat) :
    digitsValue (paddedDigits width number) = number := by
  have written := digitsValue_decimalDigits number
  simp only [digitsValue, paddedDigits] at written ⊢
  rw [Nat.ofDigitChars_append, Nat.ofDigitChars_replicate_zero,
    Nat.mul_zero, written]

theorem paddedDigits_ne_nil
    (width number : Nat) :
    paddedDigits width number ≠ [] := by
  rw [paddedDigits, Ne, List.append_eq_nil_iff, not_and]
  exact fun _ => decimalDigits_ne_nil number

/-- A number that fits into the width is padded to exactly this width. -/
theorem length_paddedDigits
    {width number : Nat}
    (some : 0 < width)
    (small : number < 10 ^ width) :
    (paddedDigits width number).length = width := by
  have short : (decimalDigits number).length ≤ width :=
    (Nat.length_toDigits_le_iff (by decide) some).2 small
  rw [paddedDigits, List.length_append, List.length_replicate]
  omega

/-! ## Digits before other characters -/

theorem takeWhile_digits
    {digits rest : List Char}
    (all : AllDigits digits)
    (ends : EndsDigits rest) :
    (digits ++ rest).takeWhile isDigit = digits := by
  rw [List.takeWhile_append_of_pos all]
  cases rest with
  | nil => simp
  | cons first rest =>
      have stops := ends first rfl
      rw [List.takeWhile_cons_of_neg (by simp [stops]), List.append_nil]

theorem dropWhile_digits
    {digits rest : List Char}
    (all : AllDigits digits)
    (ends : EndsDigits rest) :
    (digits ++ rest).dropWhile isDigit = rest := by
  rw [List.dropWhile_append_of_pos all]
  cases rest with
  | nil => simp
  | cons first rest =>
      have stops := ends first rfl
      rw [List.dropWhile_cons_of_neg (by simp [stops])]

end Configurator.Text
