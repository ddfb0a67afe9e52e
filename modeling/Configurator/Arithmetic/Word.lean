import Configurator.Fault

/-!
# Signed 64-bit words

Coefficients, biases and weights are whole numbers of the signed 64-bit
range.  They are kept as integers; `word` checks a result and faults when it
leaves the range, and `word?` does the same for callers that can name the
offending value.  `total` and `dot` check every partial result in order, so
they can fault even when the final value would fit again.
-/

namespace Configurator.Arithmetic

/-- The least signed 64-bit word. -/
def leastWord : Int := -9223372036854775808

/-- The greatest signed 64-bit word. -/
def greatestWord : Int := 9223372036854775807

/-- A number is a word when it lies in the signed 64-bit range. -/
def IsWord (number : Int) : Prop :=
  leastWord ≤ number ∧ number ≤ greatestWord

instance (number : Int) : Decidable (IsWord number) :=
  inferInstanceAs (Decidable (leastWord ≤ number ∧ number ≤ greatestWord))

/-- The bound below which unsigned 64-bit counts and indices lie. -/
def indexBound : Nat := 18446744073709551616

/-- The number itself, if it is a word. -/
def word? (number : Int) : Option Int :=
  if IsWord number then some number else none

/-- The number itself; a fault if it is not a word. -/
def word (number : Int) : Except Fault Int :=
  if IsWord number then .ok number else .error .overflow

@[simp]
theorem word?_eq_some_iff
    {number value : Int} :
    word? number = some value ↔ IsWord number ∧ number = value := by
  simp [word?]

@[simp]
theorem word_eq_ok_iff
    {number value : Int} :
    word number = .ok value ↔ IsWord number ∧ number = value := by
  unfold word
  split <;> simp_all

/-- The sum of the terms, each partial sum from the left being a word. -/
def total (terms : List Int) : Except Fault Int :=
  terms.foldlM (fun partialSum term => word (partialSum + term)) 0

/-- The products of two lists, entry by entry, up to the shorter one. -/
def products : List Int → List Int → Except Fault (List Int)
  | left :: lefts, right :: rights => do
      let product ← word (left * right)
      let rest ← products lefts rights
      return product :: rest
  | _, _ => return []

/-- The inner product, each product and each partial sum being a word. -/
def dot (lefts rights : List Int) : Except Fault Int := do
  total (← products lefts rights)

end Configurator.Arithmetic
