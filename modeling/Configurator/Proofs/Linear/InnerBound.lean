import Configurator.Proofs.Linear.Form

/-!
# Inner bounds

The inner bound of a form is its greatest magnitude at points with entries 0
and 1.  The least value is taken where exactly the negative coefficients
count, and the greatest one where they do not, as the least value of the
opposite form.  The checked computation returns the bound exactly if it is a
word, and the opposite
form has the same one.
-/

namespace Configurator.Linear.Coefficients

open Configurator.Arithmetic

/-! ## Attained values -/

/-- The least value of a form is taken at zeros and ones. -/
theorem exists_form_eq_low
    (form : Coefficients) :
    ∃ value : String → Int,
      (∀ id, value id = 0 ∨ value id = 1) ∧
      (∀ id ∉ form.ids, value id = 0) ∧
      form.form value = form.low := by
  refine ⟨fun id => if form.coefficient id < 0 then 1 else 0, ?_, ?_, ?_⟩
  · intro id
    dsimp only
    split
    · exact Or.inr rfl
    · exact Or.inl rfl
  · intro id absent
    simp [coefficient_of_notMem absent]
  · have chosen : ∀ entry ∈ form.entries,
        (if form.coefficient entry.1 < 0 then (1 : Int) else 0) =
          if entry.2 < 0 then 1 else 0 := by
      intro entry member
      rw [coefficient_of_mem member]
    simp only [Coefficients.form, low, values]
    generalize form.coefficient = coefficient at chosen ⊢
    generalize form.entries = entries at chosen ⊢
    induction entries with
    | nil => rfl
    | cons entry rest ih =>
        have others := ih fun other member =>
          chosen other (List.mem_cons_of_mem _ member)
        have here := chosen entry List.mem_cons_self
        rw [weighted_cons, others, here, List.map_cons, List.filter_cons]
        by_cases negative : entry.2 < 0
        · simp [negative]
        · simp [negative]

/-- The greatest value of a form is taken at zeros and ones. -/
theorem exists_form_eq_high
    (form : Coefficients) :
    ∃ value : String → Int,
      (∀ id, value id = 0 ∨ value id = 1) ∧
      form.form value = form.high := by
  obtain ⟨value, binary, _, least⟩ :=
    (form.map fun _ weight => -weight).exists_form_eq_low
  refine ⟨value, binary, ?_⟩
  rw [form_neg, low_opposite] at least
  exact neg_injective least

/-- Some zeros and ones give the form its greatest magnitude. -/
theorem exists_abs_form_eq_reach
    (form : Coefficients) :
    ∃ value : String → Int, (∀ id, value id = 0 ∨ value id = 1) ∧
      |form.form value| = form.reach := by
  have nonpos := form.low_nonpos
  rcases le_total form.high (-form.low) with negative | positive
  · obtain ⟨value, binary, _, least⟩ := form.exists_form_eq_low
    refine ⟨value, binary, ?_⟩
    rw [least, abs_of_nonpos nonpos, reach, max_eq_left negative]
  · obtain ⟨value, binary, greatest⟩ := form.exists_form_eq_high
    refine ⟨value, binary, ?_⟩
    rw [greatest, abs_of_nonneg (by omega), reach, max_eq_right positive]

/-! ## The checked computation -/

theorem innerBound_eq_error
    {form : Coefficients}
    {fault : Fault}
    (failed : form.innerBound = .error fault) :
    fault = .overflow := by
  simp only [innerBound, negativeSum, positiveSum, bind_eq_error_iff,
    word_eq_error_iff] at failed
  rcases failed with
    summed | ⟨_, _, summed | ⟨_, _, ⟨_, cause⟩ | ⟨_, _, finished⟩⟩⟩
  · exact total_eq_error summed
  · exact total_eq_error summed
  · exact cause
  · cases finished

/--
The inner bound is the greatest magnitude, and overflows if that is no word.
-/
theorem innerBound_eq
    (form : Coefficients) :
    form.innerBound =
      if form.reach ≤ greatestWord then .ok form.reach
      else .error .overflow := by
  split
  case isTrue small => exact innerBound_eq_ok_iff.2 ⟨rfl, small⟩
  case isFalse large =>
    cases computed : form.innerBound with
    | ok bound => exact absurd (innerBound_eq_ok_iff.1 computed).2 large
    | error fault => rw [innerBound_eq_error computed]

/-- The opposite form has the same inner bound, or overflows as well. -/
theorem innerBound_opposite
    (form : Coefficients) :
    (form.map fun _ weight => -weight).innerBound = form.innerBound := by
  rw [innerBound_eq, innerBound_eq, reach_opposite]

/--
The inner bound is exact.  If neither all negative nor all positive
coefficients together leave the range of words, it is returned; no point
with entries 0 and 1 gives the form a greater magnitude, and one of these
points gives it this one.  The opposite form has the same inner bound, and
so has the negation of every inequality with the form.
-/
theorem innerBound_exact
    {form : Coefficients}
    (negative : -form.low ≤ greatestWord)
    (positive : form.high ≤ greatestWord) :
    ∃ bound,
      form.innerBound = .ok bound ∧
      (∀ value : String → Int,
        (∀ id ∈ form.ids, value id = 0 ∨ value id = 1) →
        |form.form value| ≤ bound) ∧
      (∃ value : String → Int, (∀ id, value id = 0 ∨ value id = 1) ∧
        |form.form value| = bound) ∧
      (form.map fun _ weight => -weight).innerBound = .ok bound ∧
      ∀ bias negated, (Inequality.mk form bias).negate = .ok negated →
        negated.innerBound = .ok bound := by
  have returned : form.innerBound = .ok form.reach :=
    innerBound_eq_ok_iff.2 ⟨rfl, max_le negative positive⟩
  have opposite :
      (form.map fun _ weight => -weight).innerBound = .ok form.reach :=
    form.innerBound_opposite.trans returned
  refine ⟨form.reach, returned, ?_, form.exists_abs_form_eq_reach, opposite,
    ?_⟩
  · intro value binary
    exact abs_le.2 (form_le_reach binary)
  · intro bias negated computed
    rw [Inequality.negate_eq_ok computed]
    exact opposite

/--
Two coefficients of either sign, which add up to the greatest word and to
its opposite.
-/
def balanced : Coefficients :=
  Coefficients.ofList
    [("d", -9223372036854775804), ("a", 9223372036854775806), ("b", -3),
      ("c", 1)]

/--
Both sums reach the limit, and no point with entries 0 and 1 goes beyond it.
-/
theorem innerBound_exact_balanced :
    -balanced.low = greatestWord ∧
    balanced.high = greatestWord ∧
    balanced.innerBound = .ok greatestWord ∧
    (∀ value : String → Int,
      (∀ id ∈ balanced.ids, value id = 0 ∨ value id = 1) →
        |balanced.form value| ≤ greatestWord) ∧
      (∃ value : String → Int, (∀ id, value id = 0 ∨ value id = 1) ∧
        |balanced.form value| = greatestWord) ∧
      (balanced.map fun _ weight => -weight).innerBound = .ok
          greatestWord := by
  have low : -balanced.low = greatestWord := by decide +kernel
  have high : balanced.high = greatestWord := by decide +kernel
  obtain ⟨bound, returned, bounded, attained, opposite, _⟩ :=
    innerBound_exact low.le high.le
  have limit : bound = greatestWord := by
    rw [innerBound_eq_ok returned, reach, low, high, max_self]
  rw [limit] at returned bounded attained opposite
  exact ⟨low, high, returned, bounded, attained, opposite⟩

end Configurator.Linear.Coefficients
