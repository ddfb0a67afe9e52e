import Configurator.Linear.Inequality
import Configurator.Proofs.Arithmetic.Exact
import Configurator.Proofs.Linear.Weighted
import Mathlib.Tactic.Linarith

/-!
# Exact values of linear forms

A linear form has an exact value at every assignment of whole numbers to
ids, and an inequality holds or does not hold there.  The checked sums of
the coefficients, the inner bound and the negation are related to these
values; the coefficient of a new id adds its own term to the value of the
form.
-/

namespace Configurator.Linear

open Configurator.Arithmetic Configurator.Collection

namespace Coefficients

/-- The coefficient of an id, which is zero for an id without an entry. -/
def coefficient (coefficients : Coefficients) (id : String) : Int :=
  (coefficients.get? id).getD 0

/-- The value of the form at an assignment. -/
def form (coefficients : Coefficients) (value : String → Int) : Int :=
  weighted coefficients.entries value

/-- The negative coefficients together. -/
def low (coefficients : Coefficients) : Int :=
  (coefficients.values.filter (· < 0)).sum

/-- The coefficients that are not negative together. -/
def high (coefficients : Coefficients) : Int :=
  (coefficients.values.filter (0 ≤ ·)).sum

/-- The greatest magnitude of the form at assignments of zeros and ones. -/
def reach (coefficients : Coefficients) : Int :=
  max (-coefficients.low) coefficients.high

theorem ids_nodup (coefficients : Coefficients) : coefficients.ids.Nodup :=
  coefficients.ascending.imp fun less equality => by
    subst equality
    exact String.lt_irrefl _ less

theorem mem_ids_insert
    {coefficients : Coefficients}
    {id other : String}
    {value : Int} :
    other ∈ (coefficients.insert id value).ids ↔
      other = id ∨ other ∈ coefficients.ids :=
  mem_fst_put

theorem ids_map
    (coefficients : Coefficients)
    (change : String → Int → Int) :
    (coefficients.map change).ids = coefficients.ids := by
  simp [ids, map, Function.comp_def]

theorem values_map
    (coefficients : Coefficients)
    (change : Int → Int) :
    (coefficients.map fun _ value => change value).values =
      coefficients.values.map change := by
  simp [values, map, Function.comp_def]

/-- The entry of a new id is put somewhere among the old entries. -/
theorem put_perm
    {id : String}
    {value : Int}
    {entries : List (String × Int)}
    (absent : id ∉ entries.map Prod.fst) :
    (put id value entries).Perm ((id, value) :: entries) := by
  induction entries with
  | nil => exact List.Perm.refl _
  | cons entry rest ih =>
      rw [List.map_cons, List.mem_cons, not_or] at absent
      simp only [put]
      split
      · exact List.Perm.refl _
      · rw [if_neg absent.1]
        exact ((ih absent.2).cons entry).trans (List.Perm.swap _ _ rest)

/-- A new id adds its own term. -/
theorem form_insert
    {coefficients : Coefficients}
    {id : String}
    {weight : Int}
    (absent : id ∉ coefficients.ids)
    (value : String → Int) :
    (coefficients.insert id weight).form value =
      weight * value id + coefficients.form value :=
  weighted_perm (put_perm absent) value

/-- Assignments that agree on the ids of a form give it the same value. -/
theorem form_congr
    {coefficients : Coefficients}
    {left right : String → Int}
    (agree : ∀ id ∈ coefficients.ids, left id = right id) :
    coefficients.form left = coefficients.form right :=
  weighted_congr fun entry member _ =>
    agree entry.1 (List.mem_map_of_mem member)

/-- The weight of an entry is the coefficient of its id. -/
theorem coefficient_of_mem
    {coefficients : Coefficients}
    {entry : String × Int}
    (member : entry ∈ coefficients.entries) :
    coefficients.coefficient entry.1 = entry.2 := by
  have found := (mem_iff_lookup coefficients.ids_nodup).1 member
  rw [coefficient, get?, found]
  rfl

/-- A form does not depend on variables whose coefficient is zero. -/
theorem form_congr_nonzero
    {coefficients : Coefficients}
    {left right : String → Int}
    (agree : ∀ id, coefficients.coefficient id ≠ 0 → left id = right id) :
    coefficients.form left = coefficients.form right := by
  apply weighted_congr
  intro entry member nonzero
  apply agree
  rwa [coefficient_of_mem member]

theorem coefficient_of_notMem
    {coefficients : Coefficients}
    {id : String}
    (absent : id ∉ coefficients.ids) :
    coefficients.coefficient id = 0 := by
  rw [coefficient, get?, lookup_eq_none absent]
  rfl

theorem form_neg
    (coefficients : Coefficients)
    (value : String → Int) :
    (coefficients.map fun _ weight => -weight).form value =
      -coefficients.form value := by
  simp only [form, map]
  induction coefficients.entries with
  | nil => rfl
  | cons entry rest ih =>
      rw [List.map_cons, weighted_cons, weighted_cons, ih]
      ring

/--
At zeros and ones a form lies between its negative and its positive
coefficients.
-/
theorem form_bounds
    {coefficients : Coefficients}
    {value : String → Int}
    (binary : ∀ id ∈ coefficients.ids, value id = 0 ∨ value id = 1) :
    coefficients.low ≤ coefficients.form value ∧
    coefficients.form value ≤ coefficients.high := by
  simp only [low, high, form, values, ids] at binary ⊢
  generalize coefficients.entries = entries at binary ⊢
  induction entries with
  | nil => simp
  | cons entry rest ih =>
      rw [List.map_cons] at binary
      have others :=
        ih fun id member => binary id (List.mem_cons_of_mem _ member)
      have here :
          entry.2 * value entry.1 = 0 ∨
          entry.2 * value entry.1 = entry.2 := by
        rcases binary entry.1 List.mem_cons_self with zero | one
        · left
          rw [zero, Int.mul_zero]
        · right
          rw [one, Int.mul_one]
      simp only [List.map_cons, weighted_cons]
      by_cases negative : entry.2 < 0
      · have notPositive : ¬ 0 ≤ entry.2 := by omega
        simp only [List.filter_cons, negative, notPositive, decide_true,
          decide_false, if_true, List.sum_cons, Bool.false_eq_true,
          if_false]
        omega
      · have positive : 0 ≤ entry.2 := by omega
        simp only [List.filter_cons, negative, positive, decide_true,
          decide_false, if_true, List.sum_cons, Bool.false_eq_true,
          if_false]
        omega

theorem low_nonpos
    (coefficients : Coefficients) :
    coefficients.low ≤ 0 := by
  simp only [low]
  induction coefficients.values with
  | nil => exact Int.le_refl 0
  | cons weight rest ih =>
      rw [List.filter_cons]
      split
      · rename_i negative
        rw [decide_eq_true_eq] at negative
        rw [List.sum_cons]
        omega
      · exact ih

theorem reach_nonneg
    (coefficients : Coefficients) :
    0 ≤ coefficients.reach := by
  have nonpos := coefficients.low_nonpos
  simp only [reach]
  omega

/-- The greatest magnitude bounds the form from both sides. -/
theorem form_le_reach
    {coefficients : Coefficients}
    {value : String → Int}
    (binary : ∀ id ∈ coefficients.ids, value id = 0 ∨ value id = 1) :
    -coefficients.reach ≤ coefficients.form value ∧
    coefficients.form value ≤ coefficients.reach := by
  have bounds := form_bounds binary
  simp only [reach]
  omega

/-- An inner bound that is returned is the greatest magnitude. -/
theorem innerBound_eq_ok
    {coefficients : Coefficients}
    {bound : Int}
    (computed : coefficients.innerBound = .ok bound) :
    bound = coefficients.reach := by
  simp only [innerBound, negativeSum, positiveSum, bind_eq_ok_iff,
    word_eq_ok_iff] at computed
  obtain ⟨negative, negativeSummed, positive, positiveSummed, size,
    ⟨_, rfl⟩, finished⟩ := computed
  cases finished
  have lowEq : negative = coefficients.low := total_eq_ok negativeSummed
  have highEq : positive = coefficients.high := total_eq_ok positiveSummed
  have nonpos := coefficients.low_nonpos
  subst lowEq highEq
  simp only [reach]
  omega

private theorem magnitude_negative
    (form : Coefficients) :
    (magnitude (form.values.filter (· < 0)) : Int) = -form.low :=
  magnitude_of_nonpos fun _ member =>
    Int.le_of_lt (of_decide_eq_true (List.mem_filter.1 member).2)

private theorem magnitude_positive
    (form : Coefficients) :
    (magnitude (form.values.filter (0 ≤ ·)) : Int) = form.high :=
  magnitude_of_nonneg fun _ member =>
    of_decide_eq_true (List.mem_filter.1 member).2

/-- The inner bound is returned exactly if it is a word. -/
theorem innerBound_eq_ok_iff
    {form : Coefficients}
    {bound : Int} :
    form.innerBound = .ok bound ↔
      bound = form.reach ∧ form.reach ≤ greatestWord := by
  have negative := form.magnitude_negative
  have positive := form.magnitude_positive
  have nonpos := form.low_nonpos
  constructor
  · intro computed
    refine ⟨innerBound_eq_ok computed, ?_⟩
    simp only [innerBound, bind_eq_ok_iff, word_eq_ok_iff] at computed
    obtain ⟨least, leastSummed, most, mostSummed, _, ⟨size, _⟩, _⟩ :=
      computed
    have leastEq : least = form.low := total_eq_ok leastSummed
    have mostEq : most = form.high := total_eq_ok mostSummed
    have mostSmall := isWord_of_total mostSummed
    subst leastEq mostEq
    simp only [IsWord, greatestWord, reach] at size mostSmall ⊢
    omega
  · rintro ⟨rfl, small⟩
    simp only [reach, greatestWord] at small
    have leastSummed : form.negativeSum = .ok form.low :=
      total_of_small (by omega)
    have mostSummed : form.positiveSum = .ok form.high :=
      total_of_small (by omega)
    have sized : word form.low.natAbs = .ok (form.low.natAbs : Int) :=
      word_of_natAbs_le (by omega)
    have computed :
        form.innerBound = .ok (max (form.low.natAbs : Int) form.high) := by
      simp only [innerBound, bind_eq_ok_iff]
      exact ⟨_, leastSummed, _, mostSummed, _, sized, rfl⟩
    rw [computed, innerBound_eq_ok computed]

/-- No coefficient weighs more than all of its sign together. -/
theorem natAbs_le_reach
    {form : Coefficients}
    {weight : Int}
    (member : weight ∈ form.values) :
    (weight.natAbs : Int) ≤ form.reach := by
  have negative := form.magnitude_negative
  have positive := form.magnitude_positive
  simp only [reach]
  by_cases sign : weight < 0
  · have listed : weight ∈ form.values.filter (· < 0) :=
      List.mem_filter.2 ⟨member, decide_eq_true sign⟩
    have bounded := natAbs_le_magnitude listed
    omega
  · have listed : weight ∈ form.values.filter (0 ≤ ·) :=
      List.mem_filter.2 ⟨member, decide_eq_true (by omega)⟩
    have bounded := natAbs_le_magnitude listed
    omega

/--
The negative and the positive coefficients change places in the opposite
form.
-/
private theorem sums_opposite
    (form : Coefficients) :
    (form.map fun _ weight => -weight).low = -form.high ∧
    (form.map fun _ weight => -weight).high = -form.low := by
  rw [low, high, low, high, values_map form fun weight => -weight]
  induction form.values with
  | nil => exact ⟨rfl, rfl⟩
  | cons weight rest ih =>
      obtain ⟨lowEq, highEq⟩ := ih
      rw [List.map_cons, List.filter_cons, List.filter_cons,
        List.filter_cons, List.filter_cons]
      rcases Int.lt_trichotomy weight 0 with negative | rfl | positive
      · have above : ¬ 0 ≤ weight := by omega
        have notBelow : ¬ -weight < 0 := by omega
        have opposite : 0 ≤ -weight := by omega
        simp only [negative, above, notBelow, opposite, decide_true,
          decide_false, if_true, Bool.false_eq_true, if_false,
          List.sum_cons]
        omega
      · simpa using ⟨lowEq, highEq⟩
      · have below : ¬ weight < 0 := by omega
        have above : 0 ≤ weight := by omega
        have opposite : -weight < 0 := by omega
        have notAbove : ¬ 0 ≤ -weight := by omega
        simp only [below, above, opposite, notAbove, decide_true,
          decide_false, if_true, Bool.false_eq_true, if_false,
          List.sum_cons]
        omega

theorem low_opposite
    (form : Coefficients) :
    (form.map fun _ weight => -weight).low = -form.high :=
  form.sums_opposite.1

theorem high_opposite
    (form : Coefficients) :
    (form.map fun _ weight => -weight).high = -form.low :=
  form.sums_opposite.2

/-- The opposite form reaches as far. -/
theorem reach_opposite
    (form : Coefficients) :
    (form.map fun _ weight => -weight).reach = form.reach := by
  rw [reach, low_opposite, high_opposite, reach]
  omega

end Coefficients

namespace Inequality

/-- The form plus the bias is not negative at the assignment. -/
def Holds (inequality : Inequality) (value : String → Int) : Prop :=
  0 ≤ inequality.coefficients.form value + inequality.bias

instance
    (inequality : Inequality)
    (value : String → Int) :
    Decidable (inequality.Holds value) :=
  inferInstanceAs
    (Decidable (0 ≤ inequality.coefficients.form value + inequality.bias))

theorem holds_congr
    {inequality : Inequality}
    {left right : String → Int}
    (agree : ∀ id ∈ inequality.coefficients.ids, left id = right id) :
    inequality.Holds left ↔ inequality.Holds right := by
  simp only [Holds]
  rw [Coefficients.form_congr agree]

theorem holds_congr_nonzero
    {inequality : Inequality}
    {left right : String → Int}
    (agree :
      ∀ id,
        inequality.coefficients.coefficient id ≠ 0 → left id = right id) :
    inequality.Holds left ↔ inequality.Holds right := by
  simp only [Holds]
  rw [Coefficients.form_congr_nonzero agree]

/-- A required id is one wherever its value is zero or one. -/
theorem require_holds
    {id : String}
    {value : String → Int}
    (binary : value id = 0 ∨ value id = 1) :
    (require id).Holds value ↔ value id = 1 := by
  have computed : (require id).coefficients.form value = value id := by
    simp [require, Coefficients.form, Coefficients.insert, Coefficients.put,
      EmptyCollection.emptyCollection, Coefficients.empty]
  simp only [Holds]
  rw [computed]
  simp only [require]
  omega

/--
The exact negation, which has the opposite coefficients and the opposite
bias less one.
-/
def complement (inequality : Inequality) : Inequality :=
  ⟨inequality.coefficients.map fun _ weight => -weight,
    -inequality.bias - 1⟩

/-- The negation that is returned is exact. -/
theorem negate_eq_ok
    {inequality negated : Inequality}
    (computed : inequality.negate = .ok negated) :
    negated = inequality.complement := by
  simp only [negate, negatedBias, bind_eq_ok_iff, word_eq_ok_iff]
    at computed
  rcases computed with ⟨_, _, bias, ⟨opposite, ⟨_, rfl⟩, _, rfl⟩, finished⟩
  cases finished
  rfl

/--
The negation is returned if the coefficients and the bias have opposites.
-/
theorem negate_eq
    {inequality : Inequality}
    (small : inequality.coefficients.reach ≤ greatestWord)
    (above : leastWord < inequality.bias)
    (below : inequality.bias ≤ greatestWord) :
    inequality.negate = .ok inequality.complement := by
  simp only [greatestWord, leastWord] at small above below
  have values :
      inequality.coefficients.values.mapM (fun value => word (-value)) =
        .ok (inequality.coefficients.values.map fun value => -value) := by
    apply mapM_eq_ok
    intro weight member
    have bounded := Coefficients.natAbs_le_reach member
    exact word_of_natAbs_le (by omega)
  have opposite : word (-inequality.bias) = .ok (-inequality.bias) :=
    word_eq_ok_iff.2
      ⟨by simp only [IsWord, leastWord, greatestWord]; omega, rfl⟩
  have less : word (-inequality.bias - 1) = .ok (-inequality.bias - 1) :=
    word_eq_ok_iff.2
      ⟨by simp only [IsWord, leastWord, greatestWord]; omega, rfl⟩
  simp only [negate, negatedBias, bind_eq_ok_iff]
  exact ⟨_, values, _, ⟨_, opposite, less⟩, rfl⟩

theorem negate_eq_error
    {inequality : Inequality}
    {fault : Fault}
    (failed : inequality.negate = .error fault) :
    fault = .overflow := by
  simp only [negate, negatedBias, bind_eq_error_iff, word_eq_error_iff]
    at failed
  rcases failed with
    values | ⟨_, _, (⟨_, cause⟩ | ⟨_, _, _, cause⟩) | ⟨_, _, finished⟩⟩
  · obtain ⟨_, _, step⟩ := exists_of_mapM_eq_error values
    exact (word_eq_error_iff.1 step).2
  · exact cause
  · exact cause
  · cases finished

end Inequality

end Configurator.Linear
