import Configurator.Proofs.Linear.InnerBound
import Configurator.Proofs.Logic.Cardinality

/-!
# Representable constraints

The linking rows of a constraint are faithful if, at zeros and ones, they
hold exactly where the support says whether the inequality does.  A linear
form and a bias are accepted exactly if the linking rows of their constraint
are faithful: where the bias is too low, the rows exclude the points at
which the form is least, although the inequality fails there and the support
is rightly zero.
-/

namespace Configurator.Logic.Constraint

open Configurator.Arithmetic Configurator.Linear

/-! ## Faithful rows -/

/--
At zeros and ones for the operands and the support, the rows hold exactly if
the support says whether the inequality does.
-/
def Faithful (constraint : Constraint) (rows : List Inequality) : Prop :=
  ∀ value : String → Int,
    (∀ id ∈ constraint.operands, value id = 0 ∨ value id = 1) →
    (value constraint.id = 0 ∨ value constraint.id = 1) →
    ((∀ row ∈ rows, row.Holds value) ↔
      (value constraint.id = 1 ↔ constraint.row.Holds value))

/-- The links are faithful exactly if the bias is not too low. -/
theorem faithful_links_iff
    {constraint : Constraint}
    (fresh : constraint.id ∉ constraint.operands) :
    constraint.Faithful constraint.links ↔ constraint.Representable := by
  constructor
  · intro faithful
    obtain ⟨value, binary, outside, least⟩ :=
      constraint.row.coefficients.exists_form_eq_low
    have unsupported : value constraint.id = 0 := outside _ fresh
    have agreement := faithful value (fun id _ => binary id) (binary _)
    have nonpos := constraint.row.coefficients.low_nonpos
    by_contra unrepresentable
    simp only [Representable, Coefficients.reach] at unrepresentable
    have fails : ¬ constraint.row.Holds value := by
      simp only [Inequality.Holds, least]
      omega
    have linked :=
      agreement.2 ⟨fun one => by omega, fun holds => absurd holds fails⟩
    have first := linked _ List.mem_cons_self
    simp only [Inequality.Holds, Coefficients.form_insert fresh,
      unsupported, least, Coefficients.reach] at first
    omega
  · intro representable value binary support
    exact links_hold_iff fresh representable binary support

/-! ## Acceptance -/

theorem lowestBias_eq
    {form : Coefficients}
    (small : form.reach ≤ greatestWord) :
    lowestBias form = .ok (-form.low - form.reach) := by
  have nonpos := form.low_nonpos
  have bounded := Coefficients.innerBound_eq_ok_iff.2 ⟨rfl, small⟩
  have negative : form.negativeSum = .ok form.low := by
    simp only [Coefficients.innerBound, bind_eq_ok_iff] at bounded
    obtain ⟨least, summed, _⟩ := bounded
    rw [summed, total_eq_ok summed]
    rfl
  simp only [greatestWord, Coefficients.reach] at small
  have sized : word form.low.natAbs = .ok (-form.low) :=
    word_eq_ok_iff.2
      ⟨by simp only [IsWord, leastWord, greatestWord]; omega, by omega⟩
  have lowest :
      word (-form.low - form.reach) = .ok (-form.low - form.reach) :=
    word_of_natAbs_le (by simp only [Coefficients.reach]; omega)
  simp only [lowestBias, bind_eq_ok_iff]
  exact ⟨_, negative, _, sized, _, bounded, lowest⟩

theorem operands_ofForm_eq_nil_iff
    {form : Coefficients}
    {bias : Int} :
    (ofForm form bias).operands = [] ↔
      ∀ weight ∈ form.values, weight = 0 := by
  simp only [operands, ofForm, Coefficients.ids, Coefficients.dropZeros,
    Coefficients.values, List.map_eq_nil_iff, List.filter_eq_nil_iff,
    decide_eq_true_eq, not_not, List.forall_mem_map]

instance (constraint : Constraint) : Decidable constraint.Representable :=
  inferInstanceAs (Decidable (_ ≤ _))

/--
A form that mentions a variable is accepted exactly if its constraint is
representable.
-/
theorem ofForm?_eq
    {form : Coefficients}
    {bias : Int}
    (mentions : ∃ weight ∈ form.values, weight ≠ 0)
    (small : (ofForm form bias).row.coefficients.reach ≤ greatestWord) :
    ofForm? form bias =
      if (ofForm form bias).Representable then .ok (ofForm form bias)
      else
        .error
          (.error
            (.biasTooLow bias
              (-form.dropZeros.low - form.dropZeros.reach))) := by
  have nonempty : (ofForm form bias).operands.isEmpty = false := by
    rw [List.isEmpty_eq_false_iff, Ne, operands_ofForm_eq_nil_iff]
    push Not
    exact mentions
  have lowest := lowestBias_eq small
  have formEq : (ofForm form bias).row = ⟨form.dropZeros, bias⟩ := rfl
  rw [formEq] at lowest
  have opened : ofForm? form bias =
      (if bias < -form.dropZeros.low - form.dropZeros.reach then
        .error
          (.error
            (.biasTooLow bias (-form.dropZeros.low - form.dropZeros.reach)))
      else .ok (ofForm form bias)) := by
    simp only [ofForm?, nonempty, formEq, lowest, Bool.false_eq_true,
      if_false]
    by_cases low : bias < -form.dropZeros.low - form.dropZeros.reach
    · rw [if_pos low]
      show (if _ then _ else _) = _
      rw [if_pos low]
      rfl
    · rw [if_neg low]
      show (if _ then _ else _) = _
      rw [if_neg low]
      rfl
  rw [opened]
  simp only [Representable, formEq]
  split_ifs
  · omega
  · rfl
  · rfl
  · omega

/-- A form without a coefficient other than zero is refused. -/
theorem ofForm?_of_zeros
    {form : Coefficients}
    {bias : Int}
    (zeros : ∀ weight ∈ form.values, weight = 0) :
    ofForm? form bias = .error (.error .noCoefficient) := by
  have empty : (ofForm form bias).operands.isEmpty = true := by
    rw [List.isEmpty_iff, operands_ofForm_eq_nil_iff]
    exact zeros
  simp only [ofForm?, empty, if_true]
  rfl

/--
A cardinality constraint that mentions a variable is accepted as it is.
-/
theorem IsCardinality.ofForm?_eq
    {constraint : Constraint}
    (cardinality : constraint.IsCardinality)
    (own :
      ofForm constraint.row.coefficients constraint.row.bias = constraint)
    (small : constraint.row.coefficients.reach ≤ greatestWord) :
    ofForm? constraint.row.coefficients constraint.row.bias =
      .ok constraint := by
  have mentions :
      ∃ weight ∈ constraint.row.coefficients.values, weight ≠ 0 := by
    by_contra zeros
    push Not at zeros
    have none :
        (ofForm constraint.row.coefficients constraint.row.bias).operands =
          [] :=
      operands_ofForm_eq_nil_iff.2 zeros
    rw [own] at none
    exact cardinality.1 none
  rw [Constraint.ofForm?_eq mentions (by rwa [own]), own,
    if_pos cardinality.representable]

/--
A linear form whose coefficients are all zero is no operand.  Any other form
whose linking rows stay in range is accepted exactly if these rows are
faithful, and refused otherwise.  The constraints that at least, or at most,
so many of some ids hold are accepted, and their linking rows are faithful.
-/
theorem accepted_iff_faithful
    (form : Coefficients)
    (bias : Int) :
    ((∀ weight ∈ form.values, weight = 0) →
      ∃ error,
        ofForm? form bias = .error (.error error) ∧
        error.kind = .invalidOperand) ∧
    ((∃ weight ∈ form.values, weight ≠ 0) →
      (ofForm form bias).Fits →
      (ofForm form bias).id ∉ (ofForm form bias).operands →
      ∃ rows,
        (ofForm form bias).linkingRows = .ok rows ∧
        (ofForm? form bias = .ok (ofForm form bias) ↔
          (ofForm form bias).Faithful rows) ∧
        (¬ (ofForm form bias).Faithful rows →
          ∃ error,
            ofForm? form bias = .error (.error error) ∧
            error.kind = .invalidOperand)) ∧
    ∀ ids bound constraint,
      atLeast ids bound = .ok constraint ∨
      atMost ids bound = .ok constraint →
      constraint.Fits →
      constraint.id ∉ constraint.operands →
      ofForm? constraint.row.coefficients constraint.row.bias =
        .ok constraint ∧
      ∃ rows,
        constraint.linkingRows = .ok rows ∧ constraint.Faithful rows := by
  refine ⟨?zeros, ?threshold, ?cardinalities⟩
  case zeros =>
    intro zeros
    exact ⟨_, ofForm?_of_zeros zeros, rfl⟩
  case threshold =>
    intro mentions fits fresh
    have accepted := ofForm?_eq mentions fits.reach_le
    refine ⟨_, fits.linkingRows_eq, ?_, ?_⟩
    · rw [faithful_links_iff fresh, accepted]
      split_ifs with representable
      · simp [representable]
      · simp [representable]
    · rw [faithful_links_iff fresh, accepted]
      intro unrepresentable
      rw [if_neg unrepresentable]
      exact ⟨_, rfl, rfl⟩
  case cardinalities =>
    intro ids bound constraint made fits fresh
    have shape :
        constraint.IsCardinality ∧
        ofForm constraint.row.coefficients constraint.row.bias =
          constraint := by
      obtain ⟨limit, made⟩ := cardinality_of_made made
      refine ⟨isCardinality_of_made made, ?_⟩
      obtain ⟨_, nodup, _, _, rfl⟩ := cardinality_eq_ok_iff.1 made
      exact ofForm_uniform nodup limit.weight_ne_zero _
    refine ⟨shape.1.ofForm?_eq shape.2 fits.reach_le, _,
      fits.linkingRows_eq, ?_⟩
    exact (faithful_links_iff fresh).2 shape.1.representable

/-- A form with coefficients of both signs, which is at least minus two. -/
def mixed : Coefficients :=
  Coefficients.ofList [("a", 2), ("b", -2), ("c", 1)]

/--
The rows are faithful from the bias minus one on, but no longer at minus
two.
-/
theorem accepted_iff_faithful_mixed :
    (∃ rows,
      (ofForm mixed (-1)).linkingRows = .ok rows ∧
      (ofForm mixed (-1)).Faithful rows) ∧
    (∃ rows,
      (ofForm mixed (-2)).linkingRows = .ok rows ∧
      ¬ (ofForm mixed (-2)).Faithful rows) ∧
    ∃ constraint,
      atMost ["b", "a"] 1 = .ok constraint ∧
      ∃ rows,
        constraint.linkingRows = .ok rows ∧ constraint.Faithful rows := by
  have mentions : ∃ weight ∈ mixed.values, weight ≠ 0 := by decide +kernel
  have accepted :
      (ofForm? mixed (-1)).toOption = some (ofForm mixed (-1)) := by
    decide +kernel
  have refused : (ofForm? mixed (-2)).toOption = none := by decide +kernel
  have few : atMost ["b", "a"] 1 = .ok (uniform ["b", "a"] (-1) 1) :=
    cardinality_eq_ok_iff.2
      ⟨by decide, by decide, by decide, by decide, rfl⟩
  refine ⟨?faithful, ?unfaithful, ?cardinality⟩
  case faithful =>
    obtain ⟨rows, linked, exact, _⟩ :=
      (accepted_iff_faithful mixed (-1)).2.1 mentions (by decide +kernel)
        (by decide +kernel)
    exact ⟨rows, linked, exact.1 (toOption_eq_some_iff.1 accepted)⟩
  case unfaithful =>
    obtain ⟨rows, linked, exact, _⟩ :=
      (accepted_iff_faithful mixed (-2)).2.1 mentions (by decide +kernel)
        (by decide +kernel)
    refine ⟨rows, linked, ?_⟩
    intro faithful
    have granted := toOption_eq_some_iff.2 (exact.2 faithful)
    rw [refused] at granted
    cases granted
  case cardinality =>
    have made :=
      (accepted_iff_faithful mixed 0).2.2 ["b", "a"] 1 _ (Or.inr few)
        (by decide +kernel) (by decide +kernel)
    exact ⟨_, few, made.2⟩

end Configurator.Logic.Constraint
