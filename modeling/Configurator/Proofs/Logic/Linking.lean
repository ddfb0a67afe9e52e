import Configurator.Logic.Constraint
import Configurator.Proofs.Linear.Form

/-!
# Linking rows

The two rows of a constraint tie its support to its inequality.  Without the
checks for the range of words they are the `links` of the constraint.  Where
the support does not occur in the inequality and the bias is not too low,
the links hold at zeros and ones exactly if the support says whether the
inequality does.  Cardinality constraints are of this kind, and their links
fit into words.
-/

namespace Configurator.Logic.Constraint

open Configurator.Arithmetic Configurator.Linear

/-- The linking rows without checks for their range. -/
def links (constraint : Constraint) : List Inequality :=
  let form := constraint.row.coefficients
  let opposite := form.map fun _ weight => -weight
  let oppositeBias := -constraint.row.bias - 1
  [⟨form.insert constraint.id (-form.reach),
     constraint.row.bias + form.reach⟩,
    ⟨opposite.insert constraint.id (opposite.reach - oppositeBias),
      oppositeBias⟩]

/-- Linking rows that are returned are the links. -/
theorem linkingRows_eq_ok
    {constraint : Constraint}
    {rows : List Inequality}
    (linked : constraint.linkingRows = .ok rows) :
    rows = constraint.links := by
  simp only [linkingRows, supportImplies, impliesSupport, bind_eq_ok_iff,
    word_eq_ok_iff, Inequality.innerBound] at linked
  obtain ⟨implies, ⟨bound, bounded, bias, ⟨_, rfl⟩, impliesEq⟩, implied,
    ⟨negated, negatedEq, slackBound, slackBounded, slack, ⟨_, rfl⟩,
      impliedEq⟩, finished⟩ := linked
  cases impliesEq
  cases impliedEq
  cases finished
  have boundEq := Coefficients.innerBound_eq_ok bounded
  have slackEq := Coefficients.innerBound_eq_ok slackBounded
  have negationEq := Inequality.negate_eq_ok negatedEq
  subst boundEq slackEq negationEq
  rfl

/-! ## The range of the linking rows -/

/-- All sums in the linking rows are words. -/
structure Fits (constraint : Constraint) : Prop where
  /-- The inner bound is a word. -/
  reach_le : constraint.row.coefficients.reach ≤ greatestWord
  /-- The bias has an opposite. -/
  bias_gt : leastWord < constraint.row.bias
  /-- The bias and the inner bound leave room for one. -/
  slack_lt :
    constraint.row.bias + constraint.row.coefficients.reach < greatestWord

instance (constraint : Constraint) : Decidable constraint.Fits :=
  decidable_of_iff
    (constraint.row.coefficients.reach ≤ greatestWord ∧
      leastWord < constraint.row.bias ∧
      constraint.row.bias + constraint.row.coefficients.reach <
        greatestWord)
    ⟨fun ⟨bound, bias, slack⟩ => ⟨bound, bias, slack⟩,
      fun fits => ⟨fits.reach_le, fits.bias_gt, fits.slack_lt⟩⟩

/-- The linking rows are returned if all sums in them are words. -/
theorem Fits.linkingRows_eq
    {constraint : Constraint}
    (fits : constraint.Fits) :
    constraint.linkingRows = .ok constraint.links := by
  have reachSmall := fits.reach_le
  have biasAbove := fits.bias_gt
  have biasBelow := fits.slack_lt
  have nonneg := constraint.row.coefficients.reach_nonneg
  have bounded := Coefficients.innerBound_eq_ok_iff.2 ⟨rfl, fits.reach_le⟩
  have negated := Inequality.negate_eq fits.reach_le fits.bias_gt (by omega)
  have oppositeBounded := Coefficients.innerBound_eq_ok_iff.2
    ⟨rfl, (Coefficients.reach_opposite _).trans_le fits.reach_le⟩
  simp only [greatestWord, leastWord] at reachSmall biasAbove biasBelow
  have biasWord :
      word (constraint.row.bias + constraint.row.coefficients.reach) =
        .ok (constraint.row.bias + constraint.row.coefficients.reach) :=
    word_eq_ok_iff.2
      ⟨by simp only [IsWord, leastWord, greatestWord]; omega, rfl⟩
  have slackWord :
      word
          ((constraint.row.coefficients.map fun _ weight => -weight).reach -
            (-constraint.row.bias - 1)) =
        .ok
          ((constraint.row.coefficients.map fun _ weight => -weight).reach -
            (-constraint.row.bias - 1)) := by
    rw [Coefficients.reach_opposite]
    exact word_eq_ok_iff.2
      ⟨by simp only [IsWord, leastWord, greatestWord]; omega, rfl⟩
  simp only [linkingRows, supportImplies, impliesSupport, bind_eq_ok_iff,
    Inequality.innerBound]
  exact ⟨_, ⟨_, bounded, _, biasWord, rfl⟩, _,
    ⟨_, negated, _, oppositeBounded, _, slackWord, rfl⟩, rfl⟩

/-! ## Representable constraints -/

/-- The bias is not so low that the support could not be false. -/
def Representable (constraint : Constraint) : Prop :=
  -constraint.row.coefficients.low ≤
    constraint.row.bias + constraint.row.coefficients.reach

/--
The links hold exactly if the support says whether the inequality holds.
-/
theorem links_hold_iff
    {constraint : Constraint}
    {value : String → Int}
    (fresh : constraint.id ∉ constraint.operands)
    (representable : constraint.Representable)
    (binary : ∀ id ∈ constraint.operands, value id = 0 ∨ value id = 1)
    (support : value constraint.id = 0 ∨ value constraint.id = 1) :
    (∀ link ∈ constraint.links, link.Holds value) ↔
      (value constraint.id = 1 ↔ constraint.row.Holds value) := by
  have freshOpposite : constraint.id ∉
      (constraint.row.coefficients.map fun _ weight => -weight).ids := by
    rw [Coefficients.ids_map]
    exact fresh
  have binaryOpposite :
      ∀ id ∈ (constraint.row.coefficients.map fun _ weight => -weight).ids,
        value id = 0 ∨ value id = 1 := by
    rw [Coefficients.ids_map]
    exact binary
  have lower := (Coefficients.form_bounds binary).1
  have upper := (Coefficients.form_le_reach binaryOpposite).1
  simp only [Representable] at representable
  simp only [links, List.forall_mem_cons, List.not_mem_nil, false_implies,
    implies_true, and_true, Inequality.Holds,
    Coefficients.form_insert fresh, Coefficients.form_insert freshOpposite]
  rw [Coefficients.form_neg] at upper ⊢
  rcases support with zero | one
  · rw [zero]
    constructor
    · rintro ⟨_, refuted⟩
      constructor
      · intro impossible
        omega
      · intro holds
        omega
    · intro agrees
      have refuted :
          ¬ 0 ≤
            constraint.row.coefficients.form value +
              constraint.row.bias := by
        intro holds
        have impossible := agrees.2 holds
        omega
      constructor
      · omega
      · omega
  · rw [one]
    constructor
    · rintro ⟨holds, _⟩
      exact ⟨fun _ => by omega, fun _ => rfl⟩
    · intro agrees
      have holds := agrees.1 rfl
      constructor
      · omega
      · omega

/-! ## Cardinality constraints -/

/-- At least, or at most, so many of the mentioned ids hold. -/
def IsCardinality (constraint : Constraint) : Prop :=
  let form := constraint.row.coefficients
  let bias := constraint.row.bias
  let count : Int := form.ids.length
  form.ids ≠ [] ∧
    (((∀ weight ∈ form.values, weight = 1) ∧ -count ≤ bias ∧ bias ≤ 0) ∨
      ((∀ weight ∈ form.values, weight = -1) ∧ 0 ≤ bias ∧ bias ≤ count))

private theorem sums_of_ones
    {terms : List Int}
    (ones : ∀ term ∈ terms, term = 1) :
    (terms.filter (· < 0)).sum = 0 ∧
    (terms.filter (0 ≤ ·)).sum = terms.length ∧
    magnitude terms = terms.length := by
  have replicated : terms = List.replicate terms.length 1 :=
    List.eq_replicate_iff.2 ⟨rfl, ones⟩
  rw [replicated]
  simp [magnitude]

private theorem sums_of_opposites
    {terms : List Int}
    (ones : ∀ term ∈ terms, term = -1) :
    (terms.filter (· < 0)).sum = -(terms.length : Int) ∧
    (terms.filter (0 ≤ ·)).sum = 0 ∧
    magnitude terms = terms.length := by
  have replicated : terms = List.replicate terms.length (-1) :=
    List.eq_replicate_iff.2 ⟨rfl, ones⟩
  rw [replicated]
  simp [magnitude]

private theorem length_values
    (constraint : Constraint) :
    constraint.row.coefficients.values.length =
      constraint.operands.length := by
  simp [Coefficients.values, operands, Coefficients.ids]

/--
One end of a cardinality constraint is zero, and the other one counts its
operands.
-/
theorem IsCardinality.ends
    {constraint : Constraint}
    (cardinality : constraint.IsCardinality) :
    let form := constraint.row.coefficients
    let bias := constraint.row.bias
    let count : Int := constraint.operands.length
    (form.low = 0 ∧ form.high = count ∧ -count ≤ bias ∧ bias ≤ 0) ∨
    (form.low = -count ∧ form.high = 0 ∧ 0 ≤ bias ∧ bias ≤ count) := by
  have counted := length_values constraint
  simp only [Coefficients.low, Coefficients.high]
  rcases cardinality with ⟨_, ⟨ones, bounds⟩ | ⟨opposites, bounds⟩⟩
  · rcases sums_of_ones ones with ⟨low, high, _⟩
    rw [low, high, counted]
    exact Or.inl ⟨rfl, rfl, bounds⟩
  · rcases sums_of_opposites opposites with ⟨low, high, _⟩
    rw [low, high, counted]
    exact Or.inr ⟨rfl, rfl, bounds⟩

theorem IsCardinality.representable
    {constraint : Constraint}
    (cardinality : constraint.IsCardinality) :
    constraint.Representable := by
  have ends := cardinality.ends
  simp only [Representable, Coefficients.reach]
  omega

/-- A cardinality constraint weighs as much as it has operands. -/
theorem IsCardinality.magnitude_eq
    {constraint : Constraint}
    (cardinality : constraint.IsCardinality) :
    magnitude constraint.row.coefficients.values =
      constraint.operands.length := by
  rw [← length_values]
  rcases cardinality with ⟨_, ⟨ones, _⟩ | ⟨opposites, _⟩⟩
  · exact (sums_of_ones ones).2.2
  · exact (sums_of_opposites opposites).2.2

/-- A cardinality constraint reaches as far as it has operands. -/
theorem IsCardinality.reach_eq
    {constraint : Constraint}
    (cardinality : constraint.IsCardinality) :
    constraint.row.coefficients.reach = constraint.operands.length := by
  have ends := cardinality.ends
  simp only [Coefficients.reach]
  omega

theorem IsCardinality.bias_le
    {constraint : Constraint}
    (cardinality : constraint.IsCardinality) :
    constraint.row.bias.natAbs ≤ constraint.operands.length := by
  have ends := cardinality.ends
  omega

private theorem magnitude_insert
    {form : Coefficients}
    {id : String}
    (absent : id ∉ form.ids)
    (weight : Int) :
    magnitude (form.insert id weight).values =
      weight.natAbs + magnitude form.values := by
  have permuted :
      (Coefficients.put id weight form.entries).Perm
        ((id, weight) :: form.entries) :=
    Coefficients.put_perm absent
  have summed := ((permuted.map Prod.snd).map Int.natAbs).sum_eq
  rwa [List.map_cons, List.map_cons, List.sum_cons] at summed

private theorem magnitude_opposite
    (form : Coefficients) :
    magnitude (form.map fun _ weight => -weight).values =
      magnitude form.values := by
  rw [Coefficients.values_map form fun weight => -weight]
  simp [magnitude, Function.comp_def]

/--
The linking rows of a cardinality constraint are returned if its operands
are not too many.
-/
theorem IsCardinality.linkingRows_eq
    {constraint : Constraint}
    (cardinality : constraint.IsCardinality)
    (few : constraint.operands.length < 4611686018427387904) :
    constraint.linkingRows = .ok constraint.links := by
  have biasSmall := cardinality.bias_le
  have reach := cardinality.reach_eq
  apply Fits.linkingRows_eq
  constructor
  · simp only [greatestWord]
    omega
  · simp only [leastWord]
    omega
  · simp only [greatestWord]
    omega

/--
The biases of the links are at most twice the number of the operands, and
one.
-/
theorem IsCardinality.natAbs_link_bias_le
    {constraint : Constraint}
    (cardinality : constraint.IsCardinality) :
    ∀ link ∈ constraint.links,
      link.bias.natAbs ≤ 2 * constraint.operands.length + 1 := by
  have biasSmall := cardinality.bias_le
  have reach := cardinality.reach_eq
  simp only [links, List.forall_mem_cons, List.not_mem_nil, false_implies,
    implies_true, and_true]
  omega

/--
The links of a cardinality constraint weigh at most three times its operands
and one.
-/
theorem IsCardinality.links_small
    {constraint : Constraint}
    (cardinality : constraint.IsCardinality)
    (fresh : constraint.id ∉ constraint.operands) :
    ∀ link ∈ constraint.links,
      magnitude link.coefficients.values ≤
        3 * constraint.operands.length + 1 ∧
      link.bias.natAbs ≤ 2 * constraint.operands.length + 1 := by
  have size := cardinality.magnitude_eq
  have biasSmall := cardinality.bias_le
  have reach := cardinality.reach_eq
  have freshOpposite : constraint.id ∉
      (constraint.row.coefficients.map fun _ weight => -weight).ids := by
    rw [Coefficients.ids_map]
    exact fresh
  have weights :
      ∀ link ∈ constraint.links,
        magnitude link.coefficients.values ≤
          3 * constraint.operands.length + 1 := by
    simp only [links, List.forall_mem_cons, List.not_mem_nil, false_implies,
      implies_true, and_true, magnitude_insert fresh,
      magnitude_insert freshOpposite, magnitude_opposite,
      Coefficients.reach_opposite]
    omega
  exact fun link member =>
    ⟨weights link member, cardinality.natAbs_link_bias_le link member⟩

/--
The first link has the coefficients of the operands, which are not zero.
-/
theorem IsCardinality.exists_link_ne_zero
    {constraint : Constraint}
    (cardinality : constraint.IsCardinality)
    (fresh : constraint.id ∉ constraint.operands)
    {operand : String}
    (mentioned : operand ∈ constraint.operands) :
    ∃ link ∈ constraint.links,
      link.coefficients.coefficient operand ≠ 0 := by
  rcases List.mem_map.1 mentioned with ⟨entry, member, rfl⟩
  have nonzero : entry.2 ≠ 0 := by
    have weight : entry.2 ∈ constraint.row.coefficients.values :=
      List.mem_map_of_mem member
    rcases cardinality with ⟨_, ⟨ones, _⟩ | ⟨opposites, _⟩⟩
    · rw [ones _ weight]
      decide
    · rw [opposites _ weight]
      decide
  refine ⟨_, List.mem_cons_self, ?_⟩
  have kept : entry ∈ (constraint.row.coefficients.insert constraint.id
      (-constraint.row.coefficients.reach)).entries :=
    (Coefficients.put_perm fresh).mem_iff.2 (List.mem_cons_of_mem _ member)
  rwa [Coefficients.coefficient_of_mem kept]

/-- The links mention the operands and the support. -/
theorem mem_ids_of_mem_links
    {constraint : Constraint}
    {link : Inequality}
    (member : link ∈ constraint.links)
    {id : String} :
    id ∈ link.coefficients.ids ↔
      id = constraint.id ∨ id ∈ constraint.operands := by
  simp only [links, List.mem_cons, List.not_mem_nil, or_false] at member
  rcases member with rfl | rfl
  · exact Coefficients.mem_ids_insert
  · rw [Coefficients.mem_ids_insert, Coefficients.ids_map]
    rfl

end Configurator.Logic.Constraint
