import Configurator.Proofs.Logic.Representable

/-!
# Constraints that can be linked

The linking rows of a constraint are returned exactly if all sums in them
are words, and overflow otherwise.  A linear form and a bias are accepted if
the bias is not too low, and then the inner bound and the negation are
returned.  Nothing limits the bias from above: the linking rows are returned
exactly if the bias and the inner bound add up to less than the greatest
word, as they do for cardinality constraints.
-/

namespace Configurator.Logic.Constraint

open Configurator.Arithmetic Configurator.Linear

/-! ## The range of the linking rows -/

/-- Linking rows are returned exactly if all sums in them are words. -/
theorem linkingRows_eq_ok_iff
    {constraint : Constraint}
    {rows : List Inequality} :
    constraint.linkingRows = .ok rows ↔
      constraint.Fits ∧ rows = constraint.links := by
  constructor
  · intro linked
    refine ⟨?_, linkingRows_eq_ok linked⟩
    simp only [linkingRows, supportImplies, impliesSupport, bind_eq_ok_iff,
      word_eq_ok_iff, Inequality.innerBound, Inequality.negate, negatedBias]
      at linked
    obtain ⟨_, ⟨_, bounded, _⟩, _,
      ⟨_, ⟨_, _, _, ⟨_, ⟨opposite, rfl⟩, _, rfl⟩, finished⟩, _,
        slackBounded, _, ⟨slack, _⟩, _⟩, _⟩ := linked
    cases finished
    have reach := Coefficients.innerBound_eq_ok slackBounded
    rw [Coefficients.reach_opposite] at reach
    subst reach
    simp only [IsWord, leastWord, greatestWord] at opposite slack
    refine ⟨(Coefficients.innerBound_eq_ok_iff.1 bounded).2, ?_, ?_⟩
    · simp only [leastWord]
      omega
    · simp only [greatestWord]
      omega
  · rintro ⟨fits, rfl⟩
    exact fits.linkingRows_eq

theorem linkingRows_eq_error
    {constraint : Constraint}
    {fault : Fault}
    (failed : constraint.linkingRows = .error fault) :
    fault = .overflow := by
  simp only [linkingRows, supportImplies, impliesSupport, bind_eq_error_iff,
    word_eq_error_iff, Inequality.innerBound] at failed
  rcases failed with
    (bounded | ⟨_, _, ⟨_, cause⟩ | ⟨_, _, finished⟩⟩) |
      ⟨_, _,
        (negated |
          ⟨_, _, bounded | ⟨_, _, ⟨_, cause⟩ | ⟨_, _, finished⟩⟩⟩) |
          ⟨_, _, finished⟩⟩
  · exact Coefficients.innerBound_eq_error bounded
  · exact cause
  · cases finished
  · exact Inequality.negate_eq_error negated
  · exact Coefficients.innerBound_eq_error bounded
  · exact cause
  · cases finished
  · cases finished

/--
The linking rows are the links, and overflow if a sum in them is no word.
-/
theorem linkingRows_eq
    (constraint : Constraint) :
    constraint.linkingRows =
      if constraint.Fits then .ok constraint.links
      else .error .overflow := by
  split
  case isTrue fits => exact fits.linkingRows_eq
  case isFalse unfit =>
    cases computed : constraint.linkingRows with
    | ok rows => exact absurd (linkingRows_eq_ok_iff.1 computed).1 unfit
    | error fault => rw [linkingRows_eq_error computed]

/-! ## Accepted constraints -/

private theorem reach_le_of_lowestBias
    {form : Coefficients}
    {lowest : Int}
    (computed : lowestBias form = .ok lowest) :
    form.reach ≤ greatestWord := by
  simp only [lowestBias, bind_eq_ok_iff] at computed
  obtain ⟨_, _, _, _, _, bounded, _⟩ := computed
  exact (Coefficients.innerBound_eq_ok_iff.1 bounded).2

/--
What is known of an accepted form: its inner bound is a word, and its bias
is not too low.
-/
theorem ofForm?_eq_ok
    {form : Coefficients}
    {bias : Int}
    {constraint : Constraint}
    (accepted : ofForm? form bias = .ok constraint) :
    constraint = ofForm form bias ∧
    constraint.row.coefficients.reach ≤ greatestWord ∧
    constraint.Representable := by
  simp only [ofForm?] at accepted
  split at accepted
  · cases accepted
  · obtain ⟨lowest, computed, checked⟩ := bind_eq_ok_iff.1 accepted
    have returned := faulting_eq_ok_iff.1 computed
    have small := reach_le_of_lowestBias returned
    have lowestEq :=
      Except.ok.inj (returned.symm.trans (lowestBias_eq small))
    split at checked
    · cases checked
    · rename_i above
      cases checked
      refine ⟨rfl, small, ?_⟩
      rw [lowestEq] at above
      simp only [ofForm] at above
      simp only [Representable, ofForm]
      omega

/--
The bias of a representable constraint has an opposite if its inner bound is
a word.
-/
theorem Representable.bias_gt
    {constraint : Constraint}
    (representable : constraint.Representable)
    (small : constraint.row.coefficients.reach ≤ greatestWord) :
    leastWord < constraint.row.bias := by
  have nonpos := constraint.row.coefficients.low_nonpos
  simp only [Representable] at representable
  simp only [greatestWord, leastWord] at small ⊢
  omega

/--
A constraint that is made to count ids counts as many operands as there are
ids.
-/
theorem length_operands_of_made
    {limit : Limit}
    {ids : List String}
    {bound : Int}
    {constraint : Constraint}
    (made : cardinality limit ids bound = .ok constraint) :
    constraint.operands.length = ids.length := by
  obtain ⟨_, nodup, _, _, rfl⟩ := cardinality_eq_ok_iff.1 made
  exact (Coefficients.uniform_ids_perm nodup limit.weight).length_eq

/--
An accepted constraint can be linked unless its bias is too high.  The inner
bound and the negation of a constraint that is accepted are returned.  So
are the linking rows of the constraints that at least, or at most, so many
of some ids hold.  Those of an accepted form are returned if the bias and
the inner bound add up to less than the greatest word, and otherwise they
overflow.
-/
theorem accepted_linked_iff
    (constraint : Constraint) :
    (∀ ids bound,
      atLeast ids bound = .ok constraint ∨
      atMost ids bound = .ok constraint →
      ids.length < 2 ^ 62 →
      constraint.row.innerBound = .ok (ids.length : Int) ∧
      constraint.row.negate = .ok constraint.row.complement ∧
      constraint.linkingRows = .ok constraint.links) ∧
    ∀ form bias,
      IsWord bias →
      ofForm? form bias = .ok constraint →
      constraint.row.innerBound = .ok constraint.row.coefficients.reach ∧
      constraint.row.negate = .ok constraint.row.complement ∧
      constraint.linkingRows =
        if bias + constraint.row.coefficients.reach < greatestWord then
          .ok constraint.links
        else .error .overflow := by
  refine ⟨?cardinalities, ?forms⟩
  case cardinalities =>
    intro ids bound made few
    obtain ⟨limit, made⟩ := cardinality_of_made made
    have cardinality := isCardinality_of_made made
    have counted := length_operands_of_made made
    have reach := cardinality.reach_eq
    have small := cardinality.bias_le
    rw [counted] at reach small
    refine ⟨Coefficients.innerBound_eq_ok_iff.2 ⟨reach.symm, ?_⟩,
      Inequality.negate_eq ?_ ?_ ?_, cardinality.linkingRows_eq (by omega)⟩
    all_goals
      simp only [greatestWord, leastWord]
      omega
  case forms =>
    intro form bias isWord accepted
    obtain ⟨rfl, small, representable⟩ := ofForm?_eq_ok accepted
    have above := representable.bias_gt small
    refine ⟨Coefficients.innerBound_eq_ok_iff.2 ⟨rfl, small⟩,
      Inequality.negate_eq small above isWord.2, ?_⟩
    have fits : (ofForm form bias).Fits ↔
        bias + (ofForm form bias).row.coefficients.reach < greatestWord :=
      ⟨fun fits => fits.slack_lt, fun slack => ⟨small, above, slack⟩⟩
    rw [linkingRows_eq]
    simp only [fits]

/-- The form of a single id with the coefficient one. -/
def single : Coefficients :=
  Coefficients.ofList [("x", 1)]

/--
Two less than the greatest word is the highest bias whose linking rows are
returned.
-/
theorem accepted_linked_iff_single :
    (∃ constraint,
      atMost ["b", "a"] 1 = .ok constraint ∧
      constraint.linkingRows = .ok constraint.links) ∧
    (ofForm? single (greatestWord - 2) =
      .ok (ofForm single (greatestWord - 2)) ∧
      (ofForm single (greatestWord - 2)).linkingRows =
        .ok (ofForm single (greatestWord - 2)).links) ∧
    ofForm? single (greatestWord - 1) =
      .ok (ofForm single (greatestWord - 1)) ∧
    (ofForm single (greatestWord - 1)).linkingRows = .error .overflow := by
  have few : atMost ["b", "a"] 1 = .ok (uniform ["b", "a"] (-1) 1) :=
    cardinality_eq_ok_iff.2
      ⟨by decide, by decide, by decide, by decide, rfl⟩
  have below :
      ofForm? single (greatestWord - 2) =
        .ok (ofForm single (greatestWord - 2)) := by
    decide +kernel
  have above :
      ofForm? single (greatestWord - 1) =
        .ok (ofForm single (greatestWord - 1)) := by
    decide +kernel
  refine ⟨⟨_, few, ?_⟩, ⟨below, ?_⟩, above, ?_⟩
  · exact
      ((accepted_linked_iff _).1 ["b", "a"] 1 (Or.inr few) (by decide)).2.2
  · rw [((accepted_linked_iff _).2 single _ (by decide) below).2.2]
    exact if_pos (by decide +kernel)
  · rw [((accepted_linked_iff _).2 single _ (by decide) above).2.2]
    exact if_neg (by decide +kernel)

/--
The greatest word is accepted as a bias, and then the linking rows overflow.
-/
theorem accepted_unlinked :
    IsWord greatestWord ∧
    ofForm? single greatestWord = .ok (ofForm single greatestWord) ∧
    (ofForm single greatestWord).linkingRows = .error .overflow := by
  decide +kernel

end Configurator.Logic.Constraint
