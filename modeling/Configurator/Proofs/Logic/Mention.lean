import Configurator.Proofs.Logic.Acceptance

/-!
# Mentions

A constraint mentions its operands, and its links mention its support
besides: both with coefficients other than zero.  The plan of a connective
mentions every operand, in one or another of its constraints.  Requests that
are granted store what they construct, so that no mention is lost.
-/

namespace Configurator.Logic

open Configurator.Collection Configurator.Linear

namespace Constraint

variable {constraint : Constraint}

/--
The first link has the greatest magnitude of the form at the support, which
is not zero.
-/
theorem IsCardinality.exists_support_link_ne_zero
    (cardinality : constraint.IsCardinality)
    (fresh : constraint.id ∉ constraint.operands) :
    ∃ link ∈ constraint.links,
      link.coefficients.coefficient constraint.id ≠ 0 := by
  obtain ⟨entry, member⟩ :
      ∃ entry, entry ∈ constraint.row.coefficients.entries := by
    refine List.exists_mem_of_ne_nil _ fun empty => cardinality.1 ?_
    rw [Coefficients.ids, empty]
    rfl
  have weighed : entry.2 ∈ constraint.row.coefficients.values :=
    List.mem_map_of_mem member
  have reached : 1 ≤ constraint.row.coefficients.reach := by
    refine Int.le_trans ?_ (Coefficients.natAbs_le_reach weighed)
    rcases cardinality with ⟨_, ⟨ones, _⟩ | ⟨opposites, _⟩⟩
    · rw [ones _ weighed]
      decide
    · rw [opposites _ weighed]
      decide
  refine ⟨_, List.mem_cons_self, ?_⟩
  have put : (constraint.id, -constraint.row.coefficients.reach) ∈
      (constraint.row.coefficients.insert constraint.id
        (-constraint.row.coefficients.reach)).entries :=
    (Coefficients.put_perm fresh).mem_iff.2 List.mem_cons_self
  rw [Coefficients.coefficient_of_mem put]
  omega

/--
The links of a constraint mention its support and its operands, and nothing
else.
-/
theorem IsCardinality.exists_link_ne_zero_iff
    (cardinality : constraint.IsCardinality)
    (fresh : constraint.id ∉ constraint.operands)
    {id : String} :
    (∃ link ∈ constraint.links, link.coefficients.coefficient id ≠ 0) ↔
      id = constraint.id ∨ id ∈ constraint.operands := by
  constructor
  · rintro ⟨link, member, nonzero⟩
    refine (mem_ids_of_mem_links member).1 ?_
    by_contra absent
    exact nonzero (Coefficients.coefficient_of_notMem absent)
  · rintro (rfl | mentioned)
    · exact cardinality.exists_support_link_ne_zero fresh
    · exact cardinality.exists_link_ne_zero fresh mentioned

theorem mem_operands_uniform_ofList
    {operands : List String}
    (weight bias : Int)
    {id : String} :
    id ∈
        (uniform (OrderedSet.ofList operands).toList weight bias).operands ↔
      id ∈ operands :=
  (mem_operands_uniform (OrderedSet.ofList operands).nodup weight
    bias).trans OrderedSet.mem_ofList

end Constraint

/-! ## Plans -/

namespace Connective

open Lowering

variable {connective : Connective} {operands : List String}
  {last : Constraint}

private theorem mentions_of_first
    {plan : Lowering}
    {weight bias : Int}
    {rest : List Constraint}
    (planned :
      plan.constraints =
        Constraint.uniform (OrderedSet.ofList operands).toList weight
          bias :: rest) :
    ∀ operand ∈ operands, ∃ constraint ∈ plan.constraints,
      operand ∈ constraint.operands := by
  intro operand member
  rw [planned]
  exact ⟨_, List.mem_cons_self,
    (Constraint.mem_operands_uniform_ofList weight bias).2 member⟩

/-- The plan of a connective mentions every operand. -/
theorem mentions_operands
    (found : (connective.lower operands).last? = some last) :
    ∀ operand ∈ operands,
      ∃ constraint ∈ (connective.lower operands).constraints,
        operand ∈ constraint.operands := by
  have accepts := accepts_of_mem_lower (mem_constraints_of_last? found)
  cases connective with
  | conjunction =>
      exact mentions_of_first (congrArg constraints (allOf_eq accepts))
  | disjunction =>
      exact mentions_of_first (congrArg constraints (someOf_eq accepts))
  | negation =>
      exact mentions_of_first (congrArg constraints (noneOf_eq accepts))
  | exactlyOne =>
      exact mentions_of_first
        (congrArg constraints (exactlyOneOf_eq accepts))
  | oneOrNone =>
      have single : (1 : Int) ≤ operands.toFinset.card :=
        Int.ofNat_le.2 (card_pos accepts)
      have planned :
          oneOrNone.lower operands =
            done
              (Constraint.uniform (OrderedSet.ofList operands).toList (-1)
                1) := by
        rw [lower, withDistinct_eq .oneOrNone (card_pos accepts),
          Constraint.atMost,
          cardinality_distinct .greatest accepts (by decide) single]
        rfl
      exact mentions_of_first (congrArg constraints planned)
  | implication =>
      obtain ⟨condition, consequence, rfl⟩ := List.length_eq_two.1 accepts
      have planned := implies_eq condition consequence
      simp only [lower] at found ⊢
      rw [planned] at found ⊢
      -- the negation mentions the condition, and the disjunction has the
      -- consequence
      have either : disjunction.Accepts [_, consequence] :=
        accepts_of_mem_lower (mem_constraints_of_last? found)
      intro operand member
      rcases List.mem_pair.1 member with rfl | rfl
      · refine ⟨_, List.mem_cons_self, ?_⟩
        exact (Constraint.mem_operands_uniform (List.nodup_singleton _) _
                _).2 (List.mem_singleton_self _)
      · obtain ⟨constraint, constraintMember, mentioned⟩ :=
          mentions_of_first (congrArg constraints (someOf_eq either))
            operand (List.mem_cons_of_mem _ (List.mem_singleton_self _))
        exact ⟨constraint, List.mem_cons_of_mem _ constraintMember,
          mentioned⟩
  | equivalence =>
      obtain ⟨left, right, rfl, sides⟩ := accepts
      intro operand member
      simp only [lower]
      rw [sameAs_eq sides]
      refine ⟨_, List.mem_cons_self, ?_⟩
      exact (Constraint.mem_operands_uniform (by simpa using sides) _ _).2
        member
  | atLeast count =>
      obtain ⟨nonempty, least, greatest⟩ := accepts
      have planned :
          (atLeast count).lower operands =
            done
              (Constraint.uniform (OrderedSet.ofList operands).toList 1
                (-count)) := by
        rw [lower, withDistinct_eq (.atLeast count) (card_pos nonempty),
          Constraint.atLeast,
          cardinality_distinct .least nonempty least greatest]
        rfl
      exact mentions_of_first (congrArg constraints planned)
  | atMost count =>
      obtain ⟨nonempty, least, greatest⟩ := accepts
      have planned :
          (atMost count).lower operands =
            done
              (Constraint.uniform (OrderedSet.ofList operands).toList (-1)
                count) := by
        rw [lower, withDistinct_eq (.atMost count) (card_pos nonempty),
          Constraint.atMost,
          cardinality_distinct .greatest nonempty least greatest]
        rfl
      exact mentions_of_first (congrArg constraints planned)

end Connective

/-! ## Requests that are granted -/

namespace Model

variable {model : Model}

/-- Whatever the requests construct is stored under its id. -/
def Stores (model : Model) (steps : List Step) : Prop :=
  ∀ constraint ∈ model.constructed steps,
    ∃ stored ∈ (model.run steps).constraints, stored.id = constraint.id

theorem Stores.append
    {first second : List Step}
    (early : model.Stores first)
    (late : (model.run first).Stores second) :
    model.Stores (first ++ second) := by
  intro constraint member
  rw [run_append]
  rw [constructed_append] at member
  rcases List.mem_append.1 member with earlier | later
  · obtain ⟨stored, storedMember, same⟩ := early constraint earlier
    exact ⟨stored, (growsTo_run _ second).constraints.subset storedMember,
      same⟩
  · exact late constraint later

theorem stores_nil (model : Model) : model.Stores [] :=
  fun _ impossible => nomatch impossible

theorem stores_assume
    (model : Model)
    (ids : List String) :
    model.Stores [.assume ids] :=
  fun _ impossible => nomatch impossible

theorem stores_addPrimitives
    (model : Model)
    (names : List String) :
    model.Stores [.addPrimitives names] :=
  fun _ impossible => nomatch impossible

/-- A connective that is granted constructs the constraints of its plan. -/
theorem constructed_set
    {connective : Connective}
    {operands : List String}
    {support : String}
    (granted : (model.set connective operands).1 = .ok support) :
    model.constructed [.set connective operands] =
      (connective.lower operands).constraints := by
  obtain ⟨required, carried⟩ := set_eq_ok (Prod.ext granted rfl)
  simp only [constructed, constructedBy, required, List.append_nil]
  exact (carryOut_eq_ok carried).1

theorem stores_set
    {connective : Connective}
    {operands : List String}
    {support : String}
    (granted : (model.set connective operands).1 = .ok support) :
    model.Stores [.set connective operands] := by
  intro constraint member
  rw [constructed_set granted] at member
  obtain ⟨_, carried⟩ := set_eq_ok (Prod.ext granted rfl)
  exact (carryOut_eq_ok carried).2.2 constraint member

/-- A connective that is granted constructs a mention of every operand. -/
theorem mentions_set
    {connective : Connective}
    {operands : List String}
    {support : String}
    (granted : (model.set connective operands).1 = .ok support) :
    ∀ operand ∈ operands,
      ∃ constraint ∈ model.constructed [.set connective operands],
        operand ∈ constraint.operands := by
  obtain ⟨_, carried⟩ := set_eq_ok (Prod.ext granted rfl)
  obtain ⟨_, ⟨last, found, _⟩, _⟩ := carryOut_eq_ok carried
  rw [constructed_set granted]
  exact Connective.mentions_operands found

end Model

end Configurator.Logic
