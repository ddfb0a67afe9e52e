import Configurator.Logic.Lowering
import Configurator.Proofs.Logic.Cardinality

/-!
# Plans and the constraints they are made of

A plan lists constraints, of which the last one stands for the connective.
All constraints in the plan of a connective are made by
`Constraint.cardinality`, and therefore well made.
-/

namespace Configurator.Logic

open Configurator.Collection

/-- A cardinality constraint whose id is the digest of its form and bias. -/
structure Constraint.WellMade (constraint : Constraint) : Prop where
  /-- The constraint counts which of its operands hold. -/
  cardinality : constraint.IsCardinality
  /-- The id stands for the form and the bias. -/
  content : constraint.id =
    Constraint.contentId constraint.row.coefficients constraint.row.bias

theorem Constraint.wellMade_of_made
    {limit : Limit}
    {ids : List String}
    {bound : Int}
    {constraint : Constraint}
    (made : Constraint.cardinality limit ids bound = .ok constraint) :
    constraint.WellMade := by
  refine ⟨Constraint.isCardinality_of_made made, ?_⟩
  obtain ⟨_, _, _, _, rfl⟩ := Constraint.cardinality_eq_ok_iff.1 made
  rfl

namespace Lowering

/-- The constraints of a plan in the order in which they are introduced. -/
def constraints : Lowering → List Constraint
  | done constraint => [constraint]
  | refused _ => []
  | after helper rest => helper :: rest.constraints

/--
The constraint whose support stands for the whole, unless the plan is a
refusal.
-/
def last? : Lowering → Option Constraint
  | done constraint => some constraint
  | refused _ => none
  | after _ rest => rest.last?

theorem mem_constraints_of_last?
    {plan : Lowering}
    {last : Constraint}
    (found : plan.last? = some last) :
    last ∈ plan.constraints := by
  induction plan with
  | done constraint =>
      cases found
      exact List.mem_singleton_self _
  | refused cause => cases found
  | after helper rest ih => exact List.mem_cons_of_mem _ (ih found)

@[simp]
theorem mem_constraints_ofResult
    {result : Except Error Constraint}
    {constraint : Constraint} :
    constraint ∈ (ofResult result).constraints ↔
      result = .ok constraint := by
  cases result with
  | error cause => simp [ofResult, constraints]
  | ok made => simp [ofResult, constraints, eq_comm]

@[simp]
theorem last?_ofResult_eq_some
    {result : Except Error Constraint}
    {constraint : Constraint} :
    (ofResult result).last? = some constraint ↔
      result = .ok constraint := by
  cases result with
  | error cause => simp [ofResult, last?]
  | ok made => simp [ofResult, last?]

theorem mem_constraints_andThen
    {plan : Lowering}
    {next : Constraint → Lowering}
    {constraint : Constraint} :
    constraint ∈ (plan.andThen next).constraints ↔
      constraint ∈ plan.constraints ∨
      ∃ last,
        plan.last? = some last ∧ constraint ∈ (next last).constraints := by
  induction plan with
  | done made => simp [andThen, constraints, last?]
  | refused cause => simp [andThen, constraints, last?]
  | after helper rest ih => simp [andThen, constraints, last?, ih, or_assoc]

theorem last?_andThen_eq_some
    {plan : Lowering}
    {next : Constraint → Lowering}
    {constraint : Constraint} :
    (plan.andThen next).last? = some constraint ↔
      ∃ last,
        plan.last? = some last ∧ (next last).last? = some constraint := by
  induction plan with
  | done made => simp [andThen, last?]
  | refused cause => simp [andThen, last?]
  | after helper rest ih => simpa [andThen, last?] using ih

theorem mem_constraints_withDistinct
    {connective : Connective}
    {operands : List String}
    {plan : List String → Lowering}
    {constraint : Constraint} :
    constraint ∈ (withDistinct connective operands plan).constraints ↔
      connective.leastOperands ≤
        (OrderedSet.ofList operands).toList.length ∧
      constraint ∈
        (plan (OrderedSet.ofList operands).toList).constraints := by
  unfold withDistinct
  dsimp only
  split
  · rename_i few
    simp [constraints, few]
  · rename_i enough
    simp [Nat.le_of_not_lt enough]

theorem last?_withDistinct_eq_some
    {connective : Connective}
    {operands : List String}
    {plan : List String → Lowering}
    {constraint : Constraint} :
    (withDistinct connective operands plan).last? = some constraint ↔
      connective.leastOperands ≤
        (OrderedSet.ofList operands).toList.length ∧
      (plan (OrderedSet.ofList operands).toList).last? =
        some constraint := by
  unfold withDistinct
  dsimp only
  split
  · rename_i few
    simp [last?, few]
  · rename_i enough
    simp [Nat.le_of_not_lt enough]

private theorem mem_someOf
    {operands : List String}
    {constraint : Constraint}
    (member : constraint ∈ (someOf operands).constraints) :
    constraint.WellMade := by
  have made := (mem_constraints_withDistinct.1 member).2
  exact Constraint.wellMade_of_made (mem_constraints_ofResult.1 made)

private theorem mem_allOf
    {operands : List String}
    {constraint : Constraint}
    (member : constraint ∈ (allOf operands).constraints) :
    constraint.WellMade := by
  have made := (mem_constraints_withDistinct.1 member).2
  exact Constraint.wellMade_of_made (mem_constraints_ofResult.1 made)

private theorem mem_noneOf
    {operands : List String}
    {constraint : Constraint}
    (member : constraint ∈ (noneOf operands).constraints) :
    constraint.WellMade := by
  have made := (mem_constraints_withDistinct.1 member).2
  exact Constraint.wellMade_of_made (mem_constraints_ofResult.1 made)

private theorem mem_exactlyOneOf
    {operands : List String}
    {constraint : Constraint}
    (member : constraint ∈ (exactlyOneOf operands).constraints) :
    constraint.WellMade := by
  have made := (mem_constraints_withDistinct.1 member).2
  simp only [mem_constraints_andThen, mem_constraints_ofResult] at made
  rcases made with present | ⟨_, _, few | ⟨_, _, both⟩⟩
  · exact Constraint.wellMade_of_made present
  · exact Constraint.wellMade_of_made few
  · exact Constraint.wellMade_of_made both

private theorem mem_implies
    {condition consequence : String}
    {constraint : Constraint}
    (member : constraint ∈ (implies condition consequence).constraints) :
    constraint.WellMade := by
  rcases mem_constraints_andThen.1 member with absent | ⟨_, _, either⟩
  · exact mem_noneOf absent
  · exact mem_someOf either

private theorem mem_sameAs
    {left right : String}
    {constraint : Constraint}
    (member : constraint ∈ (sameAs left right).constraints) :
    constraint.WellMade := by
  simp only [sameAs] at member
  split at member
  · cases member
  · simp only [mem_constraints_andThen] at member
    rcases member with both | ⟨_, _, neither | ⟨_, _, either⟩⟩
    · exact mem_allOf both
    · exact mem_noneOf neither
    · exact mem_someOf either

end Lowering

/-- The plan of a connective consists of well-made constraints. -/
theorem Connective.wellMade_of_mem_lower
    {connective : Connective}
    {operands : List String}
    {constraint : Constraint}
    (member : constraint ∈ (connective.lower operands).constraints) :
    constraint.WellMade := by
  simp only [Connective.lower] at member
  split at member
  · exact Lowering.mem_allOf member
  · exact Lowering.mem_someOf member
  · exact Lowering.mem_noneOf member
  · exact Lowering.mem_exactlyOneOf member
  · have made := (Lowering.mem_constraints_withDistinct.1 member).2
    exact Constraint.wellMade_of_made
      (Lowering.mem_constraints_ofResult.1 made)
  · have made := (Lowering.mem_constraints_withDistinct.1 member).2
    exact Constraint.wellMade_of_made
      (Lowering.mem_constraints_ofResult.1 made)
  · have made := (Lowering.mem_constraints_withDistinct.1 member).2
    exact Constraint.wellMade_of_made
      (Lowering.mem_constraints_ofResult.1 made)
  · exact Lowering.mem_implies member
  · exact Lowering.mem_sameAs member
  · cases member

end Configurator.Logic
