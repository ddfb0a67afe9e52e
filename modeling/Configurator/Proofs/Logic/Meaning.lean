import Configurator.Proofs.Logic.Faithful
import Mathlib.Data.Finset.Card

/-!
# The meaning of connectives

What it means for a connective to hold of its operands at zeros and ones.
If all constraints in the plan of a connective agree with the values, then
the support of the last one is one exactly if the connective holds.  A model
stores the constraints of a plan that it has carried out and keeps them, so
the support means the connective from then on.
-/

namespace Configurator.Logic

open Configurator.Collection Configurator.Linear

/-- The distinct operands whose value is one. -/
def trueOperands
    (value : String → Int)
    (operands : List String) :
    Finset String :=
  operands.toFinset.filter fun id => value id = 1

/-- The connective is true of the values of its operands. -/
def Connective.Holds
    (value : String → Int) :
    Connective → List String → Prop
  | .conjunction, operands => ∀ id ∈ operands, value id = 1
  | .disjunction, operands => ∃ id ∈ operands, value id = 1
  | .negation, operands => ∀ id ∈ operands, value id = 0
  | .exactlyOne, operands => ∃! id, id ∈ operands ∧ value id = 1
  | .oneOrNone, operands =>
      ∀ left ∈ operands, ∀ right ∈ operands,
        value left = 1 → value right = 1 → left = right
  | .implication, [condition, consequence] =>
      value condition = 0 ∨ value consequence = 1
  | .equivalence, [left, right] => value left = value right
  | .atLeast count, operands => count ≤ (trueOperands value operands).card
  | .atMost count, operands => (trueOperands value operands).card ≤ count
  | _, _ => False

theorem toFinset_ofList
    (operands : List String) :
    (OrderedSet.ofList operands).toList.toFinset = operands.toFinset := by
  ext id
  rw [List.mem_toFinset, List.mem_toFinset]
  exact OrderedSet.mem_ofList

/-- As many operands are kept as there are distinct ones. -/
theorem length_ofList
    (operands : List String) :
    (OrderedSet.ofList operands).toList.length =
      operands.toFinset.card := by
  rw [← toFinset_ofList]
  exact
    (List.toFinset_card_of_nodup (OrderedSet.ofList operands).nodup).symm

section Counting

variable {value : String → Int}

theorem mem_trueOperands
    {operands : List String}
    {id : String} :
    id ∈ trueOperands value operands ↔ id ∈ operands ∧ value id = 1 := by
  rw [trueOperands, Finset.mem_filter, List.mem_toFinset]

theorem all_iff
    {operands : List String} :
    ((OrderedSet.ofList operands).toList.length : Int) ≤
        (trueOperands value operands).card ↔
      ∀ id ∈ operands, value id = 1 := by
  have most : (trueOperands value operands).card ≤ operands.toFinset.card :=
    Finset.card_filter_le _ _
  rw [length_ofList, Nat.cast_le]
  constructor
  · intro enough id member
    have equal := Finset.card_filter_eq_iff.1 (Nat.le_antisymm most enough)
    exact equal id (List.mem_toFinset.2 member)
  · intro all
    refine Nat.le_of_eq (Finset.card_filter_eq_iff.2 ?_).symm
    intro id member
    exact all id (List.mem_toFinset.1 member)

theorem some_iff
    {operands : List String} :
    1 ≤ (trueOperands value operands).card ↔
      ∃ id ∈ operands, value id = 1 := by
  rw [Nat.one_le_iff_ne_zero, Finset.card_ne_zero]
  constructor
  · rintro ⟨id, member⟩
    exact ⟨id, mem_trueOperands.1 member⟩
  · rintro ⟨id, member⟩
    exact ⟨id, mem_trueOperands.2 member⟩

theorem few_iff
    {operands : List String} :
    (trueOperands value operands).card ≤ 1 ↔
      ∀ left ∈ operands, ∀ right ∈ operands,
        value left = 1 → value right = 1 → left = right := by
  rw [Finset.card_le_one]
  constructor
  · intro few left leftMember right rightMember leftOne rightOne
    exact few left (mem_trueOperands.2 ⟨leftMember, leftOne⟩) right
      (mem_trueOperands.2 ⟨rightMember, rightOne⟩)
  · intro few left leftMember right rightMember
    rcases mem_trueOperands.1 leftMember with ⟨leftListed, leftOne⟩
    rcases mem_trueOperands.1 rightMember with ⟨rightListed, rightOne⟩
    exact few left leftListed right rightListed leftOne rightOne

/-- The total is at least, or at most, the bound. -/
def Limit.Met : Limit → (bound total : Int) → Prop
  | .least, bound, total => bound ≤ total
  | .greatest, bound, total => total ≤ bound

/--
The support of a cardinality constraint says whether the sum of the values
meets its bound.
-/
theorem met_iff
    {limit : Limit}
    {ids : List String}
    {bound : Int}
    {constraint : Constraint}
    (made : Constraint.cardinality limit ids bound = .ok constraint)
    (agrees : constraint.Agrees value) :
    value constraint.id = 1 ↔ limit.Met bound (ids.map value).sum := by
  obtain ⟨_, nodup, _, _, rfl⟩ := Constraint.cardinality_eq_ok_iff.1 made
  refine agrees.trans ((Constraint.holds_uniform nodup _ _ value).trans ?_)
  cases limit with
  | least =>
      simp only [Limit.weight, Limit.bias, Limit.Met]
      omega
  | greatest =>
      simp only [Limit.weight, Limit.bias, Limit.Met]
      omega

variable (binary : ∀ id, value id = 0 ∨ value id = 1)

include binary

/--
The values of distinct ids add up to the number of the ids with value one.
-/
theorem sum_eq_card
    {ids : List String}
    (nodup : ids.Nodup) :
    (ids.map value).sum = (trueOperands value ids).card := by
  induction ids with
  | nil => rfl
  | cons id rest ih =>
      rw [List.nodup_cons] at nodup
      rw [List.map_cons, List.sum_cons, ih nodup.2]
      simp only [trueOperands]
      rw [List.toFinset_cons, Finset.filter_insert]
      rcases binary id with zero | one
      · rw [zero, if_neg (by decide), Int.zero_add]
      · have fresh : id ∉ rest.toFinset.filter fun id => value id = 1 := by
          intro member
          exact nodup.1 (List.mem_toFinset.1 (Finset.mem_filter.1 member).1)
        rw [if_pos one, Finset.card_insert_of_notMem fresh, one]
        omega

theorem sum_distinct
    (operands : List String) :
    ((OrderedSet.ofList operands).toList.map value).sum =
      (trueOperands value operands).card := by
  rw [sum_eq_card binary (OrderedSet.ofList operands).nodup, trueOperands,
    toFinset_ofList, trueOperands]

theorem none_iff
    {operands : List String} :
    (trueOperands value operands).card ≤ 0 ↔
      ∀ id ∈ operands, value id = 0 := by
  rw [Nat.le_zero, Finset.card_eq_zero, Finset.eq_empty_iff_forall_notMem]
  constructor
  · intro none id member
    rcases binary id with zero | one
    · exact zero
    · exact absurd (mem_trueOperands.2 ⟨member, one⟩) (none id)
  · intro zeros id member
    rcases mem_trueOperands.1 member with ⟨listed, one⟩
    rw [zeros id listed] at one
    cases one

/-! ## Plans -/

theorem allOf_iff
    {operands : List String}
    {last : Constraint}
    (found : (Lowering.allOf operands).last? = some last)
    (agrees : last.Agrees value) :
    value last.id = 1 ↔ ∀ id ∈ operands, value id = 1 := by
  rcases Lowering.last?_withDistinct_eq_some.1 found with ⟨_, made⟩
  rw [Lowering.last?_ofResult_eq_some] at made
  rw [met_iff made agrees, sum_distinct binary, Limit.Met, all_iff]

theorem someOf_iff
    {operands : List String}
    {last : Constraint}
    (found : (Lowering.someOf operands).last? = some last)
    (agrees : last.Agrees value) :
    value last.id = 1 ↔ ∃ id ∈ operands, value id = 1 := by
  rcases Lowering.last?_withDistinct_eq_some.1 found with ⟨_, made⟩
  rw [Lowering.last?_ofResult_eq_some] at made
  rw [met_iff made agrees, sum_distinct binary, Limit.Met, ← some_iff,
    Nat.one_le_cast]

theorem noneOf_iff
    {operands : List String}
    {last : Constraint}
    (found : (Lowering.noneOf operands).last? = some last)
    (agrees : last.Agrees value) :
    value last.id = 1 ↔ ∀ id ∈ operands, value id = 0 := by
  rcases Lowering.last?_withDistinct_eq_some.1 found with ⟨_, made⟩
  rw [Lowering.last?_ofResult_eq_some] at made
  rw [met_iff made agrees, sum_distinct binary, ← none_iff binary]
  exact Nat.cast_le

theorem exactlyOneOf_iff
    {operands : List String}
    {last : Constraint}
    (found : (Lowering.exactlyOneOf operands).last? = some last)
    (agrees :
      ∀ constraint ∈ (Lowering.exactlyOneOf operands).constraints,
        constraint.Agrees value) :
    value last.id = 1 ↔ ∃! id, id ∈ operands ∧ value id = 1 := by
  have lastAgrees := agrees last (Lowering.mem_constraints_of_last? found)
  rcases Lowering.last?_withDistinct_eq_some.1 found with ⟨enough, planned⟩
  simp only [Lowering.last?_andThen_eq_some,
    Lowering.last?_ofResult_eq_some] at planned
  rcases planned with ⟨present, presentMade, few, fewMade, made⟩
  have presentAgrees : present.Agrees value := by
    apply agrees
    refine Lowering.mem_constraints_withDistinct.2 ⟨enough, ?_⟩
    exact Lowering.mem_constraints_andThen.2
      (Or.inl (Lowering.mem_constraints_ofResult.2 presentMade))
  have fewAgrees : few.Agrees value := by
    apply agrees
    refine Lowering.mem_constraints_withDistinct.2 ⟨enough, ?_⟩
    refine Lowering.mem_constraints_andThen.2
      (Or.inr ⟨present, Lowering.last?_ofResult_eq_some.2 presentMade, ?_⟩)
    exact Lowering.mem_constraints_andThen.2
      (Or.inl (Lowering.mem_constraints_ofResult.2 fewMade))
  have presentIff := met_iff presentMade presentAgrees
  have fewIff := met_iff fewMade fewAgrees
  have lastIff := met_iff made lastAgrees
  rw [sum_distinct binary] at presentIff fewIff
  simp only [Limit.Met] at presentIff fewIff lastIff
  have unique : (∃! id, id ∈ operands ∧ value id = 1) ↔
      (trueOperands value operands).card = 1 := by
    rw [Finset.card_eq_one_iff_existsUnique]
    simp only [mem_trueOperands]
  rw [unique, lastIff]
  simp only [List.map_cons, List.map_nil, List.sum_cons, List.sum_nil]
  have presentBinary := binary present.id
  have fewBinary := binary few.id
  omega

theorem implies_iff
    {condition consequence : String}
    {last : Constraint}
    (found : (Lowering.implies condition consequence).last? = some last)
    (agrees :
      ∀ constraint ∈ (Lowering.implies condition consequence).constraints,
        constraint.Agrees value) :
    value last.id = 1 ↔ value condition = 0 ∨ value consequence = 1 := by
  have lastAgrees := agrees last (Lowering.mem_constraints_of_last? found)
  rcases Lowering.last?_andThen_eq_some.1 found with
    ⟨absent, absentFound, lastFound⟩
  have absentAgrees : absent.Agrees value := by
    apply agrees
    exact Lowering.mem_constraints_andThen.2
      (Or.inl (Lowering.mem_constraints_of_last? absentFound))
  have absentIff := noneOf_iff binary absentFound absentAgrees
  rw [someOf_iff binary lastFound lastAgrees]
  simp only [List.mem_cons, List.not_mem_nil, or_false, exists_eq_or_imp,
    exists_eq_left, absentIff, forall_eq]

theorem sameAs_iff
    {left right : String}
    {last : Constraint}
    (found : (Lowering.sameAs left right).last? = some last)
    (agrees :
      ∀ constraint ∈ (Lowering.sameAs left right).constraints,
        constraint.Agrees value) :
    value last.id = 1 ↔ value left = value right := by
  simp only [Lowering.sameAs] at found agrees
  split at found
  · cases found
  · rename_i different
    rw [if_neg different] at agrees
    have lastAgrees := agrees last (Lowering.mem_constraints_of_last? found)
    rcases Lowering.last?_andThen_eq_some.1 found with
      ⟨both, bothFound, rest⟩
    rcases Lowering.last?_andThen_eq_some.1 rest with
      ⟨neither, neitherFound, lastFound⟩
    have bothAgrees : both.Agrees value := by
      apply agrees
      exact Lowering.mem_constraints_andThen.2
        (Or.inl (Lowering.mem_constraints_of_last? bothFound))
    have neitherAgrees : neither.Agrees value := by
      apply agrees
      refine Lowering.mem_constraints_andThen.2
        (Or.inr ⟨both, bothFound, ?_⟩)
      exact Lowering.mem_constraints_andThen.2
        (Or.inl (Lowering.mem_constraints_of_last? neitherFound))
    have bothIff := allOf_iff binary bothFound bothAgrees
    have neitherIff := noneOf_iff binary neitherFound neitherAgrees
    rw [someOf_iff binary lastFound lastAgrees]
    simp only [List.mem_cons, List.not_mem_nil, or_false, exists_eq_or_imp,
      exists_eq_left, bothIff, neitherIff, forall_eq_or_imp, forall_eq]
    have leftBinary := binary left
    have rightBinary := binary right
    omega

/--
If the constraints of its plan agree with the values, the last support means
the connective.
-/
theorem Connective.lower_iff
    {connective : Connective}
    {operands : List String}
    {last : Constraint}
    (found : (connective.lower operands).last? = some last)
    (agrees :
      ∀ constraint ∈ (connective.lower operands).constraints,
        constraint.Agrees value) :
    value last.id = 1 ↔ connective.Holds value operands := by
  have lastAgrees := agrees last (Lowering.mem_constraints_of_last? found)
  simp only [Connective.lower] at found agrees
  split at found
  · exact allOf_iff binary found lastAgrees
  · exact someOf_iff binary found lastAgrees
  · exact noneOf_iff binary found lastAgrees
  · exact exactlyOneOf_iff binary found agrees
  · rcases Lowering.last?_withDistinct_eq_some.1 found with ⟨_, made⟩
    rw [Lowering.last?_ofResult_eq_some] at made
    rw [met_iff made lastAgrees, sum_distinct binary, Limit.Met,
      Connective.Holds, ← few_iff, Nat.cast_le_one]
  · rcases Lowering.last?_withDistinct_eq_some.1 found with ⟨_, made⟩
    rw [Lowering.last?_ofResult_eq_some] at made
    rw [met_iff made lastAgrees, sum_distinct binary, Limit.Met,
      Connective.Holds]
  · rcases Lowering.last?_withDistinct_eq_some.1 found with ⟨_, made⟩
    rw [Lowering.last?_ofResult_eq_some] at made
    rw [met_iff made lastAgrees, sum_distinct binary, Limit.Met,
      Connective.Holds]
  · exact implies_iff binary found agrees
  · exact sameAs_iff binary found agrees
  · cases found

end Counting

/-! ## Supports in a model -/

/--
Constraints with the same id have the same coefficients and the same bias.
-/
def IdsDetermine (constraints : List Constraint) : Prop :=
  ∀ left ∈ constraints, ∀ right ∈ constraints,
    left.id = right.id → left.row = right.row

theorem IdsDetermine.of_subset
    {some all : List Constraint}
    (distinct : IdsDetermine all)
    (subset : ∀ constraint ∈ some, constraint ∈ all) :
    IdsDetermine some :=
  fun left leftMember right rightMember =>
    distinct left (subset left leftMember) right (subset right rightMember)

instance
    (constraints : List Constraint) :
    Decidable (IdsDetermine constraints) :=
  inferInstanceAs
    (Decidable (∀ left ∈ constraints, ∀ right ∈ constraints,
      left.id = right.id → left.row = right.row))

namespace Model

theorem set_eq_ok
    {model grown : Model}
    {connective : Connective}
    {operands : List String}
    {support : String}
    (returned : model.set connective operands = (.ok support, grown)) :
    model.require operands = .ok () ∧
    model.carryOut (connective.lower operands) = (.ok support, grown) := by
  simp only [Model.set] at returned
  split at returned
  · cases returned
  · rename_i required
    exact ⟨required, returned⟩

/--
A support means its connective in every later model whose constraints are
told apart by their ids from those that the request has constructed.
-/
theorem support_iff
    {model grown later : Model}
    {connective : Connective}
    {operands : List String}
    {support : String}
    {value : String → Int}
    (returned : model.set connective operands = (.ok support, grown))
    (growth : grown.GrowsTo later)
    (distinct :
      ∀ constraint ∈ model.constructedBy (.set connective operands),
        ∀ stored ∈ later.constraints,
          constraint.id = stored.id → constraint.row = stored.row)
    (binary : ∀ id, value id = 0 ∨ value id = 1)
    (consistent : later.Consistent value) :
    value support = 1 ↔ connective.Holds value operands := by
  rcases set_eq_ok returned with ⟨required, carried⟩
  rcases carryOut_eq_ok carried with
    ⟨triedEq, ⟨last, found, rfl⟩, storedById⟩
  have constructed : model.constructedBy (.set connective operands) =
      (connective.lower operands).constraints := by
    simp only [constructedBy, required, triedEq]
  rw [constructed] at distinct
  apply Connective.lower_iff binary found
  intro constraint member
  rcases storedById constraint member with ⟨stored, storedMember, sameId⟩
  have kept : stored ∈ later.constraints :=
    growth.constraints.subset storedMember
  have sameRow := distinct constraint member stored kept sameId.symm
  have agrees := consistent stored kept
  simp only [Constraint.Agrees] at agrees ⊢
  rwa [sameId, ← sameRow] at agrees

/--
In a run whose constraints are told apart by their ids, the id that a
connective returns means the connective: at every vertex that satisfies the
support rows of the model then or later, it is one exactly if the connective
is true of the values of its operands.
-/
theorem support_meaning
    (before after : List Step)
    (connective : Connective)
    (operands : List String)
    (support : String)
    (distinct :
      IdsDetermine
        (empty.constructed (before ++ .set connective operands :: after)))
    (returned :
      ((empty.run before).set connective operands).1 = .ok support) :
    let model := empty.run (before ++ .set connective operands :: after)
    ∀ polyhedron,
      model.polyhedron = .ok polyhedron →
      ∀ vertex : Vertex model.ids,
        (polyhedron.leading (2 * model.constraints.length)).Contains
          vertex.entries →
        (vertex.value support = 1 ↔
          connective.Holds vertex.value operands) := by
  intro model polyhedron computed vertex satisfied
  have wellFormed : model.WellFormed := wellFormed_run_empty _
  have consistent : model.Consistent vertex.value := by
    rwa [wellFormed.leading_contains_iff (polyhedron_represents computed)]
      at satisfied
  have growth :
      ((empty.run before).set connective operands).2.GrowsTo model := by
    show GrowsTo _ (empty.run (before ++ .set connective operands :: after))
    rw [run_append]
    exact growsTo_run _ after
  refine support_iff (Prod.ext returned rfl) growth ?_ vertex.value_binary
    consistent
  intro constraint member stored storedMember sameId
  apply distinct
  · rw [constructed_append]
    exact List.mem_append_right _ (List.mem_append_left _ member)
  · rcases constraints_run storedMember with impossible | constructed
    · cases impossible
    · exact constructed
  · exact sameId

theorem support_meaning_implication :
    let model :=
      empty.run
        ([.addPrimitives ["a", "b"]] ++
          .set .implication ["a", "b"] :: [.addPrimitives ["c"]])
    let vertex : Vertex model.ids :=
      ⟨[1, 0, 0, 0, 1], by decide +kernel, by decide⟩
    vertex.value "1a3876629f8888e1cf79f4f67847f52c1d738408" = 1 ↔
      vertex.value "a" = 0 ∨ vertex.value "b" = 1 := by
  intro model vertex
  have computed :
      model.polyhedron =
        .ok
          ⟨[[-1, 0, -1, 0, 0], [1, 0, 2, 0, 0], [0, 1, 1, -2, 0],
             [0, -1, -1, 2, 0]], [-1, 1, -1, 0], 5⟩ := by
    decide +kernel
  exact support_meaning [.addPrimitives ["a", "b"]] [.addPrimitives ["c"]]
    .implication ["a", "b"] "1a3876629f8888e1cf79f4f67847f52c1d738408"
    (by decide +kernel) (by decide +kernel) _ computed vertex
    (by decide +kernel)

end Model

end Configurator.Logic
