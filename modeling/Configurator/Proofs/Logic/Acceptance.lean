import Configurator.Proofs.Logic.Meaning
import Configurator.Proofs.Logic.Primitives

/-!
# Which connectives are granted

A plan is carried out to its end exactly if it has a last constraint, as
long as its constraints are supplied with operands and no primitive has the
id of one of them.  The plan of a connective has a last constraint exactly
if the connective accepts its operands, except for the implication of an id
to its own negation: its plan ends in a disjunction of one id with itself,
which is refused.
-/

namespace Configurator.Logic

open Configurator.Collection

/-! ## Plans that are supplied with operands -/

namespace Lowering

/--
Every constraint mentions ids that are known or belong to constraints before
it.
-/
def Supplied : Lowering → (String → Prop) → Prop
  | done constraint, known => ∀ operand ∈ constraint.operands, known operand
  | refused _, _ => True
  | after helper rest, known =>
      (∀ operand ∈ helper.operands, known operand) ∧
        rest.Supplied fun id => known id ∨ id = helper.id

variable {known more : String → Prop}

theorem Supplied.mono
    {plan : Lowering}
    (supplied : plan.Supplied known)
    (weaker : ∀ id, known id → more id) :
    plan.Supplied more := by
  induction plan generalizing known more with
  | done constraint =>
      exact fun operand mentioned =>
        weaker operand (supplied operand mentioned)
  | refused cause => trivial
  | after helper rest ih =>
      refine ⟨fun operand mentioned =>
        weaker operand (supplied.1 operand mentioned), ?_⟩
      exact ih supplied.2 fun id => Or.imp_left (weaker id)

theorem supplied_andThen
    {plan : Lowering}
    {next : Constraint → Lowering}
    (first : plan.Supplied known)
    (rest :
      ∀ last,
        plan.last? = some last →
        (next last).Supplied fun id => known id ∨ id = last.id) :
    (plan.andThen next).Supplied known := by
  induction plan generalizing known with
  | done constraint => exact ⟨first, rest constraint rfl⟩
  | refused cause => trivial
  | after helper plan ih =>
      refine ⟨first.1,
        ih first.2 fun last found => (rest last found).mono fun id => ?_⟩
      exact Or.imp_left Or.inl

theorem supplied_withDistinct
    {connective : Connective}
    {operands : List String}
    {plan : List String → Lowering}
    (knownOperands : ∀ operand ∈ operands, known operand)
    (planned : ∀ ids, (∀ id ∈ ids, known id) → (plan ids).Supplied known) :
    (withDistinct connective operands plan).Supplied known := by
  unfold withDistinct
  dsimp only
  split
  · trivial
  · exact planned _ fun id member =>
      knownOperands id (OrderedSet.mem_ofList.1 member)

theorem supplied_cardinality
    {limit : Limit}
    {ids : List String}
    {bound : Int}
    (knownIds : ∀ id ∈ ids, known id) :
    (ofResult (Constraint.cardinality limit ids bound)).Supplied known := by
  cases made : Constraint.cardinality limit ids bound with
  | error cause => trivial
  | ok constraint =>
      obtain ⟨_, nodup, _, _, rfl⟩ :=
        Constraint.cardinality_eq_ok_iff.1 made
      intro operand mentioned
      exact knownIds operand
        ((Constraint.mem_operands_uniform nodup _ _).1 mentioned)

variable {operands : List String}
  (knownOperands : ∀ operand ∈ operands, known operand)

include knownOperands

theorem supplied_allOf : (allOf operands).Supplied known :=
  supplied_withDistinct knownOperands fun _ => supplied_cardinality

theorem supplied_someOf : (someOf operands).Supplied known :=
  supplied_withDistinct knownOperands fun _ => supplied_cardinality

theorem supplied_noneOf : (noneOf operands).Supplied known :=
  supplied_withDistinct knownOperands fun _ => supplied_cardinality

theorem supplied_exactlyOneOf : (exactlyOneOf operands).Supplied known := by
  refine supplied_withDistinct knownOperands fun ids knownIds => ?_
  refine supplied_andThen (supplied_cardinality knownIds) fun present _ =>
    ?_
  refine supplied_andThen
    (supplied_cardinality fun id member => Or.inl (knownIds id member)) ?_
  intro few _
  refine supplied_cardinality ?_
  simp

omit knownOperands

theorem supplied_implies
    {condition consequence : String}
    (knownCondition : known condition)
    (knownConsequence : known consequence) :
    (implies condition consequence).Supplied known := by
  refine supplied_andThen (supplied_noneOf (by simpa using knownCondition))
    fun absent _ => ?_
  refine supplied_someOf ?_
  simp [knownConsequence]

theorem supplied_sameAs
    {left right : String}
    (knownLeft : known left)
    (knownRight : known right) :
    (sameAs left right).Supplied known := by
  unfold sameAs
  split
  · trivial
  · refine supplied_andThen
      (supplied_allOf (by simp [knownLeft, knownRight])) fun both _ => ?_
    refine supplied_andThen
      (supplied_noneOf (by simp [knownLeft, knownRight]))
      fun neither _ => ?_
    refine supplied_someOf ?_
    simp

end Lowering

/-- The plan of a connective needs nothing but the operands. -/
theorem Connective.supplied_lower
    {connective : Connective}
    {operands : List String}
    {known : String → Prop}
    (knownOperands : ∀ operand ∈ operands, known operand) :
    (connective.lower operands).Supplied known := by
  simp only [Connective.lower]
  split
  · exact Lowering.supplied_allOf knownOperands
  · exact Lowering.supplied_someOf knownOperands
  · exact Lowering.supplied_noneOf knownOperands
  · exact Lowering.supplied_exactlyOneOf knownOperands
  · exact Lowering.supplied_withDistinct knownOperands fun _ =>
      Lowering.supplied_cardinality
  · exact Lowering.supplied_withDistinct knownOperands fun _ =>
      Lowering.supplied_cardinality
  · exact Lowering.supplied_withDistinct knownOperands fun _ =>
      Lowering.supplied_cardinality
  · exact Lowering.supplied_implies (knownOperands _ (by simp))
      (knownOperands _ (by simp))
  · exact Lowering.supplied_sameAs (knownOperands _ (by simp))
      (knownOperands _ (by simp))
  · trivial

namespace Model

variable {model grown : Model}

theorem require_of_known
    (wellFormed : model.WellFormed)
    {ids : List String}
    (known : ∀ id ∈ ids, id ∈ model.ids) :
    model.require ids = .ok () := by
  induction ids with
  | nil => rfl
  | cons first rest ih =>
      rcases List.forall_mem_cons.1 known with ⟨firstKnown, restKnown⟩
      have named : first ≠ "" :=
        fun unnamed => wellFormed.named (unnamed ▸ firstKnown)
      simp only [require]
      rw [if_neg named, if_pos firstKnown, ih restKnown]

theorem isSupport_of_notMem_primitives
    {id : String}
    (known : id ∈ model.ids)
    (noPrimitive : id ∉ model.primitives) :
    model.isSupport id = true := by
  by_contra unsupported
  exact noPrimitive (List.mem_filter.2 ⟨known, by simpa using unsupported⟩)

/-- Constraints that are stored already leave the model as it is. -/
theorem carryOut_of_supported
    {plan : Lowering}
    (supported :
      ∀ constraint ∈ plan.constraints,
        model.isSupport constraint.id = true) :
    (model.carryOut plan).2 = model := by
  induction plan with
  | done constraint =>
      simp only [carryOut, introduce]
      rw [if_pos (supported constraint List.mem_cons_self)]
  | refused cause => rfl
  | after helper rest ih =>
      simp only [carryOut, introduce]
      rw [if_pos (supported helper List.mem_cons_self)]
      exact ih fun constraint member =>
        supported constraint (List.mem_cons_of_mem _ member)

/--
A constraint with known operands is introduced unless a primitive has its
id.
-/
theorem exists_introduce
    {constraint : Constraint}
    (known : ∀ operand ∈ constraint.operands, operand ∈ model.ids)
    (noPrimitive : constraint.id ∉ model.primitives) :
    ∃ grown, model.introduce constraint = .ok grown := by
  simp only [introduce]
  by_cases supported : model.isSupport constraint.id = true
  · exact ⟨model, if_pos supported⟩
  · have absent : constraint.id ∉ model.ids := fun present =>
      supported (isSupport_of_notMem_primitives present noPrimitive)
    have supplied : constraint.operands.find? (· ∉ model.ids) = none := by
      rw [List.find?_eq_none]
      intro operand mentioned
      simpa using known operand mentioned
    rw [if_neg supported, if_neg absent, supplied]
    exact ⟨_, rfl⟩

/-- A supplied plan is carried out to its last constraint. -/
theorem exists_carryOut
    (wellFormed : model.WellFormed)
    {plan : Lowering}
    (wellMade : ∀ constraint ∈ plan.constraints, constraint.WellMade)
    (supplied : plan.Supplied (· ∈ model.ids))
    (noPrimitive :
      ∀ constraint ∈ plan.constraints, constraint.id ∉ model.primitives)
    {last : Constraint}
    (found : plan.last? = some last) :
    ∃ grown, model.carryOut plan = (.ok last.id, grown) := by
  induction plan generalizing model with
  | done constraint =>
      cases found
      rcases exists_introduce supplied
          (noPrimitive _ List.mem_cons_self) with
        ⟨grown, introduced⟩
      exact ⟨grown, by simp only [carryOut, introduced]⟩
  | refused cause => cases found
  | after helper rest ih =>
      rcases List.forall_mem_cons.1 wellMade with ⟨helperMade, restMade⟩
      rcases List.forall_mem_cons.1 noPrimitive with ⟨helperFree, restFree⟩
      rcases exists_introduce supplied.1 helperFree with ⟨next, introduced⟩
      have nextFormed := wellFormed.introduce helperMade introduced
      have restSupplied : rest.Supplied (· ∈ next.ids) := by
        refine supplied.2.mono ?_
        rintro id (old | rfl)
        · exact OrderedSet.mem_of_extends (growsTo_introduce introduced).ids
            old
        · rcases stored_of_introduce introduced with ⟨stored, member, same⟩
          exact same ▸ nextFormed.supports_known stored member
      rw [← primitives_introduce introduced] at restFree
      rcases ih nextFormed restMade restSupplied restFree found with
        ⟨grown, carried⟩
      exact ⟨grown, by simp only [carryOut, introduced, carried]⟩

end Model

/-! ## Plans for enough operands -/

namespace Lowering

variable {operands : List String}

theorem withDistinct_eq
    (connective : Connective)
    {plan : List String → Lowering}
    (enough : connective.leastOperands ≤ operands.toFinset.card) :
    withDistinct connective operands plan =
      plan (OrderedSet.ofList operands).toList := by
  rw [← length_ofList] at enough
  unfold withDistinct
  dsimp only
  rw [if_neg (Nat.not_lt.2 enough)]

private theorem distinct_ne_nil
    (nonempty : operands ≠ []) :
    (OrderedSet.ofList operands).toList ≠ [] := by
  obtain ⟨operand, member⟩ := List.exists_mem_of_ne_nil operands nonempty
  exact List.ne_nil_of_mem (OrderedSet.mem_ofList.2 member)

theorem cardinality_distinct
    (limit : Limit)
    {bound : Int}
    (nonempty : operands ≠ [])
    (least : 0 ≤ bound)
    (greatest : bound ≤ operands.toFinset.card) :
    Constraint.cardinality limit (OrderedSet.ofList operands).toList bound =
      .ok
        (Constraint.uniform (OrderedSet.ofList operands).toList limit.weight
          (limit.bias bound)) :=
  Constraint.cardinality_eq_ok_iff.2 ⟨distinct_ne_nil nonempty,
    (OrderedSet.ofList operands).nodup, least, by rwa [length_ofList], rfl⟩

theorem nonempty_of_card
    (some : 1 ≤ operands.toFinset.card) :
    operands ≠ [] := by
  rintro rfl
  cases some

theorem card_pos (nonempty : operands ≠ []) : 1 ≤ operands.toFinset.card :=
  Finset.card_pos.2 (List.toFinset_nonempty_iff operands |>.2 nonempty)

theorem card_pair
    {left right : String}
    (different : left ≠ right) :
    [left, right].toFinset.card = 2 :=
  List.toFinset_card_of_nodup (by simpa using different)

theorem allOf_eq
    (several : 2 ≤ operands.toFinset.card) :
    allOf operands =
      done
        (Constraint.uniform (OrderedSet.ofList operands).toList 1
          (-operands.toFinset.card)) := by
  rw [allOf, withDistinct_eq .conjunction several, length_ofList,
    Constraint.atLeast,
    cardinality_distinct .least (nonempty_of_card (by omega)) (by omega)
      le_rfl]
  rfl

theorem someOf_eq
    (several : 2 ≤ operands.toFinset.card) :
    someOf operands =
      done
        (Constraint.uniform (OrderedSet.ofList operands).toList 1
          (-1)) := by
  rw [someOf, withDistinct_eq .disjunction several, Constraint.atLeast,
    cardinality_distinct .least (nonempty_of_card (by omega)) (by decide)
      (by omega)]
  rfl

theorem noneOf_eq
    (nonempty : operands ≠ []) :
    noneOf operands =
      done
        (Constraint.uniform (OrderedSet.ofList operands).toList (-1)
          0) := by
  rw [noneOf, withDistinct_eq .negation (card_pos nonempty),
    Constraint.atMost,
    cardinality_distinct .greatest nonempty le_rfl (Int.natCast_nonneg _)]
  rfl

theorem exactlyOneOf_eq
    (several : 2 ≤ operands.toFinset.card) :
    let present :=
      Constraint.uniform (OrderedSet.ofList operands).toList 1 (-1)
    let few := Constraint.uniform (OrderedSet.ofList operands).toList (-1) 1
    exactlyOneOf operands =
      after present
        (after few
          (ofResult (Constraint.atLeast [present.id, few.id] 2))) := by
  have nonempty := nonempty_of_card (Nat.le_of_succ_le several)
  have single : (1 : Int) ≤ operands.toFinset.card := by omega
  rw [exactlyOneOf, withDistinct_eq .exactlyOne several, Constraint.atLeast,
    Constraint.atMost,
    cardinality_distinct .least nonempty (by decide) single,
    cardinality_distinct .greatest nonempty (by decide) single]
  rfl

theorem implies_eq
    (condition consequence : String) :
    let absent := Constraint.uniform [condition] (-1) 0
    implies condition consequence =
      after absent (someOf [absent.id, consequence]) := by
  rw [implies, noneOf_eq (List.cons_ne_nil _ _)]
  rfl

theorem sameAs_eq
    {left right : String}
    (different : left ≠ right) :
    let both := Constraint.uniform [left, right] 1 (-2)
    let neither := Constraint.uniform [left, right] (-1) 0
    sameAs left right =
      after both (after neither (someOf [both.id, neither.id])) := by
  have kept : (OrderedSet.ofList [left, right]).toList = [left, right] := by
    simp [OrderedSet.ofList, OrderedSet.append, OrderedSet.toList_insert,
      Ne.symm different]
  rw [sameAs, if_neg different, allOf_eq (card_pair different).ge,
    noneOf_eq (List.cons_ne_nil _ _), card_pair different, kept]
  rfl

theorem someOf_self
    (id : String) :
    someOf [id, id] = refused (.tooFewOperands .disjunction [id]) := by
  have kept : (OrderedSet.ofList [id, id]).toList = [id] := by
    simp [OrderedSet.ofList, OrderedSet.append, OrderedSet.toList_insert]
  simp [someOf, withDistinct, kept, Connective.leastOperands]

end Lowering

/-! ## Operand rules -/

/-- Constraints whose biases differ have different ids. -/
theorem IdsDetermine.id_ne
    {constraints : List Constraint}
    (distinct : IdsDetermine constraints)
    {left right : Constraint}
    (leftMember : left ∈ constraints)
    (rightMember : right ∈ constraints)
    (different : left.row.bias ≠ right.row.bias) :
    left.id ≠ right.id :=
  fun same =>
  different
    (congrArg Linear.Inequality.bias
      (distinct left leftMember right rightMember same))

namespace Connective

open Lowering

/-- The operands are as many and as different as the connective asks for. -/
def Accepts : Connective → List String → Prop
  | conjunction, operands | disjunction, operands | exactlyOne, operands =>
      2 ≤ operands.toFinset.card
  | negation, operands | oneOrNone, operands => operands ≠ []
  | implication, operands => operands.length = 2
  | equivalence, operands =>
      ∃ left right, operands = [left, right] ∧ left ≠ right
  | atLeast count, operands | atMost count, operands =>
      operands ≠ [] ∧ 0 ≤ count ∧ count ≤ operands.toFinset.card

/-- An id implies the id of its own negation. -/
def DeniesCondition : Connective → List String → Prop
  | implication, [condition, consequence] =>
      ∃ absent,
        (negation.lower [condition]).last? = some absent ∧
        absent.id = consequence
  | _, _ => False

variable {connective : Connective} {operands : List String}

private theorem card_of_mem
    {plan : List String → Lowering}
    {constraint : Constraint}
    (member :
      constraint ∈ (withDistinct connective operands plan).constraints) :
    connective.leastOperands ≤ operands.toFinset.card := by
  rw [← length_ofList]
  exact (mem_constraints_withDistinct.1 member).1

/-- Nothing is planned for operands that are not accepted. -/
theorem accepts_of_mem_lower
    {constraint : Constraint}
    (member : constraint ∈ (connective.lower operands).constraints) :
    connective.Accepts operands := by
  simp only [Connective.lower] at member
  split at member
  · exact card_of_mem member
  · exact card_of_mem member
  · exact nonempty_of_card (card_of_mem member)
  · exact card_of_mem member
  · exact nonempty_of_card (card_of_mem member)
  · have made := (mem_constraints_withDistinct.1 member).2
    rw [mem_constraints_ofResult] at made
    obtain ⟨_, _, least, greatest, _⟩ :=
      Constraint.cardinality_eq_ok_iff.1 made
    rw [length_ofList] at greatest
    exact ⟨nonempty_of_card (card_of_mem member), least, greatest⟩
  · have made := (mem_constraints_withDistinct.1 member).2
    rw [mem_constraints_ofResult] at made
    obtain ⟨_, _, least, greatest, _⟩ :=
      Constraint.cardinality_eq_ok_iff.1 made
    rw [length_ofList] at greatest
    exact ⟨nonempty_of_card (card_of_mem member), least, greatest⟩
  · rfl
  · rename_i left right
    simp only [sameAs] at member
    split at member
    · cases member
    · rename_i different
      exact ⟨left, right, rfl, different⟩
  · cases member

/--
The plan of such an implication is refused after the negation, which is one
of its operands.
-/
theorem lower_of_denies
    (denies : connective.DeniesCondition operands) :
    ∃ absent cause,
      connective.lower operands = .after absent (.refused cause) ∧
      absent.id ∈ operands := by
  unfold DeniesCondition at denies
  split at denies
  · rename_i condition consequence
    rcases denies with ⟨absent, negated, rfl⟩
    have planned : noneOf [condition] = done absent := by
      have last : (noneOf [condition]).last? = some absent := negated
      rw [noneOf_eq (List.cons_ne_nil _ _)] at last ⊢
      rw [← Option.some.inj last]
    refine ⟨absent, .tooFewOperands .disjunction [absent.id], ?_,
      List.mem_cons_of_mem _ List.mem_cons_self⟩
    show implies condition absent.id = _
    rw [implies, planned]
    exact congrArg (after absent) (someOf_self absent.id)
  · exact denies.elim

/--
A plan has a last constraint exactly if its operands are accepted and differ
from its helpers.
-/
theorem exists_last_iff
    (distinct : IdsDetermine (connective.lower operands).constraints) :
    (∃ last, (connective.lower operands).last? = some last) ↔
      connective.Accepts operands ∧
      ¬ connective.DeniesCondition operands := by
  constructor
  · rintro ⟨last, found⟩
    refine ⟨accepts_of_mem_lower (mem_constraints_of_last? found), ?_⟩
    intro denies
    obtain ⟨absent, cause, planned, _⟩ := lower_of_denies denies
    rw [planned] at found
    cases found
  · rintro ⟨accepts, affirms⟩
    cases connective with
    | conjunction => exact ⟨_, congrArg last? (allOf_eq accepts)⟩
    | disjunction => exact ⟨_, congrArg last? (someOf_eq accepts)⟩
    | negation => exact ⟨_, congrArg last? (noneOf_eq accepts)⟩
    | exactlyOne =>
        simp only [lower, exactlyOneOf_eq accepts] at distinct ⊢
        have different :=
          distinct.id_ne (List.mem_cons_self)
            (List.mem_cons_of_mem _ List.mem_cons_self)
            (by decide : (-1 : Int) ≠ 1)
        rw [Constraint.atLeast,
          Constraint.cardinality_eq_ok_iff.2
            ⟨List.cons_ne_nil _ _, by simpa using different, by decide,
              by simp, rfl⟩]
        exact ⟨_, rfl⟩
    | oneOrNone =>
        have some := card_pos accepts
        have single : (1 : Int) ≤ operands.toFinset.card := by omega
        simp only [lower, withDistinct_eq .oneOrNone some,
          Constraint.atMost,
          cardinality_distinct .greatest accepts (by decide) single]
        exact ⟨_, rfl⟩
    | implication =>
        obtain ⟨condition, consequence, rfl⟩ := List.length_eq_two.1 accepts
        have negated := noneOf_eq (List.cons_ne_nil condition [])
        have different :
            (Constraint.uniform [condition] (-1) 0).id ≠ consequence :=
          fun same =>
            affirms ⟨_, congrArg last? negated, same⟩
        simp only [lower, implies_eq]
        rw [someOf_eq (card_pair different).ge]
        exact ⟨_, rfl⟩
    | equivalence =>
        obtain ⟨left, right, rfl, sides⟩ := accepts
        simp only [lower, sameAs_eq sides] at distinct ⊢
        have different :=
          distinct.id_ne (List.mem_cons_self)
            (List.mem_cons_of_mem _ List.mem_cons_self)
            (by decide : (-2 : Int) ≠ 0)
        rw [someOf_eq (card_pair different).ge]
        exact ⟨_, rfl⟩
    | atLeast count =>
        obtain ⟨nonempty, least, greatest⟩ := accepts
        simp only [lower,
          withDistinct_eq (.atLeast count) (card_pos nonempty),
          Constraint.atLeast,
          cardinality_distinct .least nonempty least greatest]
        exact ⟨_, rfl⟩
    | atMost count =>
        obtain ⟨nonempty, least, greatest⟩ := accepts
        simp only [lower,
          withDistinct_eq (.atMost count) (card_pos nonempty),
          Constraint.atMost,
          cardinality_distinct .greatest nonempty least greatest]
        exact ⟨_, rfl⟩

/-- A refused plan has no helpers but operands. -/
theorem id_mem_of_refused
    (distinct : IdsDetermine (connective.lower operands).constraints)
    (refused : (connective.lower operands).last? = none) :
    ∀ constraint ∈ (connective.lower operands).constraints,
      constraint.id ∈ operands := by
  intro constraint member
  have denies : connective.DeniesCondition operands := by
    by_contra affirms
    obtain ⟨last, found⟩ :=
      (exists_last_iff distinct).2 ⟨accepts_of_mem_lower member, affirms⟩
    rw [refused] at found
    cases found
  obtain ⟨absent, cause, planned, mentioned⟩ := lower_of_denies denies
  rw [planned] at member
  rwa [List.mem_singleton.1 member]

end Connective

namespace Model

/--
A connective is granted exactly if its operands are variables that it
accepts, unless it is the implication of an id to its own negation.  No
primitive has the id of a constraint in its plan, and these constraints are
told apart by their ids.
-/
theorem set_granted_iff
    (steps : List Step)
    (connective : Connective)
    (operands : List String)
    (distinct : IdsDetermine (connective.lower operands).constraints)
    (noPrimitive :
      ∀ constraint ∈ (connective.lower operands).constraints,
        constraint.id ∉ (empty.run steps).primitives) :
    (∃ support grown,
      (empty.run steps).set connective operands = (.ok support, grown)) ↔
      (∀ operand ∈ operands, operand ∈ (empty.run steps).ids) ∧
      connective.Accepts operands ∧
      ¬ connective.DeniesCondition operands := by
  have wellFormed := wellFormed_run_empty steps
  rw [← Connective.exists_last_iff distinct]
  constructor
  · rintro ⟨support, grown, returned⟩
    rcases set_eq_ok returned with ⟨required, carried⟩
    obtain ⟨_, ⟨last, found, _⟩, _⟩ := carryOut_eq_ok carried
    exact ⟨require_eq_ok required, last, found⟩
  · rintro ⟨known, last, found⟩
    obtain ⟨grown, carried⟩ :=
      exists_carryOut wellFormed (fun _ => Connective.wellMade_of_mem_lower)
        (Connective.supplied_lower known) noPrimitive found
    refine ⟨last.id, grown, ?_⟩
    simp only [Model.set, require_of_known wellFormed known, carried]

/-- The implication of an id to the negation of another one is granted. -/
theorem set_granted_other_negation :
    let model := empty.run [.addPrimitives ["a", "b"], .set .negation ["b"]]
    ∃ support grown,
      model.set .implication ["a", (Constraint.uniform ["b"] (-1) 0).id] =
        (.ok support, grown) := by
  have planned : (Connective.implication.lower
      ["a", (Constraint.uniform ["b"] (-1) 0).id]).last? ≠ none := by
    decide +kernel
  refine (set_granted_iff _ _ _ (by decide +kernel) (by decide +kernel)).2
    ⟨by decide +kernel, rfl, fun denies => ?_⟩
  obtain ⟨absent, cause, refused, _⟩ := Connective.lower_of_denies denies
  rw [refused] at planned
  exact planned rfl

/--
The implication of an id to its own negation is refused as a disjunction of
one operand.
-/
theorem set_refuses_own_negation :
    let model := empty.run [.addPrimitives ["a"], .set .negation ["a"]]
    let operands := ["a", (Constraint.uniform ["a"] (-1) 0).id]
    (∀ operand ∈ operands, operand ∈ model.ids) ∧
    Connective.implication.Accepts operands ∧
    (∀ constraint ∈ (Connective.implication.lower operands).constraints,
      constraint.id ∉ model.primitives) ∧
    (model.set .implication operands).1 =
      .error
        (.tooFewOperands .disjunction
          [(Constraint.uniform ["a"] (-1) 0).id]) := by
  refine ⟨by decide +kernel, rfl, by decide +kernel, by decide +kernel⟩

end Model

end Configurator.Logic
