import Configurator.Proofs.Linear.Point
import Configurator.Proofs.Logic.WellFormed

/-!
# Bottom-up evaluation

A constraint agrees with values of the variables if its support is one
exactly where its inequality holds.  In the creation order of the supports
all operands are settled before the support is, so every choice of values
for the primitives has exactly one extension with which all constraints
agree, and `evaluate` computes it.
-/

namespace Configurator.Logic

open Configurator.Collection Configurator.Linear

namespace Constraint

/-- The support says whether the inequality holds. -/
def Agrees (constraint : Constraint) (value : String → Int) : Prop :=
  value constraint.id = 1 ↔ constraint.row.Holds value

instance
    (constraint : Constraint)
    (value : String → Int) :
    Decidable (constraint.Agrees value) :=
  inferInstanceAs (Decidable (_ ↔ _))

/-- Give the support the truth value of the inequality. -/
def settle
    (truth : String → Bool)
    (constraint : Constraint) :
    String → Bool :=
  Function.update truth constraint.id
    (decide (constraint.row.Holds fun id => (truth id).toInt))

/-- Settle constraints one after another. -/
def settleAll
    (constraints : List Constraint)
    (truth : String → Bool) :
    String → Bool :=
  constraints.foldl settle truth

/--
No constraint mentions its own support or a later one, and the supports are
distinct.
-/
def Layered (constraints : List Constraint) : Prop :=
  (∀ constraint ∈ constraints, constraint.id ∉ constraint.operands) ∧
    constraints.Pairwise fun earlier later =>
      later.id ≠ earlier.id ∧ later.id ∉ earlier.operands

variable {constraint : Constraint} {constraints : List Constraint}
  {truth : String → Bool} {left right value : String → Int}

theorem agrees_congr
    (support : left constraint.id = right constraint.id)
    (operands : ∀ id ∈ constraint.operands, left id = right id) :
    constraint.Agrees left ↔ constraint.Agrees right := by
  simp only [Agrees]
  rw [support, Inequality.holds_congr operands]

theorem settleAll_of_notMem
    {id : String}
    (absent : id ∉ constraints.map (·.id)) :
    settleAll constraints truth id = truth id := by
  induction constraints generalizing truth with
  | nil => rfl
  | cons first rest ih =>
      rw [List.map_cons, List.mem_cons, not_or] at absent
      show settleAll rest (settle truth first) id = truth id
      rw [ih absent.2]
      exact Function.update_of_ne absent.1 _ _

theorem toInt_binary
    (verdict : Bool) :
    verdict.toInt = 0 ∨ verdict.toInt = 1 := by
  cases verdict
  · exact Or.inl rfl
  · exact Or.inr rfl

theorem Layered.tail
    {first : Constraint}
    (layered : Layered (first :: constraints)) :
    Layered constraints :=
  ⟨fun constraint member =>
    layered.1 constraint (List.mem_cons_of_mem _ member), layered.2.tail⟩

theorem Layered.id_notMem
    {first : Constraint}
    (layered : Layered (first :: constraints)) :
    first.id ∉ constraints.map (·.id) := by
  intro member
  rcases List.mem_map.1 member with ⟨later, laterMember, same⟩
  exact ((List.pairwise_cons.1 layered.2).1 later laterMember).1 same

theorem Layered.operand_notMem
    {first : Constraint}
    (layered : Layered (first :: constraints))
    {operand : String}
    (mentioned : operand ∈ first.operands) :
    operand ≠ first.id ∧ operand ∉ constraints.map (·.id) := by
  constructor
  · rintro rfl
    exact layered.1 first List.mem_cons_self mentioned
  · intro member
    rcases List.mem_map.1 member with ⟨later, laterMember, rfl⟩
    exact ((List.pairwise_cons.1 layered.2).1 later laterMember).2 mentioned

theorem toInt_eq_one
    (verdict : Bool) :
    verdict.toInt = 1 ↔ verdict = true := by
  cases verdict <;> decide

/-- Layered constraints agree with the values that settling them gives. -/
theorem agrees_settleAll
    (layered : Layered constraints) :
    ∀ constraint ∈ constraints,
      constraint.Agrees fun id =>
        (settleAll constraints truth id).toInt := by
  induction constraints generalizing truth with
  | nil =>
      intro constraint member
      cases member
  | cons first rest ih =>
      intro constraint member
      rcases List.mem_cons.1 member with rfl | later
      · have support : settleAll (constraint :: rest) truth constraint.id =
            decide (constraint.row.Holds fun id => (truth id).toInt) := by
          show settleAll rest (settle truth constraint) constraint.id = _
          rw [settleAll_of_notMem layered.id_notMem]
          exact Function.update_self _ _ _
        have operands :
            ∀ id ∈ constraint.operands,
              (settleAll (constraint :: rest) truth id).toInt =
                (truth id).toInt := by
          intro id mentioned
          rcases layered.operand_notMem mentioned with ⟨different, absent⟩
          rw [settleAll_of_notMem
              (List.not_mem_cons_of_ne_of_not_mem different absent)]
        show (settleAll (constraint :: rest) truth constraint.id).toInt =
            1 ↔
          _
        rw [support, toInt_eq_one, decide_eq_true_iff,
          Inequality.holds_congr operands]
      · exact ih layered.tail constraint later

/--
Values that agree with layered constraints are determined by the other
variables.
-/
theorem eq_of_agrees
    (layered : Layered constraints)
    (leftBinary : ∀ id, left id = 0 ∨ left id = 1)
    (rightBinary : ∀ id, right id = 0 ∨ right id = 1)
    (leftAgrees : ∀ constraint ∈ constraints, constraint.Agrees left)
    (rightAgrees : ∀ constraint ∈ constraints, constraint.Agrees right)
    (others : ∀ id, id ∉ constraints.map (·.id) → left id = right id)
    (id : String) :
    left id = right id := by
  induction constraints with
  | nil => exact others id List.not_mem_nil
  | cons first rest ih =>
      have operands :
          ∀ operand ∈ first.operands, left operand = right operand := by
        intro operand mentioned
        rcases layered.operand_notMem mentioned with ⟨different, absent⟩
        exact others operand
          (List.not_mem_cons_of_ne_of_not_mem different absent)
      have same : left first.id = 1 ↔ right first.id = 1 := by
        have leftHolds := leftAgrees first List.mem_cons_self
        have rightHolds := rightAgrees first List.mem_cons_self
        exact leftHolds.trans
          ((Inequality.holds_congr operands).trans rightHolds.symm)
      apply ih layered.tail
      · intro constraint member
        exact leftAgrees constraint (List.mem_cons_of_mem _ member)
      · intro constraint member
        exact rightAgrees constraint (List.mem_cons_of_mem _ member)
      · intro other absent
        by_cases here : other = first.id
        · subst here
          rcases leftBinary first.id with zero | one
          · rcases rightBinary first.id with otherZero | otherOne
            · rw [zero, otherZero]
            · rw [same.2 otherOne, otherOne]
          · rw [one, same.1 one]
        · exact others other
            (List.not_mem_cons_of_ne_of_not_mem here absent)

end Constraint

namespace Model

/-- The truth values of all variables, given those of the primitives. -/
def evaluate (model : Model) (truth : String → Bool) : String → Bool :=
  Constraint.settleAll model.constraints truth

/-- Every support says whether its constraint holds. -/
def Consistent (model : Model) (value : String → Int) : Prop :=
  ∀ constraint ∈ model.constraints, constraint.Agrees value

instance
    (model : Model)
    (value : String → Int) :
    Decidable (model.Consistent value) :=
  inferInstanceAs
    (Decidable (∀ constraint ∈ model.constraints, constraint.Agrees value))

variable {model : Model}

theorem mem_primitives
    {id : String} :
    id ∈ model.primitives ↔ id ∈ model.ids ∧ id ∉ model.supports := by
  simp only [primitives]
  rw [List.mem_filter, Bool.not_eq_true', ← Bool.not_eq_true, isSupport_iff]
  simp only [supports, List.mem_map]
  exact Iff.rfl

theorem evaluate_of_notMem
    {id : String}
    (absent : id ∉ model.supports)
    (truth : String → Bool) :
    model.evaluate truth id = truth id :=
  Constraint.settleAll_of_notMem absent

namespace WellFormed

theorem layered
    (wellFormed : model.WellFormed) :
    Constraint.Layered model.constraints := by
  constructor
  · intro constraint member
    exact wellFormed.id_notMem_operands member
  · have ordered := List.pairwise_map.1 wellFormed.ordered
    refine List.Pairwise.imp_of_mem ?_ ordered
    intro earlier later earlierMember _ precedes
    refine ⟨precedes.ne.symm, ?_⟩
    intro mentioned
    exact precedes.asymm
      (wellFormed.older earlier earlierMember later.id mentioned)

/-- The values that evaluation computes are consistent. -/
theorem consistent_evaluate
    (wellFormed : model.WellFormed)
    (truth : String → Bool) :
    model.Consistent fun id => (model.evaluate truth id).toInt :=
  Constraint.agrees_settleAll wellFormed.layered

/--
A vertex over the variables is consistent exactly if it is the evaluation of
its primitives.
-/
theorem consistent_iff
    (wellFormed : model.WellFormed)
    {vertex : Vertex model.ids}
    {truth : String → Bool}
    (given : ∀ id ∈ model.primitives, vertex.value id = (truth id).toInt) :
    model.Consistent vertex.value ↔
      vertex = Vertex.ofTruth model.ids (model.evaluate truth) := by
  have evaluated : ∀ id ∈ model.ids,
      (Vertex.ofTruth model.ids (model.evaluate truth)).value id =
        (model.evaluate truth id).toInt :=
    fun id member => Vertex.value_ofTruth member _
  have consistent : model.Consistent
      (Vertex.ofTruth model.ids (model.evaluate truth)).value := by
    intro constraint member
    have support :=
      evaluated _ (wellFormed.supports_known constraint member)
    have operands : ∀ operand ∈ constraint.operands, _ = _ := fun operand
        mentioned =>
      evaluated _ (wellFormed.operand_known member mentioned)
    rw [Constraint.agrees_congr support operands]
    exact wellFormed.consistent_evaluate truth constraint member
  constructor
  · intro agrees
    apply Vertex.ext_value
    intro id _
    apply Constraint.eq_of_agrees wellFormed.layered vertex.value_binary
      (Vertex.value_binary _) agrees consistent
    intro other absent
    by_cases known : other ∈ model.ids
    · rw [given other (mem_primitives.2 ⟨known, absent⟩),
        evaluated other known, evaluate_of_notMem absent]
    · rw [Vertex.value, Vertex.value, entryOf_of_notMem known,
        entryOf_of_notMem known]
  · rintro rfl
    exact consistent

end WellFormed

end Model

end Configurator.Logic
