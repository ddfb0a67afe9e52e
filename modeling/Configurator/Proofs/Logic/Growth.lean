import Configurator.Proofs.Logic.Evaluation

/-!
# Evaluation while a model grows

Whatever a run adds to a model has a new support, so the variables that the
model had before keep the values to which they are evaluated.
-/

namespace Configurator.Logic

open Configurator.Collection Configurator.Linear

/-! ## Evaluation by what is read -/

namespace Constraint

variable {constraints : List Constraint} {left right : String → Bool}

/--
Settling constraints over some variables depends on the values of these
alone.
-/
theorem settleAll_congr
    {known : String → Prop}
    (operands :
      ∀ constraint ∈ constraints, ∀ operand ∈ constraint.operands,
        known operand)
    (agree : ∀ id, known id → left id = right id)
    {id : String}
    (member : known id) :
    settleAll constraints left id = settleAll constraints right id := by
  induction constraints generalizing left right with
  | nil => exact agree id member
  | cons first rest ih =>
      obtain ⟨firstOperands, restOperands⟩ :=
        List.forall_mem_cons.1 operands
      have same : first.row.Holds (fun id => (left id).toInt) ↔
          first.row.Holds fun id => (right id).toInt :=
        Inequality.holds_congr fun operand mentioned => by
          rw [agree operand (firstOperands operand mentioned)]
      refine ih restOperands fun other otherKnown => ?_
      simp only [settle, same]
      by_cases here : other = first.id
      · rw [here, Function.update_self, Function.update_self]
      · rw [Function.update_of_ne here, Function.update_of_ne here,
          agree other otherKnown]

theorem settleAll_append
    (first second : List Constraint)
    (truth : String → Bool) :
    settleAll (first ++ second) truth =
      settleAll second (settleAll first truth) :=
  List.foldl_append

end Constraint

/-! ## New supports -/

namespace Model

variable {model grown : Model}

/-- The constraints that are added have new supports. -/
def AddsSupports (model grown : Model) : Prop :=
  ∃ added, grown.constraints = model.constraints ++ added ∧
    ∀ constraint ∈ added, constraint.id ∉ model.ids

theorem AddsSupports.of_constraints_eq
    (same : grown.constraints = model.constraints) :
    model.AddsSupports grown :=
  ⟨[], by rw [same, List.append_nil], fun _ member => nomatch member⟩

theorem AddsSupports.trans
    {final : Model}
    (first : model.AddsSupports grown)
    (growth : model.GrowsTo grown)
    (second : grown.AddsSupports final) :
    model.AddsSupports final := by
  rcases first with ⟨early, earlyEq, earlyFresh⟩
  rcases second with ⟨late, lateEq, lateFresh⟩
  refine ⟨early ++ late, by rw [lateEq, earlyEq, List.append_assoc], ?_⟩
  refine List.forall_mem_append.2 ⟨earlyFresh, ?_⟩
  intro constraint member known
  exact lateFresh constraint member
    (OrderedSet.mem_of_extends growth.ids known)

theorem addsSupports_introduce
    {constraint : Constraint}
    (introduced : model.introduce constraint = .ok grown) :
    model.AddsSupports grown := by
  rcases introduce_eq_ok introduced with ⟨_, rfl⟩ | ⟨absent, _, rfl⟩
  · exact .of_constraints_eq rfl
  · exact ⟨[constraint], rfl,
      fun _ member => List.mem_singleton.1 member ▸ absent⟩

theorem addsSupports_carryOut
    (model : Model)
    (plan : Lowering) :
    model.AddsSupports (model.carryOut plan).2 := by
  induction plan generalizing model with
  | done constraint =>
      simp only [carryOut]
      split
      · rename_i grown introduced
        exact addsSupports_introduce introduced
      · exact .of_constraints_eq rfl
  | refused cause => exact .of_constraints_eq rfl
  | after helper rest ih =>
      simp only [carryOut]
      split
      · rename_i grown introduced
        exact (addsSupports_introduce introduced).trans
          (growsTo_introduce introduced) (ih grown)
      · exact .of_constraints_eq rfl

theorem addsSupports_apply
    (model : Model)
    (step : Step) :
    model.AddsSupports (model.apply step) := by
  rcases apply_cases model step with
    same | ⟨names, _, _, _, same, _⟩ |
      ⟨connective, operands, _, _, carried⟩ | ⟨ids, _, _, assumed⟩
  · exact .of_constraints_eq (by rw [same])
  · exact .of_constraints_eq same
  · rw [carried]
    exact addsSupports_carryOut _ _
  · exact .of_constraints_eq (by rw [assumed])

theorem addsSupports_run
    (model : Model)
    (steps : List Step) :
    model.AddsSupports (model.run steps) := by
  induction steps generalizing model with
  | nil => exact .of_constraints_eq rfl
  | cons step rest ih =>
      exact (addsSupports_apply model step).trans (growsTo_apply model step)
        (ih _)

/-- The variables of a model keep their values while supports are added. -/
theorem WellFormed.evaluate_eq
    (wellFormed : model.WellFormed)
    (added : model.AddsSupports grown)
    {left right : String → Bool}
    (agree : ∀ id ∈ model.ids, left id = right id)
    {id : String}
    (known : id ∈ model.ids) :
    grown.evaluate left id = model.evaluate right id := by
  rcases added with ⟨added, same, fresh⟩
  have absent : id ∉ added.map (·.id) := by
    intro member
    rcases List.mem_map.1 member with ⟨constraint, constraintMember, rfl⟩
    exact fresh constraint constraintMember known
  rw [evaluate, same, Constraint.settleAll_append,
    Constraint.settleAll_of_notMem absent]
  exact Constraint.settleAll_congr
    (fun constraint member operand mentioned =>
      wellFormed.operand_known member mentioned) agree known

end Model

end Configurator.Logic
