import Configurator.Proofs.Logic.WellFormed

/-!
# Primitives of a run

The variables of a model are the names that have been declared and the
supports that plans have introduced.  Introducing constraints leaves the
primitives as they are, so after a run the primitives are the names of the
declarations that were granted, in the order of the requests.
-/

namespace Configurator.Logic.Model

open Configurator.Collection

variable {model grown : Model}

/-! ## Supports are no primitives -/

theorem isSupport_append
    {constraint : Constraint}
    {id : String}
    (ids assumed : OrderedSet String) :
    (Model.mk ids (model.constraints ++ [constraint]) assumed).isSupport
        id =
      (model.isSupport id || decide (constraint.id = id)) := by
  simp [isSupport]

/-- A support that is introduced is new, so the primitives stay. -/
theorem primitives_introduce
    {constraint : Constraint}
    (introduced : model.introduce constraint = .ok grown) :
    grown.primitives = model.primitives := by
  rcases introduce_eq_ok introduced with ⟨_, rfl⟩ | ⟨absent, _, rfl⟩
  · rfl
  · have kept :
        ∀ id ∈ model.ids.toList,
          (!(model.isSupport id || decide (constraint.id = id))) =
            !model.isSupport id := by
      intro id known
      have different : constraint.id ≠ id :=
        fun same => absent (same ▸ known)
      rw [decide_eq_false different, Bool.or_false]
    simp only [primitives, isSupport_append]
    rw [OrderedSet.toList_insert, if_neg absent, List.filter_append,
      List.filter_congr kept]
    simp

theorem primitives_carryOut
    (model : Model)
    (plan : Lowering) :
    (model.carryOut plan).2.primitives = model.primitives := by
  induction plan generalizing model with
  | done constraint =>
      simp only [carryOut]
      split
      · rename_i grown introduced
        exact primitives_introduce introduced
      · rfl
  | refused cause => rfl
  | after helper rest ih =>
      simp only [carryOut]
      split
      · rename_i grown introduced
        rw [ih, primitives_introduce introduced]
      · rfl

/-! ## Declared names -/

/-- The names that a request declares. -/
def declaredBy (model : Model) : Step → List String
  | .addPrimitives names =>
      match model.addPrimitives names with
      | .ok _ => names
      | .error _ => []
  | _ => []

/-- The names that requests one after another declare. -/
def declared (model : Model) : List Step → List String
  | [] => []
  | step :: rest =>
      model.declaredBy step ++ (model.apply step).declared rest

/-- Names that are declared are no supports, which are older variables. -/
theorem primitives_addPrimitives
    (wellFormed : model.WellFormed)
    {names : List String}
    (declared : model.addPrimitives names = .ok grown) :
    grown.primitives = model.primitives ++ names := by
  rcases addPrimitives_eq_ok declared with
    ⟨listed, fresh, sameConstraints, _⟩
  have same : grown.isSupport = model.isSupport := by
    funext id
    simp only [isSupport, sameConstraints]
  have unsupported : ∀ name ∈ names, (!model.isSupport name) = true := by
    intro name member
    rw [Bool.not_eq_true', Bool.eq_false_iff]
    intro supported
    rcases isSupport_iff.1 supported with ⟨constraint, stored, rfl⟩
    exact (fresh _ member).2 (wellFormed.supports_known constraint stored)
  simp only [primitives, same]
  rw [listed, List.filter_append, List.filter_eq_self.2 unsupported]

theorem primitives_apply
    (wellFormed : model.WellFormed)
    (step : Step) :
    (model.apply step).primitives =
      model.primitives ++ model.declaredBy step := by
  cases step with
  | addPrimitives names =>
      cases declared : model.addPrimitives names with
      | error cause =>
          simp only [apply, declaredBy, declared, List.append_nil]
      | ok grown =>
          simp only [apply, declaredBy, declared]
          exact primitives_addPrimitives wellFormed declared
  | set connective operands =>
      simp only [apply, declaredBy, Model.set, List.append_nil]
      split
      · rfl
      · exact primitives_carryOut _ _
  | assume ids =>
      simp only [apply, declaredBy, List.append_nil]
      split
      · rename_i grown assumed
        rw [(assume_eq_ok assumed).2]
        rfl
      · rfl

/--
The primitives after a run are the old ones and then the names that it has
declared.
-/
theorem primitives_run
    (wellFormed : model.WellFormed)
    (steps : List Step) :
    (model.run steps).primitives =
      model.primitives ++ model.declared steps := by
  induction steps generalizing model with
  | nil => exact (List.append_nil _).symm
  | cons step rest ih =>
      rw [run_cons, ih (wellFormed.apply step), primitives_apply wellFormed,
        declared, List.append_assoc]

end Configurator.Logic.Model
