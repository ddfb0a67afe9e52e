import Configurator.Logic.Model
import Configurator.Proofs.Collection.Precedence
import Configurator.Proofs.Logic.Plan
import Configurator.Proofs.Outcome

/-!
# Runs of a model

A `Step` is a request to a model, and a run is a list of them.  A refused
request leaves behind what the refusal leaves behind, and the run goes on.
A model only grows: variables and constraints stay in place and new ones
come after them.
-/

namespace Configurator.Logic

open Configurator.Collection Configurator.Linear

/-- A request to a model. -/
inductive Model.Step where
  /-- Declare primitives. -/
  | addPrimitives (names : List String)
  /-- Build a connective. -/
  | set (connective : Connective) (operands : List String)
  /-- Assume that ids hold. -/
  | assume (ids : List String)

namespace Model

/-- The model after a request, whether it is granted or refused. -/
def apply (model : Model) : Step → Model
  | .addPrimitives names =>
      match model.addPrimitives names with
      | .ok grown => grown
      | .error _ => model
  | .set connective operands => (model.set connective operands).2
  | .assume ids =>
      match model.assume ids with
      | .ok grown => grown
      | .error _ => model

/-- The model after requests one after another. -/
def run (model : Model) (steps : List Step) : Model :=
  steps.foldl apply model

@[simp]
theorem run_nil (model : Model) : model.run [] = model :=
  rfl

@[simp]
theorem run_cons
    (model : Model)
    (step : Step)
    (rest : List Step) :
    model.run (step :: rest) = (model.apply step).run rest :=
  rfl

theorem run_append
    (model : Model)
    (first second : List Step) :
    model.run (first ++ second) = (model.run first).run second :=
  List.foldl_append

/-! ## What single operations do -/

theorem isSupport_iff
    {model : Model}
    {id : String} :
    model.isSupport id = true ↔
      ∃ constraint ∈ model.constraints, constraint.id = id := by
  simp [isSupport]

/--
A constraint that is introduced has its support already or is new with known
operands.
-/
theorem introduce_eq_ok
    {model grown : Model}
    {constraint : Constraint}
    (introduced : model.introduce constraint = .ok grown) :
    (∃ stored ∈ model.constraints, stored.id = constraint.id) ∧
      grown = model ∨
    constraint.id ∉ model.ids ∧
      (∀ operand ∈ constraint.operands, operand ∈ model.ids) ∧
      grown = { model with
        ids := model.ids.insert constraint.id
        constraints := model.constraints ++ [constraint] } := by
  simp only [introduce] at introduced
  split at introduced
  · rename_i supported
    cases introduced
    exact Or.inl ⟨isSupport_iff.1 supported, rfl⟩
  · split at introduced
    · cases introduced
    · rename_i absent
      split at introduced
      · cases introduced
      · rename_i missing
        cases introduced
        refine Or.inr ⟨absent, ?_, rfl⟩
        intro operand member
        have found := List.find?_eq_none.1 missing operand member
        simpa using found

theorem stored_of_introduce
    {model grown : Model}
    {constraint : Constraint}
    (introduced : model.introduce constraint = .ok grown) :
    ∃ stored ∈ grown.constraints, stored.id = constraint.id := by
  rcases introduce_eq_ok introduced with ⟨stored, rfl⟩ | ⟨_, _, rfl⟩
  · exact stored
  · exact ⟨constraint, List.mem_append_right _ List.mem_cons_self, rfl⟩

private theorem foldlM_declare
    {names : List String}
    {ids grown : OrderedSet String}
    (declared : names.foldlM declare ids = .ok grown) :
    grown.toList = ids.toList ++ names ∧
    ∀ name ∈ names, name ≠ "" ∧ name ∉ ids := by
  induction names generalizing ids with
  | nil =>
      cases declared
      simp
  | cons name rest ih =>
      rw [List.foldlM_cons, bind_eq_ok_iff] at declared
      rcases declared with ⟨next, step, others⟩
      simp only [declare] at step
      split at step
      · cases step
      · rename_i named
        split at step
        · cases step
        · rename_i absent
          cases step
          rcases ih others with ⟨listed, fresh⟩
          constructor
          · rw [listed, OrderedSet.toList_insert, if_neg absent]
            simp
          · intro other member
            rcases List.mem_cons.1 member with rfl | member
            · exact ⟨named, absent⟩
            · refine ⟨(fresh other member).1, ?_⟩
              intro old
              exact (fresh other member).2
                (OrderedSet.mem_insert.2 (Or.inl old))

/--
Primitives that are declared are new, distinct and named, and come last.
-/
theorem addPrimitives_eq_ok
    {model grown : Model}
    {names : List String}
    (declared : model.addPrimitives names = .ok grown) :
    grown.ids.toList = model.ids.toList ++ names ∧
    (∀ name ∈ names, name ≠ "" ∧ name ∉ model.ids) ∧
    grown.constraints = model.constraints ∧
    grown.assumed = model.assumed := by
  simp only [addPrimitives, bind_eq_ok_iff] at declared
  rcases declared with ⟨ids, folded, finished⟩
  cases finished
  rcases foldlM_declare folded with ⟨listed, fresh⟩
  exact ⟨listed, fresh, rfl, rfl⟩

theorem require_eq_ok
    {model : Model}
    {ids : List String}
    (required : model.require ids = .ok ()) :
    ∀ id ∈ ids, id ∈ model.ids := by
  induction ids with
  | nil =>
      intro id member
      cases member
  | cons first rest ih =>
      simp only [require] at required
      split at required
      · cases required
      · split at required
        · rename_i known
          intro id member
          rcases List.mem_cons.1 member with rfl | later
          · exact known
          · exact ih required id later
        · cases required

/-- Ids that are assumed are known, and nothing else changes. -/
theorem assume_eq_ok
    {model grown : Model}
    {ids : List String}
    (assumed : model.assume ids = .ok grown) :
    (∀ id ∈ ids, id ∈ model.ids) ∧
    grown = { model with assumed := model.assumed.append ids } := by
  simp only [Model.assume, bind_eq_ok_iff] at assumed
  rcases assumed with ⟨_, required, finished⟩
  cases finished
  exact ⟨require_eq_ok required, rfl⟩

/--
A request is refused without a trace, declares, carries out a plan, or
assumes.
-/
theorem apply_cases
    (model : Model)
    (step : Step) :
    model.apply step = model ∨
    (∃ names,
      step = .addPrimitives names ∧
      (model.apply step).ids.toList = model.ids.toList ++ names ∧
      (∀ name ∈ names, name ≠ "" ∧ name ∉ model.ids) ∧
      (model.apply step).constraints = model.constraints ∧
      (model.apply step).assumed = model.assumed) ∨
    (∃ connective operands,
      step = .set connective operands ∧
      model.require operands = .ok () ∧
      model.apply step = (model.carryOut (connective.lower operands)).2) ∨
    (∃ ids,
      step = .assume ids ∧
      (∀ id ∈ ids, id ∈ model.ids) ∧
      model.apply step =
        { model with assumed := model.assumed.append ids }) := by
  cases step with
  | addPrimitives names =>
      cases declared : model.addPrimitives names with
      | error cause => exact Or.inl (by simp only [apply, declared])
      | ok grown =>
          rcases addPrimitives_eq_ok declared with
            ⟨listed, fresh, sameConstraints, sameAssumed⟩
          refine Or.inr (Or.inl ⟨names, rfl, ?_⟩)
          simp only [apply, declared]
          exact ⟨listed, fresh, sameConstraints, sameAssumed⟩
  | set connective operands =>
      cases required : model.require operands with
      | error cause =>
          exact Or.inl (by simp only [apply, Model.set, required])
      | ok _ =>
          refine Or.inr
            (Or.inr (Or.inl ⟨connective, operands, rfl, required, ?_⟩))
          simp only [apply, Model.set, required]
  | assume ids =>
      cases assumed : model.assume ids with
      | error cause => exact Or.inl (by simp only [apply, assumed])
      | ok grown =>
          rcases assume_eq_ok assumed with ⟨known, rfl⟩
          refine Or.inr (Or.inr (Or.inr ⟨ids, rfl, known, ?_⟩))
          simp only [apply, assumed]

/-! ## Growth -/

/--
Variables and constraints stay in place, and new ones come after them.
-/
structure GrowsTo (model grown : Model) : Prop where
  /-- The variables are the first ones. -/
  ids : model.ids.toList <+: grown.ids.toList
  /-- The constraints are the first ones. -/
  constraints : model.constraints <+: grown.constraints

theorem GrowsTo.refl (model : Model) : model.GrowsTo model :=
  ⟨List.prefix_rfl, List.prefix_rfl⟩

theorem GrowsTo.trans
    {first second third : Model}
    (early : first.GrowsTo second)
    (late : second.GrowsTo third) :
    first.GrowsTo third :=
  ⟨early.ids.trans late.ids, early.constraints.trans late.constraints⟩

theorem growsTo_introduce
    {model grown : Model}
    {constraint : Constraint}
    (introduced : model.introduce constraint = .ok grown) :
    model.GrowsTo grown := by
  rcases introduce_eq_ok introduced with ⟨_, rfl⟩ | ⟨_, _, rfl⟩
  · exact GrowsTo.refl _
  · exact ⟨OrderedSet.extends_insert _ _, List.prefix_append _ _⟩

theorem growsTo_carryOut
    (model : Model)
    (plan : Lowering) :
    model.GrowsTo (model.carryOut plan).2 := by
  induction plan generalizing model with
  | done constraint =>
      simp only [carryOut]
      split
      · rename_i grown introduced
        exact growsTo_introduce introduced
      · exact GrowsTo.refl _
  | refused cause => exact GrowsTo.refl _
  | after helper rest ih =>
      simp only [carryOut]
      split
      · rename_i grown introduced
        exact (growsTo_introduce introduced).trans (ih grown)
      · exact GrowsTo.refl _

theorem growsTo_apply
    (model : Model)
    (step : Step) :
    model.GrowsTo (model.apply step) := by
  rcases apply_cases model step with
    same | ⟨names, _, listed, _, same, _⟩ |
      ⟨connective, operands, _, _, carried⟩ | ⟨ids, _, _, assumed⟩
  · rw [same]
    exact GrowsTo.refl _
  · constructor
    · rw [listed]
      exact List.prefix_append _ _
    · exact same ▸ List.prefix_rfl
  · rw [carried]
    exact growsTo_carryOut _ _
  · rw [assumed]
    exact ⟨List.prefix_rfl, List.prefix_rfl⟩

theorem growsTo_run
    (model : Model)
    (steps : List Step) :
    model.GrowsTo (model.run steps) := by
  induction steps generalizing model with
  | nil => exact GrowsTo.refl _
  | cons step rest ih => exact (growsTo_apply model step).trans (ih _)

theorem GrowsTo.of_run
    {model final : Model}
    {steps : List Step}
    (growth : (model.run steps).GrowsTo final) :
    model.GrowsTo final :=
  (growsTo_run model steps).trans growth

/-! ## Constraints that a run constructs -/

/-- The constraints that are constructed while a plan is carried out. -/
def tried (model : Model) : Lowering → List Constraint
  | .done constraint => [constraint]
  | .refused _ => []
  | .after helper rest =>
      helper ::
        match model.introduce helper with
        | .ok grown => grown.tried rest
        | .error _ => []

/-- The constraints that a request constructs. -/
def constructedBy (model : Model) : Step → List Constraint
  | .set connective operands =>
      match model.require operands with
      | .error _ => []
      | .ok () => model.tried (connective.lower operands)
  | _ => []

/-- The constraints that requests one after another construct. -/
def constructed (model : Model) : List Step → List Constraint
  | [] => []
  | step :: rest =>
      model.constructedBy step ++ (model.apply step).constructed rest

theorem constructed_append
    (model : Model)
    (first second : List Step) :
    model.constructed (first ++ second) =
      model.constructed first ++ (model.run first).constructed second := by
  induction first generalizing model with
  | nil => rfl
  | cons step rest ih => simp [constructed, ih, List.append_assoc]

theorem carryOut_eq_ok
    {model grown : Model}
    {plan : Lowering}
    {support : String}
    (carried : model.carryOut plan = (.ok support, grown)) :
    model.tried plan = plan.constraints ∧
    (∃ last, plan.last? = some last ∧ last.id = support) ∧
    ∀ constraint ∈ plan.constraints, ∃ stored ∈ grown.constraints,
      stored.id = constraint.id := by
  induction plan generalizing model with
  | done constraint =>
      simp only [carryOut] at carried
      split at carried
      · rename_i next introduced
        cases carried
        refine ⟨rfl, ⟨constraint, rfl, rfl⟩, ?_⟩
        intro other member
        rw [List.mem_singleton.1 member]
        exact stored_of_introduce introduced
      · cases carried
  | refused cause => cases carried
  | after helper rest ih =>
      simp only [carryOut] at carried
      split at carried
      · rename_i next introduced
        rcases ih carried with ⟨triedEq, last, stored⟩
        refine ⟨?_, last, ?_⟩
        · simp only [tried, introduced, triedEq, Lowering.constraints]
        · intro other member
          rcases List.mem_cons.1 member with rfl | later
          · rcases stored_of_introduce introduced with
              ⟨early, earlyMember, same⟩
            have growth := growsTo_carryOut next rest
            rw [carried] at growth
            exact ⟨early, growth.constraints.subset earlyMember, same⟩
          · exact stored other later
      · cases carried

/-- Whatever a run stores it has constructed or stored before. -/
theorem constraints_introduce
    {model grown : Model}
    {constraint : Constraint}
    (introduced : model.introduce constraint = .ok grown) :
    ∀ stored ∈ grown.constraints,
      stored ∈ model.constraints ∨ stored = constraint := by
  intro stored member
  rcases introduce_eq_ok introduced with ⟨_, rfl⟩ | ⟨_, _, rfl⟩
  · exact Or.inl member
  · rcases List.mem_append.1 member with old | new
    · exact Or.inl old
    · exact Or.inr (List.mem_singleton.1 new)

theorem constraints_carryOut
    {model : Model}
    {plan : Lowering}
    {stored : Constraint}
    (member : stored ∈ (model.carryOut plan).2.constraints) :
    stored ∈ model.constraints ∨ stored ∈ model.tried plan := by
  induction plan generalizing model with
  | done constraint =>
      simp only [carryOut] at member
      split at member
      · rename_i grown introduced
        rcases constraints_introduce introduced stored member with old | rfl
        · exact Or.inl old
        · exact Or.inr List.mem_cons_self
      · exact Or.inl member
  | refused cause => exact Or.inl member
  | after helper rest ih =>
      simp only [carryOut] at member
      split at member
      · rename_i grown introduced
        rcases ih member with early | late
        · rcases constraints_introduce introduced stored early with
            old | rfl
          · exact Or.inl old
          · exact Or.inr List.mem_cons_self
        · refine Or.inr (List.mem_cons_of_mem _ ?_)
          simpa only [introduced] using late
      · exact Or.inl member

theorem constraints_apply
    {model : Model}
    {step : Step}
    {stored : Constraint}
    (member : stored ∈ (model.apply step).constraints) :
    stored ∈ model.constraints ∨ stored ∈ model.constructedBy step := by
  rcases apply_cases model step with
    same | ⟨names, _, _, _, same, _⟩ |
      ⟨connective, operands, rfl, required, carried⟩ | ⟨ids, _, _, assumed⟩
  · rw [same] at member
    exact Or.inl member
  · rw [same] at member
    exact Or.inl member
  · rw [carried] at member
    simp only [constructedBy, required]
    exact constraints_carryOut member
  · rw [assumed] at member
    exact Or.inl member

theorem constraints_run
    {model : Model}
    {steps : List Step}
    {stored : Constraint}
    (member : stored ∈ (model.run steps).constraints) :
    stored ∈ model.constraints ∨ stored ∈ model.constructed steps := by
  induction steps generalizing model with
  | nil => exact Or.inl member
  | cons step rest ih =>
      rcases ih member with early | late
      · rcases constraints_apply early with old | new
        · exact Or.inl old
        · exact Or.inr (List.mem_append_left _ new)
      · exact Or.inr (List.mem_append_right _ late)

end Model

end Configurator.Logic
