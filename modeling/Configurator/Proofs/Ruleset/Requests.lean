import Configurator.Proofs.Logic.Run
import Configurator.Ruleset.Builder

/-!
# Requests to a builder

A `Builder.Step` is a request to a builder.  A request that is refused
changes nothing, except that a connective can leave helper constraints in
the model.  What a builder assumes, prefers, binds to periods and enables
after a run is therefore what the granted requests of the run ask for, in
their order.
-/

namespace Configurator.Logic

open Configurator.Collection

namespace Model

/-! ## Requests to a model -/

theorem assumed_introduce
    {model grown : Model}
    {constraint : Constraint}
    (introduced : model.introduce constraint = .ok grown) :
    grown.assumed = model.assumed := by
  rcases introduce_eq_ok introduced with ⟨_, rfl⟩ | ⟨_, _, rfl⟩
  · rfl
  · rfl

theorem assumed_carryOut
    (model : Model)
    (plan : Lowering) :
    (model.carryOut plan).2.assumed = model.assumed := by
  induction plan generalizing model with
  | done constraint =>
      simp only [carryOut]
      split
      · rename_i grown introduced
        exact assumed_introduce introduced
      · rfl
  | refused cause => rfl
  | after helper rest ih =>
      simp only [carryOut]
      split
      · rename_i grown introduced
        rw [ih, assumed_introduce introduced]
      · rfl

/-- A connective assumes nothing, whether it is granted or refused. -/
theorem assumed_set
    (model : Model)
    (connective : Connective)
    (operands : List String) :
    (model.set connective operands).2.assumed = model.assumed := by
  simp only [Model.set]
  split
  · rfl
  · exact assumed_carryOut _ _

theorem assume_eq_run
    {model grown : Model}
    {ids : List String}
    (assumed : model.assume ids = .ok grown) :
    grown = model.run [.assume ids] ∧
    grown.assumed = model.assumed.append ids := by
  constructor
  · simp only [run_cons, run_nil, apply, assumed]
  · rw [(assume_eq_ok assumed).2]

theorem addPrimitives_eq_run
    {model grown : Model}
    {names : List String}
    (declared : model.addPrimitives names = .ok grown) :
    grown = model.run [.addPrimitives names] := by
  simp only [run_cons, run_nil, apply, declared]

/-- The request is refused. -/
def Refuses (model : Model) : Step → Prop
  | .addPrimitives names =>
      ∃ cause, model.addPrimitives names = .error cause
  | .set connective operands =>
      ∃ cause, (model.set connective operands).1 = .error cause
  | .assume ids => ∃ cause, model.assume ids = .error cause

instance (model : Model) (step : Step) : Decidable (model.Refuses step) :=
  match step with
  | .addPrimitives names =>
      decidableFailed (model.addPrimitives names)
  | .set connective operands =>
      decidableFailed (model.set connective operands).1
  | .assume ids => decidableFailed (model.assume ids)

theorem assumed_assume
    {model : Model}
    {ids : List String}
    (granted : ¬ model.Refuses (.assume ids)) :
    (model.apply (.assume ids)).assumed = model.assumed.append ids := by
  obtain ⟨grown, assumed⟩ := exists_ok_of_not_failed granted
  simp only [apply, assumed]
  exact (assume_eq_run assumed).2

end Model

end Configurator.Logic

namespace Configurator

open Configurator.Calendar Configurator.Collection Configurator.Logic
  Configurator.Schedule

/-- A request to a builder. -/
inductive Builder.Step where
  /-- A request to the model of the builder. -/
  | model (step : Model.Step)
  /-- Prefer ids. -/
  | prefer (ids : List String)
  /-- Assume ids. -/
  | assume (ids : List String)
  /-- Require an id during a period. -/
  | assumeInPeriod (id : String) (period : Period)
  /-- Enable a period. -/
  | enablePeriod (period : Period)

namespace Builder

/-- The outcome of a request that changes nothing if it is refused. -/
def orUnchanged (builder : Builder) : Except Error Builder → Builder
  | .ok changed => changed
  | .error _ => builder

/-- The builder after a request, whether it is granted or refused. -/
def apply (builder : Builder) : Step → Builder
  | .model step => { builder with model := builder.model.apply step }
  | .prefer ids => builder.orUnchanged (builder.prefer ids)
  | .assume ids => builder.orUnchanged (builder.assume ids)
  | .assumeInPeriod id period =>
      builder.orUnchanged (builder.assumeInPeriod id period)
  | .enablePeriod period =>
      builder.orUnchanged (builder.enablePeriod period)

/-- The builder after requests one after another. -/
def run (builder : Builder) (steps : List Step) : Builder :=
  steps.foldl apply builder

/-- The request is refused. -/
def Refuses (builder : Builder) : Step → Prop
  | .model request => builder.model.Refuses request
  | .prefer ids => ∃ cause, builder.prefer ids = .error cause
  | .assume ids => ∃ cause, builder.assume ids = .error cause
  | .assumeInPeriod id period =>
      ∃ cause, builder.assumeInPeriod id period = .error cause
  | .enablePeriod period =>
      ∃ cause, builder.enablePeriod period = .error cause

instance
    (builder : Builder)
    (step : Step) :
    Decidable (builder.Refuses step) :=
  match step with
  | .model request =>
      inferInstanceAs (Decidable (builder.model.Refuses request))
  | .prefer ids => decidableFailed (builder.prefer ids)
  | .assume ids => decidableFailed (builder.assume ids)
  | .assumeInPeriod id period =>
      decidableFailed (builder.assumeInPeriod id period)
  | .enablePeriod period =>
      decidableFailed (builder.enablePeriod period)

/-- The plan of a request, which is none but for connectives. -/
def Step.plan? : Step → Option Lowering
  | .model (.set connective operands) => some (connective.lower operands)
  | _ => none

theorem Step.eq_set_of_plan?
    {request : Step}
    {plan : Lowering}
    (planned : request.plan? = some plan) :
    ∃ connective operands,
      request = .model (.set connective operands) ∧
      plan = connective.lower operands := by
  unfold Step.plan? at planned
  split at planned
  · cases planned
    exact ⟨_, _, rfl, rfl⟩
  · cases planned

variable {builder : Builder} {ids : List String} {id : String}
  {period : Period}

/-! ## What single requests change -/

/-- Requests without a plan check everything before they change anything. -/
theorem apply_of_refused
    {request : Step}
    (planless : request.plan? = none)
    (refused : builder.Refuses request) :
    builder.apply request = builder := by
  cases request with
  | model request =>
      cases request with
      | addPrimitives names =>
          obtain ⟨cause, refused⟩ := refused
          simp only [apply, Model.apply, refused]
      | set connective operands => cases planless
      | assume ids =>
          obtain ⟨cause, refused⟩ := refused
          simp only [apply, Model.apply, refused]
  | prefer ids =>
      obtain ⟨cause, refused⟩ := refused
      simp only [apply, orUnchanged, refused]
  | assume ids =>
      obtain ⟨cause, refused⟩ := refused
      simp only [apply, orUnchanged, refused]
  | assumeInPeriod id period =>
      obtain ⟨cause, refused⟩ := refused
      simp only [apply, orUnchanged, refused]
  | enablePeriod period =>
      obtain ⟨cause, refused⟩ := refused
      simp only [apply, orUnchanged, refused]

theorem apply_prefer
    (granted : ¬ builder.Refuses (.prefer ids)) :
    builder.apply (.prefer ids) =
      { builder with preferences := builder.preferences.append ids } := by
  obtain ⟨changed, computed⟩ := exists_ok_of_not_failed granted
  simp only [apply, orUnchanged, computed]
  simp only [prefer, bind_eq_ok_iff] at computed
  obtain ⟨_, _, finished⟩ := computed
  cases finished
  rfl

/-- To assume ids of a builder is to assume them in its model. -/
theorem apply_assume
    (builder : Builder)
    (ids : List String) :
    builder.apply (.assume ids) = builder.apply (.model (.assume ids)) := by
  cases computed : builder.model.assume ids with
  | error cause =>
      have refused : builder.assume ids = .error cause := by
        simp only [assume, computed]
        rfl
      simp only [apply, orUnchanged, Model.apply, refused, computed]
  | ok model =>
      have granted :
          builder.assume ids = .ok { builder with model := model } := by
        simp only [assume, computed]
        rfl
      simp only [apply, orUnchanged, Model.apply, granted, computed]

theorem refuses_assume_iff :
    builder.Refuses (.assume ids) ↔
      builder.Refuses (.model (.assume ids)) := by
  simp only [Refuses, Model.Refuses, assume]
  cases builder.model.assume ids with
  | error cause => exact iff_of_true ⟨cause, rfl⟩ ⟨cause, rfl⟩
  | ok model =>
      apply iff_of_false
      · rintro ⟨_, impossible⟩
        cases impossible
      · rintro ⟨_, impossible⟩
        cases impossible

/--
What is bound to a period is a variable, and the enabled period covers the
period.
-/
theorem apply_assumeInPeriod
    (granted : ¬ builder.Refuses (.assumeInPeriod id period)) :
    id ∈ builder.model.ids ∧
    (∀ enabled ∈ builder.enabledPeriod, enabled.Covers period) ∧
    builder.apply (.assumeInPeriod id period) =
      { builder with bounds := builder.bounds ++ [⟨id, period⟩] } := by
  obtain ⟨changed, computed⟩ := exists_ok_of_not_failed granted
  simp only [apply, orUnchanged, computed]
  simp only [assumeInPeriod, bind_eq_ok_iff] at computed
  obtain ⟨_, required, computed⟩ := computed
  refine ⟨Model.require_eq_ok required id (List.mem_singleton_self id), ?_⟩
  split at computed
  · rename_i enabled present
    split at computed
    · cases computed
    · rename_i covers
      cases computed
      refine ⟨?_, rfl⟩
      rw [present]
      rintro _ ⟨⟩
      exact Decidable.not_not.1 covers
  · rename_i absent
    cases computed
    rw [absent]
    exact ⟨fun _ member => absurd member (Option.not_mem_none _), rfl⟩

/-- A period that is enabled covers everything that is bound to a period. -/
theorem apply_enablePeriod
    (granted : ¬ builder.Refuses (.enablePeriod period)) :
    (∀ bound ∈ builder.bounds, period.Covers bound.period) ∧
    builder.apply (.enablePeriod period) =
      { builder with enabledPeriod := some period } := by
  obtain ⟨changed, computed⟩ := exists_ok_of_not_failed granted
  simp only [apply, orUnchanged, computed]
  simp only [enablePeriod] at computed
  split at computed
  · cases computed
  · rename_i none
    cases computed
    refine ⟨fun bound member => ?_, rfl⟩
    exact Decidable.not_not.1 fun outside =>
      List.find?_eq_none.1 none bound member (decide_eq_true outside)

/-! ## Requests to the model of a builder -/

/-- What a request to a builder asks of its model. -/
def Step.modelSteps : Step → List Model.Step
  | .model step => [step]
  | .assume ids => [.assume ids]
  | _ => []

/--
A request to a builder changes its model by what it asks of the model.
-/
theorem model_apply
    (builder : Builder)
    (step : Step) :
    (builder.apply step).model = builder.model.run step.modelSteps := by
  cases step with
  | model request => rfl
  | assume ids => rw [apply_assume]; rfl
  | prefer ids =>
      by_cases refused : builder.Refuses (.prefer ids)
      · rw [apply_of_refused rfl refused]
        rfl
      · rw [apply_prefer refused]
        rfl
  | assumeInPeriod id period =>
      by_cases refused : builder.Refuses (.assumeInPeriod id period)
      · rw [apply_of_refused rfl refused]
        rfl
      · rw [(apply_assumeInPeriod refused).2.2]
        rfl
  | enablePeriod period =>
      by_cases refused : builder.Refuses (.enablePeriod period)
      · rw [apply_of_refused rfl refused]
        rfl
      · rw [(apply_enablePeriod refused).2]
        rfl

/--
The requests to a builder change its model by what they ask of the model.
-/
theorem model_run
    (builder : Builder)
    (steps : List Step) :
    (builder.run steps).model =
      builder.model.run (steps.flatMap Step.modelSteps) := by
  induction steps generalizing builder with
  | nil => rfl
  | cons step rest ih =>
      rw [List.flatMap_cons, Model.run_append, ← model_apply]
      exact ih _

/-! ## Granted requests -/

/-- The request, if it is granted. -/
def grantedBy (builder : Builder) (step : Step) : List Step :=
  if builder.Refuses step then [] else [step]

/-- The granted ones of requests that are made one after another. -/
def granted (builder : Builder) : List Step → List Step
  | [] => []
  | step :: rest =>
      builder.grantedBy step ++ (builder.apply step).granted rest

/-- The ids that a request asks to assume. -/
def Step.assumedIds : Step → List String
  | .model (.assume ids) => ids
  | .assume ids => ids
  | _ => []

/-- The ids that a request asks to prefer. -/
def Step.preferredIds : Step → List String
  | .prefer ids => ids
  | _ => []

/-- The time bound that a request asks for. -/
def Step.bound? : Step → Option TimeBound
  | .assumeInPeriod id period => some ⟨id, period⟩
  | _ => none

/-- The period that a request asks to enable. -/
def Step.enabled? : Step → Option Period
  | .enablePeriod period => some period
  | _ => none

/-- What a builder has beside another one is what requests ask for. -/
structure Records
    (builder : Builder)
    (requests : List Step)
    (after : Builder) :
    Prop where
  /-- The ids that are asked for are assumed as well. -/
  assumed : after.model.assumed =
    builder.model.assumed.append (requests.flatMap Step.assumedIds)
  /-- The ids that are asked for are preferred as well. -/
  preferences : after.preferences =
    builder.preferences.append (requests.flatMap Step.preferredIds)
  /-- The time bounds come after those that were there. -/
  bounds : after.bounds = builder.bounds ++ requests.filterMap Step.bound?
  /-- The last period that is asked for is enabled. -/
  enabledPeriod : after.enabledPeriod =
    (requests.filterMap Step.enabled?).getLast?.or builder.enabledPeriod

theorem Records.refl (builder : Builder) : builder.Records [] builder :=
  ⟨rfl, rfl, (List.append_nil _).symm, rfl⟩

theorem Records.trans
    {first second third : Builder}
    {earlier later : List Step}
    (before : first.Records earlier second)
    (after : second.Records later third) :
    first.Records (earlier ++ later) third where
  assumed := by
    rw [after.assumed, before.assumed, List.flatMap_append]
    exact List.foldl_append.symm
  preferences := by
    rw [after.preferences, before.preferences, List.flatMap_append]
    exact List.foldl_append.symm
  bounds := by
    rw [after.bounds, before.bounds, List.filterMap_append,
      List.append_assoc]
  enabledPeriod := by
    rw [after.enabledPeriod, before.enabledPeriod, List.filterMap_append,
      List.getLast?_append, Option.or_assoc]

/-- After a request there is what it asks for, if it is granted. -/
theorem records_apply
    (builder : Builder)
    (step : Step) :
    builder.Records (builder.grantedBy step) (builder.apply step) := by
  by_cases refused : builder.Refuses step
  · rw [grantedBy, if_pos refused]
    cases planned : step.plan? with
    | none =>
        rw [apply_of_refused planned refused]
        exact Records.refl builder
    | some plan =>
        obtain ⟨connective, operands, rfl, _⟩ :=
          Step.eq_set_of_plan? planned
        exact { Records.refl builder with
          assumed := Model.assumed_set builder.model connective operands }
  · rw [grantedBy, if_neg refused]
    cases step with
    | model request =>
        refine { Records.refl builder with assumed := ?_ }
        cases request with
        | addPrimitives names =>
            obtain ⟨grown, declared⟩ := exists_ok_of_not_failed refused
            simp only [apply, Model.apply, declared]
            exact (Model.addPrimitives_eq_ok declared).2.2.2
        | set connective operands =>
            exact Model.assumed_set builder.model connective operands
        | assume ids =>
            rw [List.flatMap_singleton]
            exact Model.assumed_assume refused
    | assume ids =>
        rw [apply_assume]
        rw [refuses_assume_iff] at refused
        refine { Records.refl builder with assumed := ?_ }
        rw [List.flatMap_singleton]
        exact Model.assumed_assume refused
    | prefer ids =>
        rw [apply_prefer refused]
        refine { Records.refl builder with preferences := ?_ }
        rw [List.flatMap_singleton]
        rfl
    | assumeInPeriod id period =>
        rw [(apply_assumeInPeriod refused).2.2]
        exact { Records.refl builder with bounds := rfl }
    | enablePeriod period =>
        rw [(apply_enablePeriod refused).2]
        exact { Records.refl builder with enabledPeriod := rfl }

/-- After a run there is what its granted requests ask for. -/
theorem records_run
    (builder : Builder)
    (steps : List Step) :
    builder.Records (builder.granted steps) (builder.run steps) := by
  induction steps generalizing builder with
  | nil => exact Records.refl builder
  | cons step rest ih => exact (records_apply builder step).trans (ih _)

end Builder

end Configurator
