import Configurator.Proofs.Logic.Acceptance
import Configurator.Proofs.Ruleset.Lowering

/-!
# What refused requests leave behind

A refused request leaves preferences, time bounds, assumptions and
primitives as they are.  All it can leave behind are supports of helper
constraints, and only when the plan of a connective stops at a constraint
after a helper.  The plan of a connective with known operands stops there
only if a primitive has the id of that constraint; otherwise a refused
request changes nothing.
-/

namespace Configurator.Logic

open Configurator.Collection

/-- The constraints of a plan that come after a helper. -/
def Lowering.later : Lowering → List Constraint
  | .after _ rest => rest.constraints
  | _ => []

namespace Model

variable {model : Model}

theorem id_notMem_primitives_of_introduce
    {constraint : Constraint}
    {grown : Model}
    (introduced : model.introduce constraint = .ok grown) :
    constraint.id ∉ model.primitives := by
  intro primitive
  rcases mem_primitives.1 primitive with ⟨known, unsupported⟩
  rcases introduce_eq_ok introduced with
    ⟨⟨stored, member, same⟩, _⟩ | ⟨absent, _⟩
  · exact unsupported (same ▸ List.mem_map_of_mem member)
  · exact absent known

/--
A refused plan for known operands adds nothing if no primitive has one of
its ids.
-/
theorem carryOut_of_refused
    (wellFormed : model.WellFormed)
    {connective : Connective}
    {operands : List String}
    (known : ∀ operand ∈ operands, operand ∈ model.ids)
    (distinct : IdsDetermine (connective.lower operands).constraints)
    (noPrimitive :
      ∀ constraint ∈ (connective.lower operands).constraints,
        constraint.id ∉ model.primitives)
    {cause : Error}
    (refused :
      (model.carryOut (connective.lower operands)).1 = .error cause) :
    (model.carryOut (connective.lower operands)).2 = model := by
  cases found : (connective.lower operands).last? with
  | none =>
      refine carryOut_of_supported fun constraint member => ?_
      have mentioned :=
        Connective.id_mem_of_refused distinct found constraint member
      exact isSupport_of_notMem_primitives (known _ mentioned)
        (noPrimitive constraint member)
  | some last =>
      obtain ⟨grown, carried⟩ :=
        exists_carryOut wellFormed
          (fun _ => Connective.wellMade_of_mem_lower)
          (Connective.supplied_lower known) noPrimitive found
      rw [carried] at refused
      cases refused

/--
A refused connective adds nothing if no primitive has an id that comes after
a helper.
-/
theorem set_of_refused
    (wellFormed : model.WellFormed)
    {connective : Connective}
    {operands : List String}
    (distinct : IdsDetermine (connective.lower operands).constraints)
    (noPrimitive :
      ∀ constraint ∈ (connective.lower operands).later,
        constraint.id ∉ model.primitives)
    (refused : model.Refuses (.set connective operands)) :
    (model.set connective operands).2 = model := by
  obtain ⟨cause, refused⟩ := refused
  simp only [Model.set] at refused ⊢
  cases required : model.require operands with
  | error cause => rfl
  | ok _ =>
      rw [required] at refused
      dsimp only at refused ⊢
      cases planned : connective.lower operands with
      | done constraint =>
          rw [planned] at refused
          simp only [carryOut] at refused ⊢
          split
          · rename_i grown introduced
            rw [introduced] at refused
            cases refused
          · rfl
      | refused cause => rfl
      | after helper rest =>
          cases introduced : model.introduce helper with
          | error cause => simp only [carryOut, introduced]
          | ok grown =>
              rw [← planned]
              refine carryOut_of_refused wellFormed (require_eq_ok required)
                distinct ?_ refused
              rw [planned] at noPrimitive ⊢
              intro constraint member
              rcases List.mem_cons.1 member with rfl | after
              · exact id_notMem_primitives_of_introduce introduced
              · exact noPrimitive constraint after

end Model

end Configurator.Logic

namespace Configurator

open Configurator.Collection Configurator.Logic

namespace Builder

/--
All that has changed from one builder to the other is that supports have
been added.
-/
structure OnlyAddsSupports (builder after : Builder) : Prop where
  /-- Variables and constraints stay in place. -/
  grows : builder.model.GrowsTo after.model
  /-- The new variables are supports. -/
  primitives : after.model.primitives = builder.model.primitives
  /-- The same ids are assumed. -/
  assumed : after.model.assumed = builder.model.assumed
  /-- The same ids are preferred. -/
  preferences : after.preferences = builder.preferences
  /-- The time bounds stay. -/
  bounds : after.bounds = builder.bounds
  /-- The enabled period stays. -/
  enabledPeriod : after.enabledPeriod = builder.enabledPeriod

theorem OnlyAddsSupports.refl
    (builder : Builder) :
    builder.OnlyAddsSupports builder :=
  ⟨Model.GrowsTo.refl _, rfl, rfl, rfl, rfl, rfl⟩

variable {builder : Builder}

theorem onlyAddsSupports_set
    (wellFormed : builder.model.WellFormed)
    (connective : Connective)
    (operands : List String) :
    builder.OnlyAddsSupports
      (builder.apply (.model (.set connective operands))) where
  grows := Model.growsTo_apply builder.model (.set connective operands)
  primitives :=
    (Model.primitives_apply wellFormed (.set connective operands)).trans
      (List.append_nil _)
  assumed := Model.assumed_set builder.model connective operands
  preferences := rfl
  bounds := rfl
  enabledPeriod := rfl

/--
A refused request to a builder adds nothing but supports.  It changes
nothing at all if the constraints in its plan are told apart by their ids
and no primitive has the id of one that comes after a helper.
-/
theorem refused_changes_nothing
    (before : List Step)
    (request : Step)
    (refused : ((ofModel Model.empty).run before).Refuses request) :
    let builder := (ofModel Model.empty).run before
    builder.OnlyAddsSupports (builder.apply request) ∧
    ((∀ plan,
       request.plan? = some plan →
       IdsDetermine plan.constraints ∧
       ∀ constraint ∈ plan.later,
         constraint.id ∉ builder.model.primitives) →
      builder.apply request = builder) := by
  intro builder
  have wellFormed : builder.model.WellFormed :=
    wellFormed_run Model.wellFormed_empty before
  cases planned : request.plan? with
  | none =>
      rw [apply_of_refused planned refused]
      exact ⟨OnlyAddsSupports.refl _, fun _ => rfl⟩
  | some plan =>
      obtain ⟨connective, operands, rfl, rfl⟩ :=
        Step.eq_set_of_plan? planned
      refine ⟨onlyAddsSupports_set wellFormed connective operands,
        fun apart => ?_⟩
      obtain ⟨distinct, noPrimitive⟩ := apart _ rfl
      show { builder with
               model := (builder.model.set connective operands).2 } =
        builder
      rw [Model.set_of_refused wellFormed distinct noPrimitive refused]

/-- An implication is refused after its helper, which is stored already. -/
theorem refused_changes_nothing_negation :
    let builder :=
      (ofModel Model.empty).run
        [.model (.addPrimitives ["a"]), .model (.set .negation ["a"]),
          .prefer ["a"]]
    let request : Step :=
      .model (.set .implication ["a", (Constraint.uniform ["a"] (-1) 0).id])
    builder.Refuses request ∧ builder.apply request = builder := by
  intro builder request
  have refused : builder.Refuses request :=
    ⟨.tooFewOperands .disjunction [(Constraint.uniform ["a"] (-1) 0).id],
      by decide +kernel⟩
  refine ⟨refused, (refused_changes_nothing _ _ refused).2 ?_⟩
  rintro plan found
  cases found
  exact ⟨by decide +kernel, by decide +kernel⟩

/-- A helper stays behind if a primitive has the id of the second helper. -/
theorem refused_leaves_helper :
    let few := Constraint.uniform ["x", "y"] (-1) 1
    let present := Constraint.uniform ["x", "y"] 1 (-1)
    let builder :=
      (ofModel Model.empty).run [.model (.addPrimitives ["x", "y", few.id])]
    let request : Step := .model (.set .exactlyOne ["x", "y"])
    builder.Refuses request ∧
    (builder.apply request).model.ids.toList =
      builder.model.ids.toList ++ [present.id] := by
  intro few present builder request
  exact ⟨⟨.alreadyExists few.id, by decide +kernel⟩, by decide +kernel⟩

end Builder

end Configurator
