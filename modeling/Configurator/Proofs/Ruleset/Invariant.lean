import Configurator.Proofs.Logic.Primitives
import Configurator.Proofs.Ruleset.Pinning

/-!
# The invariant of models

What holds of every model that requests lead to, of every model on the way
of a lowering, and of the lowered model: names, order and shape of the
constraints as for well-formed models, and primitives that are exactly the
declared names.  The operands of a support have smaller positions than the
support, so no variable depends on itself.
-/

namespace Configurator.Logic.Model

open Configurator.Collection

/-- The support is the one of a constraint that mentions the operand. -/
def DependsOn (model : Model) (operand support : String) : Prop :=
  ∃ constraint ∈ model.constraints,
    constraint.id = support ∧ operand ∈ constraint.operands

/--
The model is well formed, and its primitives are the declared names in their
order.
-/
structure Invariant
    (model : Model)
    (declared : List String) :
    Prop extends model.WellFormed where
  /-- The variables are pairwise distinct. -/
  distinct : model.ids.toList.Nodup
  /-- Every constraint is stored under its own id. -/
  stored :
    ∀ constraint ∈ model.constraints,
      model.constraint? constraint.id = some constraint
  /-- No variable depends on itself. -/
  acyclic : ∀ id, ¬ Relation.TransGen model.DependsOn id id
  /-- The variables that are no supports have been declared. -/
  primitives_eq : model.primitives = declared

namespace WellFormed

variable {model : Model}

/-- Constraints have ids of their own, so looking one up finds it. -/
theorem constraint?_eq
    (wellFormed : model.WellFormed)
    {constraint : Constraint}
    (member : constraint ∈ model.constraints) :
    model.constraint? constraint.id = some constraint := by
  cases found : model.constraint? constraint.id with
  | none =>
      have missing := List.find?_eq_none.1 found constraint member
      simp at missing
  | some other =>
      have same : other.id = constraint.id := by
        simpa using List.find?_some found
      rw [wellFormed.id_injective (List.mem_of_find?_eq_some found) member
          same]

/-- Dependence leads to larger positions among the variables. -/
theorem idxOf_lt_of_transGen
    (wellFormed : model.WellFormed)
    {operand support : String}
    (depends : Relation.TransGen model.DependsOn operand support) :
    model.ids.toList.idxOf operand < model.ids.toList.idxOf support := by
  have older : ∀ {operand support}, model.DependsOn operand support →
      model.ids.toList.idxOf operand < model.ids.toList.idxOf support := by
    rintro operand _ ⟨constraint, member, rfl, mentioned⟩
    exact (wellFormed.older constraint member operand mentioned).idxOf_lt
  induction depends with
  | single direct => exact older direct
  | tail _ direct ih => exact ih.trans (older direct)

theorem invariant
    (wellFormed : model.WellFormed)
    {declared : List String}
    (primitives_eq : model.primitives = declared) :
    model.Invariant declared where
  toWellFormed := wellFormed
  distinct := model.ids.nodup
  stored := fun _ => wellFormed.constraint?_eq
  acyclic :=
    fun _ cycle => Nat.lt_irrefl _ (wellFormed.idxOf_lt_of_transGen cycle)
  primitives_eq := primitives_eq

end WellFormed

/--
Every run of requests keeps the invariant, whether they are granted or
refused.
-/
theorem invariant_run_empty
    (steps : List Step) :
    (empty.run steps).Invariant (empty.declared steps) :=
  (wellFormed_run_empty steps).invariant
    (primitives_run wellFormed_empty steps)

end Configurator.Logic.Model

namespace Configurator.Builder

open Configurator.Calendar Configurator.Collection Configurator.Logic
  Configurator.Schedule

/--
Every model that requests lead to has the invariant.  So has every model
between the requests of a lowering, whatever is preferred, bound to periods
and enabled, and the model with a single root in place of its assumptions.
-/
theorem lower_invariant
    (steps : List Model.Step)
    (preferences : OrderedSet String)
    (bounds : List TimeBound)
    (enabledPeriod : Option Period) :
    let model := Model.empty.run steps
    let builder : Builder := ⟨model, preferences, bounds, enabledPeriod⟩
    model.Invariant (Model.empty.declared steps) ∧
    (∀ internal,
      internal <+: builder.lowerSteps →
      (model.run internal).Invariant
        (Model.empty.declared (steps ++ internal))) ∧
    ∀ lowered,
      builder.lower = .ok lowered →
      lowered.model.Invariant
        (Model.empty.declared (steps ++ builder.lowerSteps)) := by
  intro model builder
  have later (internal : List Model.Step) :
      (model.run internal).Invariant
        (Model.empty.declared (steps ++ internal)) := by
    rw [← Model.run_append]
    exact Model.invariant_run_empty _
  refine ⟨Model.invariant_run_empty steps, fun internal _ => later internal,
    ?_⟩
  intro lowered computed
  apply (wellFormed_lowered (Model.wellFormed_run_empty steps)
          computed).invariant
  rw [← (later builder.lowerSteps).primitives_eq]
  exact primitives_run_lowerSteps computed

/--
A declaration and an implication are refused, then one name is bound to a
month.
-/
def refusedSteps : List Model.Step :=
  [.addPrimitives ["a", "b"], .addPrimitives ["c", "a"],
    .set .implication ["a", "c"]]

/-- The bound of one name to a month. -/
def monthBound : TimeBound :=
  ⟨"b", ⟨morningOf 9 (by decide), morningOf 10 (by decide)⟩⟩

theorem lower_invariant_month :
    let builder : Builder :=
      ⟨Model.empty.run refusedSteps, OrderedSet.ofList ["a"], [monthBound],
        none⟩
    ∃ lowered,
      builder.lower = .ok lowered ∧
      lowered.model.Invariant ["a", "b", "period_0"] := by
  intro builder
  have granted : builder.lower.toOption.isSome = true := by
    decide +kernel
  rw [Option.isSome_iff_exists] at granted
  obtain ⟨lowered, computed⟩ := granted
  rw [toOption_eq_some_iff] at computed
  have declared :
      Model.empty.declared (refusedSteps ++ builder.lowerSteps) =
        ["a", "b", "period_0"] := by
    decide +kernel
  refine ⟨lowered, computed, ?_⟩
  rw [← declared]
  exact (lower_invariant refusedSteps _ _ _).2.2 lowered computed

end Configurator.Builder
