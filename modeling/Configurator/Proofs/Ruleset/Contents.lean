import Configurator.Proofs.Logic.Mention
import Configurator.Proofs.Logic.Primitives
import Configurator.Proofs.Ruleset.Compile

/-!
# The contents of a lowered model

Lowering declares the periods and no other names, so the primitives are
those of the builder and then the periods.  Every constraint that it
constructs is stored under its id.  Among these constraints some mention
every period, unless there is a single one that is assumed; and whatever was
assumed ends up in one root.
-/

namespace Configurator.Logic.Model

open Configurator.Collection

variable {model : Model} {id : String}

/-- Assumptions stay. -/
theorem mem_assumed_run
    (assumed : id ∈ model.assumed)
    (steps : List Step) :
    id ∈ (model.run steps).assumed := by
  induction steps generalizing model with
  | nil => exact assumed
  | cons step rest ih =>
      apply ih
      rcases apply_cases model step with
        same | ⟨_, _, _, _, _, same⟩ |
          ⟨connective, operands, _, _, carried⟩ | ⟨ids, _, _, added⟩
      · rwa [same]
      · rwa [same]
      · rwa [carried, assumed_carryOut]
      · rw [added]
        exact OrderedSet.mem_append.2 (Or.inl assumed)

theorem granted_of_extend
    {grown : Model}
    {connective : Connective}
    {operands : List String}
    {support : String}
    (extended : model.extend connective operands = .ok (support, grown)) :
    (model.set connective operands).1 = .ok support :=
  congrArg Prod.fst (extend_eq_ok extended).1

/-- The request declares primitives. -/
def Step.Declares : Step → Prop
  | .addPrimitives _ => True
  | _ => False

theorem declared_append
    (first second : List Step) :
    model.declared (first ++ second) =
      model.declared first ++ (model.run first).declared second := by
  induction first generalizing model with
  | nil => rfl
  | cons step rest ih =>
      rw [List.cons_append, declared, ih, declared, run_cons,
        List.append_assoc]

theorem declared_eq_nil
    {steps : List Step}
    (silent : ∀ step ∈ steps, ¬ step.Declares) :
    model.declared steps = [] := by
  induction steps generalizing model with
  | nil => rfl
  | cons step rest ih =>
      rw [declared,
        ih fun other member => silent other (List.mem_cons_of_mem _ member)]
      have here := silent step List.mem_cons_self
      cases step with
      | addPrimitives names => exact absurd trivial here
      | set connective operands => rfl
      | assume ids => rfl

end Configurator.Logic.Model

namespace Configurator.Builder

open Configurator.Calendar Configurator.Collection Configurator.Linear
  Configurator.Logic Configurator.Schedule

variable {model grown : Model}

/-! ## What compiling declares -/

theorem silent_preferenceSteps
    (preferences : List String) :
    ∀ step ∈ preferenceSteps preferences, ¬ step.Declares :=
  List.forall_mem_map.2 fun _ _ => id

theorem silent_joinedSteps
    (connective : Connective)
    (ids : List String) :
    ∀ step ∈ joinedSteps connective ids, ¬ step.Declares := by
  unfold joinedSteps
  split
  · exact fun _ impossible => nomatch impossible
  · exact List.forall_mem_singleton.2 id

theorem silent_groupSteps
    (group : List String × List Nat) :
    ∀ step ∈ groupSteps group, ¬ step.Declares := by
  refine List.forall_mem_append.2 ⟨silent_joinedSteps _ _, ?_⟩
  refine List.forall_mem_append.2 ⟨silent_joinedSteps _ _, ?_⟩
  exact List.forall_mem_cons.2 ⟨id, List.forall_mem_singleton.2 id⟩

theorem silent_exactlyOneSteps
    (names : List String) :
    ∀ step ∈ exactlyOneSteps names, ¬ step.Declares := by
  unfold exactlyOneSteps
  split
  · exact List.forall_mem_singleton.2 id
  · exact List.forall_mem_cons.2 ⟨id, List.forall_mem_singleton.2 id⟩

theorem silent_rootSteps
    (assumed : OrderedSet String) :
    ∀ step ∈ rootSteps assumed, ¬ step.Declares := by
  unfold rootSteps
  split
  · exact List.forall_mem_singleton.2 id
  · exact fun _ impossible => nomatch impossible

/--
The names that lowering the periods declares are those of the periods.
-/
theorem declared_periodSteps
    {builder : Builder}
    {periods : List PeriodVariable}
    (lowered : builder.lowerPeriods model = .ok (periods, grown)) :
    model.declared builder.periodSteps = periods.map PeriodVariable.id := by
  simp only [lowerPeriods] at lowered
  simp only [periodSteps]
  cases present : builder.span with
  | none =>
      rw [present] at lowered
      cases lowered
      rfl
  | some span =>
      rw [present] at lowered
      simp only [bind_eq_ok_iff] at lowered
      obtain ⟨declared, declaration, one, exactlyOne, last, grouped,
        finished⟩ := lowered
      cases finished
      have silent :
          ∀ step ∈ exactlyOneSteps
              ((List.range (atoms span builder.bounds).length).map
                periodName) ++
              (groupByActive (atoms span builder.bounds)
                builder.bounds).entries.flatMap groupSteps,
            ¬ step.Declares := by
        refine List.forall_mem_append.2 ⟨silent_exactlyOneSteps _, ?_⟩
        exact List.forall_mem_flatMap.2 fun group _ =>
          silent_groupSteps group
      dsimp only
      rw [Model.declared, Model.declared_eq_nil silent, List.append_nil]
      simp only [Model.declaredBy, declaration]
      exact (map_id_periodVariables _).symm

/-- Lowering adds the periods to the primitives. -/
theorem primitives_lowered
    {builder : Builder}
    (wellFormed : builder.model.WellFormed)
    {lowered : Lowered}
    (computed : builder.lower = .ok lowered) :
    lowered.model.primitives =
      builder.model.primitives ++
        lowered.periods.map PeriodVariable.id := by
  obtain ⟨preferred, preferences, timed, _⟩ := lower_eq_ok computed
  have preferredEq := (lowerPreferences_eq_ok preferences).1
  rw [primitives_run_lowerSteps computed, Model.primitives_run wellFormed,
    lowerSteps, earlySteps, Model.declared_append, Model.declared_append,
    Model.declared_eq_nil (silent_preferenceSteps _),
    Model.declared_eq_nil (silent_rootSteps _), ← preferredEq,
    declared_periodSteps timed, List.nil_append, List.append_nil]

/-! ## What compiling stores -/

theorem stores_joined
    {connective : Connective}
    {ids : List String}
    {support : String}
    (computed : joined connective model ids = .ok (support, grown)) :
    model.Stores (joinedSteps connective ids) := by
  simp only [joined] at computed
  split at computed
  · exact Model.stores_nil model
  · rename_i several
    rw [joinedSteps_of_several several]
    exact Model.stores_set (Model.granted_of_extend computed)

theorem stores_lowerGroup
    {group : List String × List Nat}
    (lowered : lowerGroup model group = .ok grown) :
    model.Stores (groupSteps group) := by
  simp only [lowerGroup, bind_eq_ok_iff] at lowered
  obtain ⟨⟨during, first⟩, joinedDuring, ⟨required, second⟩, joinedRequired,
    ⟨rule, third⟩, ruled, assumed⟩ := lowered
  have early := stores_joined joinedDuring
  have late := stores_joined joinedRequired
  rcases joined_eq_ok joinedDuring with ⟨rfl, rfl, _⟩
  rcases joined_eq_ok joinedRequired with ⟨rfl, rfl, _⟩
  exact early.append
    (late.append
      ((Model.stores_set (Model.granted_of_extend ruled)).append
        (Model.stores_assume _ _)))

theorem stores_assumeExactlyOne
    {names : List String}
    (lowered : assumeExactlyOne model names = .ok grown) :
    model.Stores (exactlyOneSteps names) := by
  simp only [assumeExactlyOne] at lowered
  split at lowered
  · exact Model.stores_assume _ _
  · rename_i several
    simp only [bind_eq_ok_iff] at lowered
    obtain ⟨⟨one, next⟩, extended, _⟩ := lowered
    rw [exactlyOneSteps_of_several several]
    exact (Model.stores_set (Model.granted_of_extend extended)).append
      (Model.stores_assume _ _)

theorem stores_groups
    {groups : List (List String × List Nat)}
    (lowered : groups.foldlM lowerGroup model = .ok grown) :
    model.Stores (groups.flatMap groupSteps) := by
  induction groups generalizing model with
  | nil => exact Model.stores_nil model
  | cons group rest ih =>
      rw [List.foldlM_cons, bind_eq_ok_iff] at lowered
      obtain ⟨next, first, others⟩ := lowered
      have later := ih others
      rw [lowerGroup_eq_run first] at later
      exact (stores_lowerGroup first).append later

theorem stores_preferences
    {preferences : List String}
    {known supports : OrderedSet String}
    (lowered :
      preferences.foldlM lowerPreference (known, model) =
        .ok (supports, grown)) :
    model.Stores (preferenceSteps preferences) := by
  induction preferences generalizing known model with
  | nil => exact Model.stores_nil model
  | cons id rest ih =>
      rw [List.foldlM_cons, bind_eq_ok_iff] at lowered
      obtain ⟨_, first, others⟩ := lowered
      obtain ⟨support, next, extended, rfl⟩ := lowerPreference_eq_ok first
      have later := ih others
      rw [(Model.extend_eq_ok extended).2.1] at later
      exact (Model.stores_set (Model.granted_of_extend extended)).append
        later

theorem stores_periods
    {builder : Builder}
    {periods : List PeriodVariable}
    (lowered : builder.lowerPeriods model = .ok (periods, grown)) :
    model.Stores builder.periodSteps := by
  simp only [lowerPeriods] at lowered
  simp only [periodSteps]
  cases present : builder.span with
  | none => exact Model.stores_nil model
  | some span =>
      rw [present] at lowered
      simp only [bind_eq_ok_iff] at lowered
      obtain ⟨declared, declaration, one, exactlyOne, last, grouped, _⟩ :=
        lowered
      have second := stores_assumeExactlyOne exactlyOne
      have third := stores_groups grouped
      rw [assumeExactlyOne_eq_run exactlyOne] at third
      have both := second.append third
      rw [Model.addPrimitives_eq_run declaration] at both
      exact (Model.stores_addPrimitives model _).append both

/-- Whatever lowering constructs is stored under its id. -/
theorem exists_stored
    {builder : Builder}
    {lowered : Lowered}
    (computed : builder.lower = .ok lowered)
    {constraint : Constraint}
    (constructed :
      constraint ∈ builder.model.constructed builder.lowerSteps) :
    ∃ stored ∈ lowered.model.constraints, stored.id = constraint.id := by
  obtain ⟨preferred, preferences, timed, joined⟩ := lower_eq_ok computed
  have first := stores_preferences preferences
  have second := stores_periods timed
  rw [(lowerPreferences_eq_ok preferences).1] at second
  have third : (builder.model.run builder.earlySteps).Stores
      (rootSteps (builder.model.run builder.earlySteps).assumed) := by
    rcases lowerAssumptions_eq_ok joined with
      ⟨stepsEq, _⟩ | ⟨root, rooted, stepsEq, extended, _⟩
    · rw [stepsEq]
      exact Model.stores_nil _
    · rw [stepsEq]
      exact Model.stores_set (Model.granted_of_extend extended)
  rw [(lowered_model computed).2]
  exact ((first.append second).append third) constraint constructed

/-! ## What compiling mentions -/

/--
A period is assumed, or one of the constraints that lowering the periods
constructs has it.
-/
theorem period_mentioned
    {builder : Builder}
    {periods : List PeriodVariable}
    (lowered : builder.lowerPeriods model = .ok (periods, grown)) :
    ∀ id ∈ periods.map PeriodVariable.id,
      id ∈ grown.assumed ∨
      ∃ constraint ∈ model.constructed builder.periodSteps,
        id ∈ constraint.operands := by
  simp only [lowerPeriods] at lowered
  simp only [periodSteps]
  cases present : builder.span with
  | none =>
      rw [present] at lowered
      cases lowered
      exact fun _ impossible => absurd impossible List.not_mem_nil
  | some span =>
      rw [present] at lowered
      simp only [bind_eq_ok_iff] at lowered
      obtain ⟨declared, declaration, one, exactlyOne, last, grouped,
        finished⟩ := lowered
      cases finished
      dsimp only
      intro id member
      have named :
          id ∈
            (List.range (atoms span builder.bounds).length).map
              periodName := by
        rw [← map_id_periodVariables]
        exact member
      generalize (List.range (atoms span builder.bounds).length).map
        periodName = names at named declaration exactlyOne ⊢
      simp only [assumeExactlyOne] at exactlyOne
      split at exactlyOne
      · left
        rw [foldlM_lowerGroup_eq_run grouped]
        refine Model.mem_assumed_run ?_ _
        rw [(Model.assume_eq_run exactlyOne).2]
        exact OrderedSet.mem_append.2 (Or.inr named)
      · right
        rename_i several
        simp only [bind_eq_ok_iff] at exactlyOne
        obtain ⟨⟨choice, next⟩, extended, _⟩ := exactlyOne
        obtain ⟨constraint, constructed, mentioned⟩ :=
          Model.mentions_set (Model.granted_of_extend extended) id named
        refine ⟨constraint, ?_, mentioned⟩
        rw [exactlyOneSteps_of_several several]
        show constraint ∈
          model.constructed
            ([.addPrimitives names] ++ ([.set .exactlyOne names] ++ _))
        rw [Model.constructed_append,
          ← Model.addPrimitives_eq_run declaration,
          Model.constructed_append]
        exact List.mem_append_right _ (List.mem_append_left _ constructed)

/--
Every period is the assumed root, or something that lowering constructs
mentions it.
-/
theorem lowered_mentions
    {builder : Builder}
    {lowered : Lowered}
    (computed : builder.lower = .ok lowered) :
    ∀ id ∈ lowered.periods.map PeriodVariable.id,
      id ∈ lowered.model.assumed ∨
      ∃ constraint ∈ builder.model.constructed builder.lowerSteps,
        id ∈ constraint.operands := by
  obtain ⟨preferred, preferences, timed, joined⟩ := lower_eq_ok computed
  intro id member
  simp only [lowerSteps, Model.constructed_append, List.mem_append,
    or_and_right, exists_or]
  rcases period_mentioned timed id member with
    assumed | ⟨constraint, constructed, mentioned⟩
  · rcases lowerAssumptions_eq_ok joined with
      ⟨_, same⟩ | ⟨root, rooted, stepsEq, extended, _⟩
    · left
      rwa [same]
    · right
      right
      rw [stepsEq]
      exact Model.mentions_set (Model.granted_of_extend extended) id assumed
  · right
    left
    refine ⟨constraint, ?_, mentioned⟩
    rw [earlySteps, Model.constructed_append,
      ← (lowerPreferences_eq_ok preferences).1]
    exact List.mem_append_right _ constructed

/-- At most one id is assumed after lowering. -/
theorem size_assumed_lowered
    {builder : Builder}
    {lowered : Lowered}
    (computed : builder.lower = .ok lowered) :
    lowered.model.assumed.size ≤ 1 := by
  obtain ⟨_, _, _, joined⟩ := lower_eq_ok computed
  simp only [lowerAssumptions] at joined
  split at joined
  · simp only [bind_eq_ok_iff] at joined
    obtain ⟨⟨root, rooted⟩, _, finished⟩ := joined
    rw [← Except.ok.inj finished]
    exact Nat.le_refl 1
  · rename_i few
    rw [← Except.ok.inj joined]
    omega

end Configurator.Builder
