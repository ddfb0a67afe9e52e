import Configurator.Calendar.Checked
import Configurator.Proofs.Logic.Growth
import Configurator.Proofs.Ruleset.Compiled
import Configurator.Proofs.Schedule.Tiling

/-!
# The timetable of a rule set

An enabled period covers all time bounds, in whatever order they were given,
and so does their hull if no period is enabled.  The period variables of a
rule set tile this span, and their names are new variables of the lowered
model.
-/

namespace Configurator

open Configurator.Calendar Configurator.Collection Configurator.Linear
  Configurator.Logic Configurator.Schedule

/-! ## Time bounds of a builder -/

namespace Builder

/-- The period of the request, if it has one, ends after its start. -/
def Step.Checked : Step → Prop
  | .assumeInPeriod _ period =>
      Period.between period.start period.finish = .ok period
  | .enablePeriod period =>
      Period.between period.start period.finish = .ok period
  | _ => True

instance (step : Step) : Decidable step.Checked :=
  match step with
  | .assumeInPeriod _ period =>
      inferInstanceAs
        (Decidable (Period.between period.start period.finish = .ok period))
  | .enablePeriod period =>
      inferInstanceAs
        (Decidable (Period.between period.start period.finish = .ok period))
  | .model _ | .prefer _ | .assume _ => inferInstanceAs (Decidable True)

/--
Bounds are for variables, no period is empty, and an enabled one covers all
bounds.
-/
structure Timed (builder : Builder) : Prop where
  /-- The bounds are for variables. -/
  bounds_known : ∀ bound ∈ builder.bounds, bound.id ∈ builder.model.ids
  /-- The bounds are not empty. -/
  bounds_proper :
    ∀ bound ∈ builder.bounds, bound.period.start < bound.period.finish
  /-- The enabled period is not empty. -/
  enabled_proper :
    ∀ period ∈ builder.enabledPeriod, period.start < period.finish
  /-- The enabled period covers the bounds. -/
  enabled_covers :
    ∀ period ∈ builder.enabledPeriod, ∀ bound ∈ builder.bounds,
      period.Covers bound.period

variable {builder changed : Builder}

theorem timed_ofModel (model : Model) : (ofModel model).Timed where
  bounds_known := fun _ member => nomatch member
  bounds_proper := fun _ member => nomatch member
  enabled_proper := fun _ member => nomatch member
  enabled_covers := fun _ member => nomatch member

theorem Timed.congr
    (timed : builder.Timed)
    (bounds : changed.bounds = builder.bounds)
    (enabled : changed.enabledPeriod = builder.enabledPeriod)
    (growth : builder.model.GrowsTo changed.model) :
    changed.Timed := by
  constructor
  · rw [bounds]
    exact fun bound member =>
      OrderedSet.mem_of_extends growth.ids (timed.bounds_known bound member)
  · rw [bounds]
    exact timed.bounds_proper
  · rw [enabled]
    exact timed.enabled_proper
  · rw [bounds, enabled]
    exact timed.enabled_covers

theorem Timed.assumeInPeriod
    (timed : builder.Timed)
    {id : String}
    {period : Period}
    (proper : period.start < period.finish)
    (granted : ¬ builder.Refuses (.assumeInPeriod id period)) :
    (builder.apply (.assumeInPeriod id period)).Timed := by
  obtain ⟨known, covers, applied⟩ := apply_assumeInPeriod granted
  rw [applied]
  constructor
  · exact List.forall_mem_append.2
      ⟨timed.bounds_known, List.forall_mem_singleton.2 known⟩
  · exact List.forall_mem_append.2
      ⟨timed.bounds_proper, List.forall_mem_singleton.2 proper⟩
  · exact timed.enabled_proper
  · intro enabled present
    exact List.forall_mem_append.2 ⟨timed.enabled_covers enabled present,
      List.forall_mem_singleton.2 (covers enabled present)⟩

theorem Timed.enablePeriod
    (timed : builder.Timed)
    {period : Period}
    (proper : period.start < period.finish)
    (granted : ¬ builder.Refuses (.enablePeriod period)) :
    (builder.apply (.enablePeriod period)).Timed := by
  obtain ⟨covers, applied⟩ := apply_enablePeriod granted
  rw [applied]
  refine ⟨timed.bounds_known, timed.bounds_proper, ?_, ?_⟩
  · rintro _ ⟨⟩
    exact proper
  · rintro _ ⟨⟩
    exact covers

theorem Timed.apply
    (timed : builder.Timed)
    {step : Step}
    (checked : step.Checked) :
    (builder.apply step).Timed := by
  cases step with
  | model request => exact timed.congr rfl rfl (Model.growsTo_apply _ _)
  | assume ids =>
      rw [apply_assume]
      exact timed.congr rfl rfl
        (Model.growsTo_apply builder.model (.assume ids))
  | prefer ids =>
      by_cases refused : builder.Refuses (.prefer ids)
      · rwa [apply_of_refused rfl refused]
      · rw [apply_prefer refused]
        exact timed.congr rfl rfl (Model.GrowsTo.refl _)
  | assumeInPeriod id period =>
      by_cases refused : builder.Refuses (.assumeInPeriod id period)
      · rwa [apply_of_refused rfl refused]
      · exact timed.assumeInPeriod (Period.between_eq_ok_iff.1 checked).1
          refused
  | enablePeriod period =>
      by_cases refused : builder.Refuses (.enablePeriod period)
      · rwa [apply_of_refused rfl refused]
      · exact timed.enablePeriod (Period.between_eq_ok_iff.1 checked).1
          refused

theorem Timed.run
    (timed : builder.Timed)
    {steps : List Step}
    (checked : ∀ step ∈ steps, step.Checked) :
    (builder.run steps).Timed := by
  induction steps generalizing builder with
  | nil => exact timed
  | cons step rest ih =>
      obtain ⟨first, later⟩ := List.forall_mem_cons.1 checked
      exact ih (timed.apply first) later

/-- The span is not empty and covers all bounds. -/
theorem Timed.span_covers
    (timed : builder.Timed)
    {span : Period}
    (present : builder.span = some span) :
    span.start < span.finish ∧
    ∀ bound ∈ builder.bounds, span.Covers bound.period := by
  rw [Builder.span] at present
  rcases Option.or_eq_some_iff.1 present with enabled | ⟨_, hull⟩
  · exact ⟨timed.enabled_proper span enabled,
      timed.enabled_covers span enabled⟩
  · exact spanOf_covers hull timed.bounds_proper

/-! ## Period variables -/

variable {span : Period} {bounds : List TimeBound} {time : Instant}

/-- Some period contains an instant exactly if the span does. -/
theorem exists_periodVariable_iff
    (proper : span.start < span.finish) :
    (∃ period ∈ periodVariables (atoms span bounds),
      period.period.Contains time) ↔
      span.Contains time := by
  constructor
  · rintro ⟨period, member, inside⟩
    rcases mem_periodVariables.1 member with ⟨_, here, _⟩
    exact contains_of_atom proper (List.mem_of_getElem? here) inside
  · intro inside
    obtain ⟨atom, member, contains⟩ := @exists_atom span bounds time inside
    obtain ⟨index, here⟩ := List.mem_iff_getElem?.1 member
    exact ⟨⟨periodName index, atom⟩,
      mem_periodVariables.2 ⟨index, here, rfl⟩, contains⟩

/-- At most one period contains an instant. -/
theorem periodVariable_unique
    {left right : PeriodVariable}
    (leftMember : left ∈ periodVariables (atoms span bounds))
    (rightMember : right ∈ periodVariables (atoms span bounds))
    (leftInside : left.period.Contains time)
    (rightInside : right.period.Contains time) :
    left = right := by
  rcases mem_periodVariables.1 leftMember with ⟨first, leftHere, leftName⟩
  rcases mem_periodVariables.1 rightMember with
    ⟨second, rightHere, rightName⟩
  have same := atom_index_unique leftHere rightHere leftInside rightInside
  subst same
  cases left
  cases right
  cases leftHere.symm.trans rightHere
  cases leftName.symm.trans rightName
  rfl

theorem lowerPeriods_variables
    {model grown : Model}
    {periods : List PeriodVariable}
    (lowered : builder.lowerPeriods model = .ok (periods, grown))
    (some : periods ≠ []) :
    ∃ span,
      builder.span = Option.some span ∧
      periods = periodVariables (atoms span builder.bounds) ∧
      ∀ period ∈ periods,
        period.id ∉ model.ids ∧ period.id ∈ grown.ids := by
  simp only [lowerPeriods] at lowered
  split at lowered
  · cases lowered
    exact absurd rfl some
  · rename_i span present
    simp only [bind_eq_ok_iff] at lowered
    rcases lowered with
      ⟨declared, declaration, one, exactlyOne, last, grouped, finished⟩
    cases finished
    refine ⟨span, present, rfl, ?_⟩
    intro period member
    obtain ⟨index, here, named⟩ := mem_periodVariables.1 member
    have listed :
        period.id ∈
          (List.range (atoms span builder.bounds).length).map
            periodName := by
      rw [← named]
      exact List.mem_map_of_mem
        (List.mem_range.2 (List.getElem?_eq_some_iff.1 here).1)
    obtain ⟨ids, fresh, _, _⟩ := Model.addPrimitives_eq_ok declaration
    refine ⟨(fresh _ listed).2, ?_⟩
    have known : period.id ∈ declared.ids := by
      show _ ∈ declared.ids.toList
      rw [ids]
      exact List.mem_append_right _ listed
    have grows : declared.GrowsTo grown := by
      rw [foldlM_lowerGroup_eq_run grouped,
        assumeExactlyOne_eq_run exactlyOne]
      exact (Model.growsTo_run _ _).trans (Model.growsTo_run _ _)
    exact OrderedSet.mem_of_extends grows.ids known

end Builder

namespace Ruleset.Compiled

variable {ruleset : Ruleset} {builder : Builder} {lowered : Builder.Lowered}

/-- The periods tile the span, and their names are new variables. -/
theorem periods_tile
    (compiled : ruleset.Compiled builder lowered)
    (some : ruleset.periods ≠ []) :
    ∃ span,
      builder.span = Option.some span ∧
      ruleset.periods =
        Builder.periodVariables (atoms span builder.bounds) ∧
      ∀ period ∈ ruleset.periods,
        period.id ∉ builder.model.ids ∧ period.id ∈ lowered.model.ids := by
  rcases Builder.lower_eq_ok compiled.computed with
    ⟨preferred, preferences, timed, joined⟩
  rw [compiled.periods_eq] at some ⊢
  obtain ⟨span, present, tiles, names⟩ :=
    Builder.lowerPeriods_variables timed some
  refine ⟨span, present, tiles, ?_⟩
  intro period member
  rcases names period member with ⟨fresh, known⟩
  constructor
  · intro old
    apply fresh
    rw [(Builder.lowerPreferences_eq_ok preferences).1]
    exact OrderedSet.mem_of_extends (Model.growsTo_run _ _).ids old
  · rw [(Builder.lowered_model compiled.computed).1, Builder.lowerSteps,
      Model.run_append]
    exact OrderedSet.mem_of_extends (Model.growsTo_run _ _).ids known

theorem period_known
    (compiled : ruleset.Compiled builder lowered)
    {period : PeriodVariable}
    (member : period ∈ ruleset.periods) :
    period.id ∈ ruleset.ids := by
  obtain ⟨_, _, _, names⟩ :=
    compiled.periods_tile (List.ne_nil_of_mem member)
  rw [compiled.ids_eq]
  exact (names period member).2

/-- The variables of the builder keep their values in the lowered model. -/
theorem evaluate_eq
    (compiled : ruleset.Compiled builder lowered)
    (wellFormed : builder.model.WellFormed)
    {left right : String → Bool}
    (agree : ∀ id ∈ builder.model.ids, left id = right id)
    {id : String}
    (known : id ∈ builder.model.ids) :
    lowered.model.evaluate left id = builder.model.evaluate right id := by
  have same := (Builder.lowered_model compiled.computed).2
  rw [Model.evaluate, same]
  exact wellFormed.evaluate_eq (Model.addsSupports_run _ _) agree known

/-- A period is no support. -/
theorem period_notMem_supports
    (compiled : ruleset.Compiled builder lowered)
    {period : PeriodVariable}
    (member : period ∈ ruleset.periods) :
    period.id ∉ lowered.model.supports := by
  intro support
  obtain ⟨constraint, stored, same⟩ := List.mem_map.1 support
  apply compiled.id_notMem_periods
    (compiled.wellFormed.wellMade constraint stored)
  rw [same]
  exact List.mem_map_of_mem member

theorem mem_lowered_ids
    (compiled : ruleset.Compiled builder lowered)
    {id : String}
    (known : id ∈ builder.model.ids) :
    id ∈ lowered.model.ids :=
  OrderedSet.mem_of_extends
    (Builder.growsTo_lowered compiled.computed).ids known

end Ruleset.Compiled

end Configurator
