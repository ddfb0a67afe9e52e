import Configurator.Proofs.Ruleset.Priority
import Configurator.Proofs.Ruleset.Timing

/-!
# Queries at an instant

A query at an instant of the span pins the period that contains it.  In its
configurations no other period is active and everything holds that is bound
to the instant, and every choice of primitives with which that is so gives
one.  At any other instant there is no query.
-/

namespace Configurator

open Configurator.Calendar Configurator.Collection Configurator.Linear
  Configurator.Logic Configurator.Objective Configurator.Optimizer
  Configurator.Request Configurator.Schedule

/-! ## The period of an instant -/

namespace Ruleset

variable {ruleset : Ruleset} {time : Instant}

theorem activePeriod?_eq_find?
    (ruleset : Ruleset)
    (time : Instant) :
    ruleset.activePeriod? (some time) =
      ruleset.periods.find? fun candidate =>
        decide (candidate.period.Contains time) :=
  List.find?_eq_bind_findIdx?_getElem?.symm

theorem contains_of_active
    {period : PeriodVariable}
    (active : period ∈ ruleset.activePeriod? (some time)) :
    period.period.Contains time := by
  rw [activePeriod?_eq_find?] at active
  have found := List.find?_some active
  exact of_decide_eq_true found

theorem activePeriod?_eq_none_iff :
    ruleset.activePeriod? (some time) = none ↔
      ¬ ∃ period ∈ ruleset.periods, period.period.Contains time := by
  rw [activePeriod?_eq_find?, List.find?_eq_none]
  simp only [decide_eq_true_eq, not_exists, not_and]

variable {selections : List Selection} {config : WeightConfig}
  {free : Query}

/--
A query at an instant is the query without one, with the period of the
instant pinned.
-/
theorem prepare_eq_pin
    (accepted : ruleset.prepare selections none config = .ok free) :
    ruleset.prepare selections (some time) config =
      (ruleset.pin ⟨free.polyhedron, free.ids⟩ time).bind fun pinned =>
        .ok
          { free with
              polyhedron := pinned.polyhedron,
              ids := pinned.ids } := by
  simp only [prepare, bind_eq_ok_iff] at accepted
  rcases accepted with
    ⟨_, checked, materialised, extended, _, located, weights, derived,
      finished⟩
  cases located
  cases finished
  simp only [prepare]
  rw [checked, extended]
  show (ruleset.pin materialised time).bind _ =
    (ruleset.pin materialised time).bind _
  congr 1
  funext pinned
  rw [derived]
  rfl

/-- Outside of all periods there is no query. -/
theorem prepare_outside
    (accepted : ruleset.prepare selections none config = .ok free)
    (some : ruleset.periods ≠ [])
    (outside : ruleset.activePeriod? (Option.some time) = none) :
    ruleset.prepare selections (Option.some time) config =
      .error (.error (.timeOutside time)) := by
  have several : ruleset.periods.isEmpty = false := by simpa using some
  have missing :
      ((locate ruleset.periods time).bind fun index =>
        ruleset.periods[index]?) =
        none :=
    outside
  rw [prepare_eq_pin accepted, pin, several, missing]
  rfl

/-- In a period there is a query. -/
theorem prepare_inside
    (accepted : ruleset.prepare selections none config = .ok free)
    {builder : Builder}
    {lowered : Builder.Lowered}
    (compiled : ruleset.Compiled builder lowered)
    {active : PeriodVariable}
    (located : ruleset.activePeriod? (some time) = some active)
    (known : active.id ∈ lowered.model.ids) :
    ∃ query, ruleset.prepare selections (some time) config = .ok query := by
  have facts := compiled.prepared accepted
  rcases facts.describes.rows with ⟨rows, represents, _⟩
  rw [← facts.describes.ids_eq] at represents
  have column :
      (Inequality.require active.id).coefficients.Known free.ids :=
    fun id mentioned => List.mem_singleton.1 mentioned ▸ facts.mem_ids known
  obtain ⟨grown, appended⟩ :=
    represents.append_ok column (Nat.le_of_ble_eq_true rfl)
  have several : ruleset.periods.isEmpty = false := by
    have member := mem_periods_of_active located
    simpa using List.ne_nil_of_mem member
  have found :
      ((locate ruleset.periods time).bind fun index =>
        ruleset.periods[index]?) =
        some active :=
    located
  refine ⟨{ free with polyhedron := grown }, ?_⟩
  rw [prepare_eq_pin accepted, pin, several, found]
  simp only [appended]
  rfl

end Ruleset

/-! ## Configurations of a query -/

namespace Query.Prepared

variable {query : Query} {ruleset : Ruleset} {builder : Builder}
  {lowered : Builder.Lowered} {selections : List Selection}
  {time : Option Instant} {config : WeightConfig}

/--
The configurations of a query are those at which the rows of the extended
model hold.
-/
theorem contains_iff_of_agree
    (prepared : query.Prepared ruleset lowered.model selections time config)
    {vertex : Vertex query.ids}
    {value : String → Int}
    (agree : ∀ id ∈ query.ids, vertex.value id = value id) :
    query.polyhedron.Contains vertex.entries ↔
      ∀ row ∈
          (lowered.model.asked query.selections
            (ruleset.activePeriod? time)).inequalities,
        row.Holds value := by
  rcases prepared.describes.rows with ⟨rows, represents, listed⟩
  rw [← prepared.describes.ids_eq] at represents
  rw [represents.contains_iff_of_agree agree]
  exact forall_congr' fun row => by rw [listed]

end Query.Prepared

section Instant

variable {query : Query} {ruleset : Ruleset} {builder : Builder}
  {lowered : Builder.Lowered} {selections : List Selection} {time : Instant}
  {config : WeightConfig}
  (prepared :
    query.Prepared ruleset lowered.model selections (some time) config)
  (compiled : ruleset.Compiled builder lowered)
  (distinct : IdsDetermine builder.pool) (timed : builder.Timed)
  {active : PeriodVariable}
  (located : ruleset.activePeriod? (some time) = some active)

include compiled timed located in
/--
A bound covers the period of an instant exactly if it contains the instant.
-/
theorem Ruleset.Compiled.covers_active_iff
    {bound : TimeBound}
    (member : bound ∈ builder.bounds) :
    bound.period.Covers active.period ↔ bound.period.Contains time := by
  have activeMember := mem_periods_of_active located
  obtain ⟨span, present, tiles, _⟩ :=
    compiled.periods_tile (List.ne_nil_of_mem activeMember)
  rw [tiles] at activeMember
  obtain ⟨_, here, _⟩ := Builder.mem_periodVariables.1 activeMember
  exact covers_atom_iff member ((timed.span_covers present).2 bound member)
    (timed.bounds_proper bound member) (List.mem_of_getElem? here)
    (contains_of_active located)

include prepared compiled distinct timed located in
/--
In a configuration of a query at an instant everything holds that is bound
to it.
-/
theorem Query.Prepared.bound_of_contained
    {vertex : Vertex query.ids}
    (contained : query.polyhedron.Contains vertex.entries) :
    (∀ period ∈ ruleset.periods,
      vertex.value period.id = 1 ↔ period = active) ∧
    ∀ bound ∈ builder.bounds,
      bound.period.Contains time → vertex.value bound.id = 1 := by
  have held := (prepared.contains_iff_of_agree fun _ _ => rfl).1 contained
  have known : ∀ row ∈ lowered.model.inequalities, row.Holds vertex.value :=
    fun row member => held row (Model.mem_inequalities_asked member)
  have activeMember := Ruleset.mem_periods_of_active located
  have pinned :=
    prepared.active_of_held compiled vertex.value_binary held located
  obtain ⟨consistent, assumed⟩ :=
    (compiled.wellFormed.inequalities_hold_iff vertex.value_binary).1 known
  obtain ⟨_, _, bound⟩ :=
    (Builder.lower_iff compiled.computed distinct vertex.value_binary
      consistent).1 assumed
  constructor
  · intro period member
    obtain ⟨only, _, unique⟩ :=
      compiled.unique_period distinct vertex.value_binary known
        (List.ne_nil_of_mem member)
    constructor
    · intro one
      rw [unique period ⟨member, one⟩, unique active ⟨activeMember, pinned⟩]
    · rintro rfl
      exact pinned
  · intro timeBound member inside
    rw [compiled.periods_eq] at activeMember
    exact bound active activeMember pinned timeBound member
      ((compiled.covers_active_iff timed located member).2 inside)

include compiled distinct timed located in
/--
Primitives with which everything holds that is bound to the instant satisfy
the rule set.
-/
theorem Ruleset.Compiled.exists_held_at
    (wellFormed : builder.model.WellFormed)
    {truth : String → Bool}
    (assumed :
      ∀ id ∈ builder.model.assumed, builder.model.evaluate truth id = true)
    (bound :
      ∀ bound ∈ builder.bounds,
        bound.period.Contains time →
        builder.model.evaluate truth bound.id = true) :
    ∃ value : String → Int,
      (∀ id, value id = 0 ∨ value id = 1) ∧
      (∀ row ∈ lowered.model.inequalities, row.Holds value) ∧
      value active.id = 1 ∧
      ∀ id ∈ builder.model.ids,
        value id = (builder.model.evaluate truth id).toInt := by
  have activeMember := mem_periods_of_active located
  obtain ⟨_, _, _, names⟩ :=
    compiled.periods_tile (List.ne_nil_of_mem activeMember)
  -- the variables of the builder keep their truth, and only the located
  -- period is active
  obtain ⟨scheduled, agree, others⟩ :
      ∃ scheduled : String → Bool,
        (∀ id ∈ builder.model.ids, scheduled id = truth id) ∧
        ∀ id ∉ builder.model.ids, scheduled id = decide (id = active.id) :=
    ⟨fun id =>
      if id ∈ builder.model.ids then truth id else decide (id = active.id),
      fun id known => if_pos known, fun id absent => if_neg absent⟩
  have binary : ∀ id, (lowered.model.evaluate scheduled id).toInt = 0 ∨
      (lowered.model.evaluate scheduled id).toInt = 1 :=
    fun id => Constraint.toInt_binary _
  have old :
      ∀ id ∈ builder.model.ids,
        (lowered.model.evaluate scheduled id).toInt =
          (builder.model.evaluate truth id).toInt := by
    intro id known
    rw [compiled.evaluate_eq wellFormed agree known]
  have periods :
      ∀ period ∈ ruleset.periods,
        (lowered.model.evaluate scheduled period.id).toInt = 1 ↔
          period = active := by
    intro period member
    rw [Model.evaluate_of_notMem (compiled.period_notMem_supports member),
      others _ (names period member).1, Constraint.toInt_eq_one,
      decide_eq_true_eq]
    constructor
    · exact List.inj_on_of_nodup_map compiled.periods_nodup member
        activeMember
    · rintro rfl
      rfl
  have pinned := (periods active activeMember).2 rfl
  have consistent := compiled.wellFormed.consistent_evaluate scheduled
  have whole : ∀ id ∈ lowered.model.assumed,
      (lowered.model.evaluate scheduled id).toInt = 1 := by
    rw [Builder.lower_iff compiled.computed distinct binary consistent,
      ← compiled.periods_eq]
    refine ⟨?_, ?_, ?_⟩
    · intro id member
      rw [old id (wellFormed.assumed_known id member), assumed id member]
      rfl
    · intro _
      exact ⟨active, ⟨activeMember, pinned⟩,
        fun period both => (periods period both.1).1 both.2⟩
    · intro period member one timeBound boundMember covers
      rw [(periods period member).1 one] at covers
      rw [old _ (timed.bounds_known timeBound boundMember),
        bound timeBound boundMember
          ((compiled.covers_active_iff timed located boundMember).1 covers)]
      rfl
  exact ⟨_, binary,
    (compiled.wellFormed.inequalities_hold_iff binary).2
      ⟨consistent, whole⟩, pinned, old⟩

include prepared compiled distinct timed located in
/--
Primitives with which everything holds that is bound to the instant give a
configuration.
-/
theorem Query.Prepared.exists_contained
    (wellFormed : builder.model.WellFormed)
    {truth : String → Bool}
    (assumed :
      ∀ id ∈ builder.model.assumed, builder.model.evaluate truth id = true)
    (bound :
      ∀ bound ∈ builder.bounds,
        bound.period.Contains time →
        builder.model.evaluate truth bound.id = true) :
    ∃ vertex : Vertex query.ids,
      query.polyhedron.Contains vertex.entries ∧
      ∀ id ∈ builder.model.primitives,
        vertex.value id = (truth id).toInt := by
  obtain ⟨value, binary, held, pinned, old⟩ :=
    compiled.exists_held_at distinct timed located wellFormed assumed bound
  obtain ⟨extended, extendedBinary, extendedHeld, same⟩ :=
    prepared.exists_held compiled binary held (by
      rw [located]
      rintro _ ⟨⟩
      rw [← compiled.ids_eq]
      exact ⟨compiled.period_known (Ruleset.mem_periods_of_active located),
              pinned⟩)
  obtain ⟨vertex, values⟩ := @Vertex.exists_of_binary query.ids extended
    fun id _ => extendedBinary id
  refine ⟨vertex, (prepared.contains_iff_of_agree values).2 extendedHeld,
    ?_⟩
  intro id member
  obtain ⟨known, absent⟩ := Model.mem_primitives.1 member
  have listed := compiled.mem_lowered_ids known
  rw [values id (prepared.mem_ids listed), same id listed, old id known,
    Model.evaluate_of_notMem absent]

end Instant

/--
Time bounds hold exactly when they should.  For selections that are accepted
without an instant, a query at an instant is refused exactly if the span
does not contain it.  Otherwise one period contains it and is the only
active one in every configuration of the query, everything holds there that
is bound to the instant, and every choice of primitives with which all
assumptions and all that is bound to the instant hold extends to a
configuration.
-/
theorem Ruleset.prepare_at_instant
    (steps : List Builder.Step)
    (ruleset : Ruleset)
    (selections : List Selection)
    (config : WeightConfig)
    (free : Query)
    (time : Instant)
    (built : ((Builder.ofModel Model.empty).run steps).build = .ok ruleset)
    (checked : ∀ step ∈ steps, step.Checked)
    (periods : ruleset.periods ≠ [])
    (distinct : IdsDetermine ((Builder.ofModel Model.empty).run steps).pool)
    (accepted : ruleset.prepare selections none config = .ok free) :
    let builder := (Builder.ofModel Model.empty).run steps
    ∃ span,
      builder.span = some span ∧
      ((∃ failure,
         ruleset.prepare selections (some time) config = .error failure) ↔
        ¬ span.Contains time) ∧
      (¬ span.Contains time →
        ruleset.prepare selections (some time) config =
          .error (.error (.timeOutside time)) ∧
        (Error.timeOutside time).kind = .invalidArgument) ∧
      (span.Contains time →
        ∃ query active,
          ruleset.prepare selections (some time) config = .ok query ∧
          active ∈ ruleset.periods ∧
          (∀ period ∈ ruleset.periods,
            period.period.Contains time ↔ period = active) ∧
          (∀ vertex : Vertex query.ids,
            query.polyhedron.Contains vertex.entries →
            (∀ period ∈ ruleset.periods,
              vertex.value period.id = 1 ↔ period = active) ∧
            ∀ bound ∈ builder.bounds,
              bound.period.Contains time → vertex.value bound.id = 1) ∧
          ∀ truth : String → Bool,
            (∀ id ∈ builder.model.assumed,
              builder.model.evaluate truth id = true) →
            (∀ bound ∈ builder.bounds,
              bound.period.Contains time →
              builder.model.evaluate truth bound.id = true) →
            ∃ vertex : Vertex query.ids,
              query.polyhedron.Contains vertex.entries ∧
              ∀ id ∈ builder.model.primitives,
                vertex.value id = (truth id).toInt) := by
  intro builder
  have wellFormed : builder.model.WellFormed :=
    Builder.wellFormed_run Model.wellFormed_empty steps
  have timed : builder.Timed := (Builder.timed_ofModel _).run checked
  obtain ⟨lowered, compiled⟩ := Builder.compiled_of_build wellFormed built
  obtain ⟨span, present, tiles, names⟩ := compiled.periods_tile periods
  have inside : (∃ period ∈ ruleset.periods, period.period.Contains time) ↔
      span.Contains time := by
    rw [tiles]
    exact Builder.exists_periodVariable_iff (timed.span_covers present).1
  have refused :
      ¬ span.Contains time →
      ruleset.prepare selections (some time) config =
        .error (.error (.timeOutside time)) := by
    intro outside
    rw [← inside] at outside
    exact prepare_outside accepted periods
      (activePeriod?_eq_none_iff.2 outside)
  have answered : span.Contains time → ∃ query active,
      ruleset.prepare selections (some time) config = .ok query ∧
        ruleset.activePeriod? (some time) = some active := by
    intro contains
    cases located : ruleset.activePeriod? (some time) with
    | none =>
        exact absurd (inside.2 contains)
          (activePeriod?_eq_none_iff.1 located)
    | some active =>
        have known := (names active (mem_periods_of_active located)).2
        obtain ⟨query, prepared⟩ :=
          prepare_inside accepted compiled located known
        exact ⟨query, active, prepared, rfl⟩
  refine ⟨span, present, ⟨?_, fun outside => ⟨_, refused outside⟩⟩,
    fun outside => ⟨refused outside, rfl⟩, ?_⟩
  · rintro ⟨failure, failed⟩ contains
    obtain ⟨query, _, prepared, _⟩ := answered contains
    cases failed.symm.trans prepared
  · intro contains
    obtain ⟨query, active, prepared, located⟩ := answered contains
    have facts := compiled.prepared prepared
    have activeMember := mem_periods_of_active located
    refine ⟨query, active, prepared, activeMember, ?_, ?_, ?_⟩
    · intro period member
      constructor
      · intro periodContains
        rw [tiles] at member activeMember
        exact Builder.periodVariable_unique member activeMember
          periodContains (contains_of_active located)
      · rintro rfl
        exact contains_of_active located
    · intro vertex contained
      exact facts.bound_of_contained compiled distinct timed located
        contained
    · intro truth assumed bound
      exact facts.exists_contained compiled distinct timed located
        wellFormed assumed bound

/-- A time in the first morning of a month of the year 2027. -/
def morningOf (month : Nat) (valid : IsDate 2027 month 1) : Instant :=
  ⟨⟨2027, month, 1, valid⟩, 9, 30, 15, 5, by decide, by decide, by decide,
    by decide⟩

/-- Two months are enabled, and an id is bound to the second one. -/
def secondMonthSteps : List Builder.Step :=
  [.model (.addPrimitives ["a"]),
    .enablePeriod ⟨morningOf 1 (by decide), morningOf 3 (by decide)⟩,
    .assumeInPeriod "a" ⟨morningOf 2 (by decide), morningOf 3 (by decide)⟩]

theorem Ruleset.prepare_at_instant_second_month :
    ∃ ruleset query,
      ((Builder.ofModel Model.empty).run secondMonthSteps).build =
        .ok ruleset ∧
      ruleset.prepare [] (some (morningOf 2 (by decide))) {} = .ok query ∧
      (∀ vertex : Vertex query.ids,
        query.polyhedron.Contains vertex.entries → vertex.value "a" = 1) ∧
      ruleset.prepare [] (some (morningOf 3 (by decide))) {} =
        .error (.error (.timeOutside (morningOf 3 (by decide)))) := by
  have computed :
      (do
        let ruleset ←
          ((Builder.ofModel Model.empty).run
            secondMonthSteps).build.toOption
        let _ ← (ruleset.prepare [] none {}).toOption
        return decide (ruleset.periods.length = 2) : Option Bool) =
        some true := by
    decide +kernel
  simp only [Option.bind_eq_bind, Option.pure_def, Option.bind_eq_some_iff,
    Option.some.injEq, toOption_eq_some_iff, decide_eq_true_eq]
    at computed
  obtain ⟨ruleset, built, free, accepted, two⟩ := computed
  have some : ruleset.periods ≠ [] := by
    intro none
    rw [none] at two
    cases two
  have checked : ∀ step ∈ secondMonthSteps, step.Checked := by
    decide +kernel
  have distinct :
      IdsDetermine
        ((Builder.ofModel Model.empty).run secondMonthSteps).pool := by
    decide +kernel
  have bounds :
      ((Builder.ofModel Model.empty).run secondMonthSteps).bounds =
        [⟨"a", morningOf 2 (by decide), morningOf 3 (by decide)⟩] := by
    decide +kernel
  have enabled : ((Builder.ofModel Model.empty).run secondMonthSteps).span =
      Option.some ⟨morningOf 1 (by decide), morningOf 3 (by decide)⟩ := by
    decide +kernel
  obtain ⟨_, present, _, _, inside⟩ :=
    prepare_at_instant secondMonthSteps ruleset [] {} free
      (morningOf 2 (by decide)) built checked some distinct accepted
  obtain ⟨_, otherPresent, _, outside, _⟩ :=
    prepare_at_instant secondMonthSteps ruleset [] {} free
      (morningOf 3 (by decide)) built checked some distinct accepted
  cases enabled.symm.trans present
  cases enabled.symm.trans otherPresent
  obtain ⟨query, active, prepared, _, _, bound, _⟩ := inside (by decide)
  refine ⟨ruleset, query, built, prepared, ?_, (outside (by decide)).1⟩
  intro vertex contained
  have held := (bound vertex contained).2
  rw [bounds] at held
  exact held _ List.mem_cons_self (by decide)

end Configurator
