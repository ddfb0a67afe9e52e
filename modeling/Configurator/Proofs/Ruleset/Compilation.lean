import Configurator.Proofs.Ruleset.Compiled
import Configurator.Proofs.Ruleset.Contents
import Configurator.Proofs.Ruleset.Requests

/-!
# Compilation is correct

The requests that were granted say what a built rule set must mean: what
they assumed holds, exactly one atom of the span is active in case there is
a span, and what they bound to a period that covers the active atom holds.
The rule set contains the evaluations of exactly those primitives for which
this is so, and what they preferred does not matter.
-/

namespace Configurator

open Configurator.Calendar Configurator.Collection Configurator.Linear
  Configurator.Logic Configurator.Schedule

namespace Logic.Model.WellFormed

variable {model : Model} {polyhedron : Polyhedron} {truth : String → Bool}
  (wellFormed : model.WellFormed)
  (represents : polyhedron.Represents model.ids model.inequalities)

/-- Evaluation keeps the values of the primitives. -/
theorem value_evaluate
    (model : Model)
    (truth : String → Bool)
    (id : String)
    (primitive : id ∈ model.primitives) :
    (Vertex.ofTruth model.ids (model.evaluate truth)).value id =
      (truth id).toInt := by
  obtain ⟨known, absent⟩ := mem_primitives.1 primitive
  rw [Vertex.value_ofTruth known, evaluate_of_notMem absent]

include wellFormed represents in
/-- Nothing but the evaluation extends values of the primitives. -/
theorem eq_evaluate
    {vertex : Vertex model.ids}
    (extended : ∀ id ∈ model.primitives, vertex.value id = (truth id).toInt)
    (contained : polyhedron.Contains vertex.entries) :
    vertex = Vertex.ofTruth model.ids (model.evaluate truth) :=
  (wellFormed.consistent_iff extended).1
    ((wellFormed.contains_iff represents vertex).1 contained).1

include wellFormed represents in
/--
There is an extension exactly if the evaluation makes the assumptions one.
-/
theorem exists_extension_iff :
    (∃ vertex : Vertex model.ids,
      (∀ id ∈ model.primitives, vertex.value id = (truth id).toInt) ∧
      polyhedron.Contains vertex.entries) ↔
      ∀ id ∈ model.assumed,
        (Vertex.ofTruth model.ids (model.evaluate truth)).value id = 1 := by
  constructor
  · rintro ⟨vertex, extended, contained⟩
    rw [← wellFormed.eq_evaluate represents extended contained]
    exact ((wellFormed.contains_iff represents vertex).1 contained).2
  · intro assumed
    have extended := value_evaluate model truth
    have consistent := (wellFormed.consistent_iff extended).2 rfl
    exact ⟨_, extended,
      (wellFormed.contains_iff represents _).2 ⟨consistent, assumed⟩⟩

end Logic.Model.WellFormed

namespace Builder

variable {builder : Builder} {lowered : Lowered}

/-! ## What a run of requests has recorded -/

variable {requests : List Step}

theorem Records.mem_assumed_iff
    (records : (ofModel Model.empty).Records requests builder)
    {id : String} :
    id ∈ builder.model.assumed ↔ id ∈ requests.flatMap Step.assumedIds := by
  rw [records.assumed]
  exact OrderedSet.mem_ofList

theorem Records.bounds_eq
    {model : Model}
    (records : (ofModel model).Records requests builder) :
    builder.bounds = requests.filterMap Step.bound? :=
  records.bounds

theorem Records.span_eq
    {model : Model}
    (records : (ofModel model).Records requests builder) :
    builder.span =
      (requests.filterMap Step.enabled?).getLast?.or
        (spanOf (requests.filterMap Step.bound?)) := by
  rw [Builder.span, records.bounds_eq, records.enabledPeriod]
  exact congrArg (Option.or · _) Option.or_none

/-! ## The whole compilation -/

/--
Compilation is correct.  The periods of a built rule set are the atoms of
its span, as the granted requests give them.  Every choice of values for the
primitives has one bottom-up evaluation, which is the only extension that
the polyhedron can contain; it contains it exactly if everything that was
assumed holds, exactly one period is active in case there are any, and
everything that was bound to a period that covers the active one holds.
-/
theorem build_correct
    (steps : List Step)
    (ruleset : Ruleset) :
    let builder := (ofModel Model.empty).run steps
    let granted := (ofModel Model.empty).granted steps
    let bounds := granted.filterMap Step.bound?
    let span :=
      (granted.filterMap Step.enabled?).getLast?.or (spanOf bounds)
    IdsDetermine
      (builder.model.constraints ++
        builder.model.constructed builder.lowerSteps) →
    builder.build = .ok ruleset →
    ruleset.periods =
      span.elim [] (fun span => periodVariables (atoms span bounds)) ∧
    ∃ lowered,
      builder.lower = .ok lowered ∧
      ruleset.ids = lowered.model.ids ∧
      builder.model.GrowsTo lowered.model ∧
      lowered.model.primitives =
        builder.model.primitives ++ ruleset.periods.map PeriodVariable.id ∧
      ∀ truth : String → Bool,
        let point :=
          Vertex.ofTruth ruleset.ids (lowered.model.evaluate truth)
        let Extends (vertex : Vertex ruleset.ids) : Prop :=
          ∀ id ∈ lowered.model.primitives,
            vertex.value id = (truth id).toInt
        Extends point ∧
        (∀ vertex : Vertex ruleset.ids,
          Extends vertex →
          ruleset.polyhedron.Contains vertex.entries →
          vertex = point) ∧
        ((∃ vertex : Vertex ruleset.ids,
           Extends vertex ∧ ruleset.polyhedron.Contains vertex.entries) ↔
          (∀ id ∈ granted.flatMap Step.assumedIds, point.value id = 1) ∧
          (ruleset.periods ≠ [] →
            ∃! period,
              period ∈ ruleset.periods ∧ point.value period.id = 1) ∧
          ∀ active ∈ ruleset.periods,
            point.value active.id = 1 →
            ∀ bound ∈ bounds,
              bound.period.Covers active.period →
              point.value bound.id = 1) := by
  intro builder granted bounds span distinct built
  have records := records_run (ofModel Model.empty) steps
  have started : builder.model.WellFormed :=
    wellFormed_run Model.wellFormed_empty steps
  obtain ⟨lowered, computed, rows, idsEq, periodsEq⟩ := build_eq_ok built
  have wellFormed : lowered.model.WellFormed :=
    wellFormed_lowered started computed
  have represents := Model.polyhedron_represents rows
  have primitives := primitives_lowered started computed
  obtain ⟨_, _, timed, _⟩ := lower_eq_ok computed
  have tiled := lowerPeriods_eq_variables timed
  rw [records.span_eq, records.bounds_eq] at tiled
  -- The columns are those of the lowered model, as are the vertices over
  -- them.
  obtain ⟨polyhedron, ids, selectable, independent, preferredSupports,
    preferences, periods, enabledPeriod⟩ := ruleset
  dsimp only at represents idsEq periodsEq ⊢
  subst idsEq periodsEq
  refine ⟨tiled, lowered, computed, rfl, growsTo_lowered computed,
    primitives, ?_⟩
  intro truth
  have extended := Model.WellFormed.value_evaluate lowered.model truth
  have consistent := (wellFormed.consistent_iff extended).2 rfl
  refine ⟨extended,
    fun vertex => wellFormed.eq_evaluate represents, ?_⟩
  rw [wellFormed.exists_extension_iff represents,
    lower_iff computed distinct (Vertex.value_binary _) consistent,
    records.bounds_eq]
  refine and_congr_left fun _ => ?_
  exact forall_congr' fun id =>
    imp_congr_left records.mem_assumed_iff

/-- Of two things exactly one has a property if the other one has not. -/
theorem existsUnique_mem_pair
    {α : Type}
    {holds : α → Prop}
    {first second : α}
    (apart : first ≠ second) :
    (∃! item, item ∈ [first, second] ∧ holds item) ↔
      (holds first ↔ ¬ holds second) := by
  simp only [List.mem_cons, List.not_mem_nil, or_false]
  constructor
  · rintro ⟨item, ⟨rfl | rfl, held⟩, unique⟩
    · exact iff_of_true held fun other =>
        apart (unique second ⟨Or.inr rfl, other⟩).symm
    · exact iff_of_false
        (fun other => apart (unique first ⟨Or.inl rfl, other⟩))
        fun absent => absent held
  · intro either
    by_cases held : holds first
    · refine ⟨first, ⟨Or.inl rfl, held⟩, ?_⟩
      rintro _ ⟨rfl | rfl, other⟩
      · rfl
      · exact absurd other (either.1 held)
    · have other : holds second :=
        not_not.1 fun absent => held (either.2 absent)
      refine ⟨second, ⟨Or.inr rfl, other⟩, ?_⟩
      rintro _ ⟨rfl | rfl, again⟩
      · exact absurd again held
      · rfl

/-- The first instant of a month of the year 2026. -/
def startOf (month : Nat) (valid : IsDate 2026 month 1) : Instant :=
  ⟨⟨2026, month, 1, valid⟩, 0, 0, 0, 0, by decide, by decide, by decide,
    by decide⟩

/--
An id that is preferred and assumed, and another one that is bound to a
month.
-/
def monthSteps : List Step :=
  [.model (.addPrimitives ["a", "b"]), .prefer ["a"], .assume ["a"],
    .assumeInPeriod "b" ⟨startOf 1 (by decide), startOf 2 (by decide)⟩]

/--
Two months are enabled as well, and a request for the time after them is
refused.
-/
def twoMonthSteps : List Step :=
  monthSteps ++
    [.prefer ["b"],
      .enablePeriod ⟨startOf 1 (by decide), startOf 3 (by decide)⟩,
      .assumeInPeriod "b" ⟨startOf 2 (by decide), startOf 4 (by decide)⟩]

theorem build_correct_month :
    ∃ ruleset lowered,
      ((ofModel Model.empty).run twoMonthSteps).build = .ok ruleset ∧
      ((ofModel Model.empty).run twoMonthSteps).lower = .ok lowered ∧
      ruleset.periods =
        [⟨"period_0", startOf 1 (by decide), startOf 2 (by decide)⟩,
          ⟨"period_1", startOf 2 (by decide), startOf 3 (by decide)⟩] ∧
      lowered.model.primitives = ["a", "b", "period_0", "period_1"] ∧
      ∀ truth : String → Bool,
        let Extends (vertex : Vertex ruleset.ids) : Prop :=
          ∀ id ∈ lowered.model.primitives,
            vertex.value id = (truth id).toInt
        (∀ vertex : Vertex ruleset.ids,
          Extends vertex →
          ruleset.polyhedron.Contains vertex.entries →
          vertex =
            Vertex.ofTruth ruleset.ids (lowered.model.evaluate truth)) ∧
        ((∃ vertex : Vertex ruleset.ids,
           Extends vertex ∧ ruleset.polyhedron.Contains vertex.entries) ↔
          truth "a" = true ∧
          truth "period_0" ≠ truth "period_1" ∧
          (truth "period_0" = true → truth "b" = true)) := by
  have success : ((ofModel Model.empty).run
      twoMonthSteps).build.toOption.isSome = true := by
    decide +kernel
  obtain ⟨ruleset, built⟩ := Option.isSome_iff_exists.1 success
  rw [toOption_eq_some_iff] at built
  have assumed : ((ofModel Model.empty).granted twoMonthSteps).flatMap
      Step.assumedIds = ["a"] := by
    decide +kernel
  have bound : ((ofModel Model.empty).granted twoMonthSteps).filterMap
      Step.bound? =
        [⟨"b", startOf 1 (by decide), startOf 2 (by decide)⟩] := by
    decide +kernel
  have enabled : ((ofModel Model.empty).granted twoMonthSteps).filterMap
      Step.enabled? =
        [⟨startOf 1 (by decide), startOf 3 (by decide)⟩] := by
    decide +kernel
  have declared : ((ofModel Model.empty).run
      twoMonthSteps).model.primitives = ["a", "b"] := by
    decide +kernel
  obtain ⟨tiled, lowered, computed, _, _, primitives, correct⟩ :=
    build_correct twoMonthSteps ruleset (by decide +kernel) built
  rw [bound, enabled] at tiled
  have periods : ruleset.periods =
      [⟨"period_0", startOf 1 (by decide), startOf 2 (by decide)⟩,
        ⟨"period_1", startOf 2 (by decide), startOf 3 (by decide)⟩] := by
    rw [tiled]
    decide +kernel
  rw [declared, periods] at primitives
  refine ⟨ruleset, lowered, built, computed, periods, primitives, ?_⟩
  intro truth
  obtain ⟨extended, unique, contains⟩ := correct truth
  refine ⟨unique, contains.trans ?_⟩
  have value : ∀ id ∈ ["a", "b", "period_0", "period_1"],
      (Vertex.ofTruth ruleset.ids (lowered.model.evaluate truth)).value id =
        (truth id).toInt :=
    fun id member => extended id (primitives ▸ member)
  have one : ∀ verdict : Bool, verdict.toInt = 1 ↔ verdict = true := by
    decide
  have differ : ∀ left right : Bool,
      (left = true ↔ ¬ right = true) ↔ ¬ left = right := by
    decide
  have covers :
      (⟨startOf 1 (by decide), startOf 2 (by decide)⟩ : Period).Covers
        ⟨startOf 1 (by decide), startOf 2 (by decide)⟩ := by
    decide
  have apart :
      ¬ (⟨startOf 1 (by decide), startOf 2 (by decide)⟩ : Period).Covers
        ⟨startOf 2 (by decide), startOf 3 (by decide)⟩ := by
    decide
  simp only [List.forall_mem_cons] at value
  obtain ⟨a, b, first, second, _⟩ := value
  rw [assumed, bound, periods, existsUnique_mem_pair (by decide)]
  simp only [List.forall_mem_cons, a, b, first, second, one, covers, apart]
  simp only [ne_eq, reduceCtorEq, List.not_mem_nil, not_false_eq_true,
    true_implies, false_implies, implies_true, and_true, differ]

end Builder

end Configurator
