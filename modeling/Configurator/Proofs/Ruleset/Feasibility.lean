import Configurator.Proofs.Objective.Range
import Configurator.Proofs.Ruleset.Pinning

/-!
# Solutions are configurations

The exhaustive optimiser answers the problem of every query that is small
enough, because neither the rows nor the objective leave the words.  A
feasible point, together with what the selections say about the independent
variables, is a configuration of the rule set, and every configuration
extends to a feasible point.  So solving fails exactly if there is no
configuration, and otherwise a solution lists the selectable values of one.
-/

namespace Configurator

open Configurator.Arithmetic Configurator.Calendar Configurator.Collection
  Configurator.Linear Configurator.Logic Configurator.Objective
  Configurator.Optimizer Configurator.Request Configurator.Schedule

/--
The vertex satisfies the rule set, and the period of the instant is active.
-/
def Ruleset.Allows
    (ruleset : Ruleset)
    (time : Option Instant)
    (vertex : Vertex ruleset.ids) :
    Prop :=
  ruleset.polyhedron.Contains vertex.entries ∧
    ∀ period ∈ ruleset.activePeriod? time, vertex.value period.id = 1

instance
    (ruleset : Ruleset)
    (time : Option Instant)
    (vertex : Vertex ruleset.ids) :
    Decidable (ruleset.Allows time vertex) :=
  inferInstanceAs (Decidable (ruleset.polyhedron.Contains vertex.entries ∧
    ∀ period ∈ ruleset.activePeriod? time, vertex.value period.id = 1))

namespace Query.Prepared

variable {query : Query} {ruleset : Ruleset} {builder : Builder}
  {lowered : Builder.Lowered} {selections : List Selection}
  {time : Option Instant} {config : WeightConfig}
  (prepared : query.Prepared ruleset lowered.model selections time config)
  (compiled : ruleset.Compiled builder lowered)

/-! ## Range of the problem -/

include prepared compiled in
/--
The operands of every constraint of the query are variables of the problem.
-/
theorem operand_decided
    {constraint : Constraint}
    (stored :
      constraint ∈
        (lowered.model.asked query.selections
          (ruleset.activePeriod? time)).constraints)
    {operand : String}
    (mentioned : operand ∈ constraint.operands) :
    operand ∈ query.decided := by
  have wellFormed := prepared.wellFormed compiled
  rw [mem_decided, prepared.independent_eq]
  constructor
  · show operand ∈ (NamedPolyhedron.mk query.polyhedron query.ids).ids
    rw [prepared.describes.ids_eq]
    exact wellFormed.operand_known stored mentioned
  · intro independent
    have cardinality := (wellFormed.wellMade constraint stored).cardinality
    obtain ⟨link, member, nonzero⟩ := cardinality.exists_link_ne_zero
      (wellFormed.id_notMem_operands stored) mentioned
    exact nonzero
      (prepared.independent_unlinked compiled independent stored member)

variable {rows : List Inequality}
  (listed :
    ∀ row,
      row ∈ rows ↔
        row ∈
          (lowered.model.asked query.selections
            (ruleset.activePeriod? time)).inequalities)

include prepared compiled listed in
/--
The exhaustive optimiser answers the problem of a query if it has few enough
variables.
-/
theorem exists_answer
    (pool : IdsDetermine builder.pool)
    (nonpositive : config.notSelected ≤ 0)
    (factor : 0 ≤ config.periodFactor)
    {limit : Nat}
    (few : query.decided.length ≤ limit)
    (moderate : query.decided.length < 1152921504606846976) :
    ∃ response, exhaustive limit (query.problemOf rows) = .ok response := by
  have short :
      ∀ constraint ∈
          (lowered.model.asked query.selections
            (ruleset.activePeriod? time)).constraints,
        constraint.operands.length ≤ query.decided.length := by
    intro constraint stored
    have nodup : constraint.operands.Nodup := Coefficients.ids_nodup _
    have decided : constraint.operands ⊆ query.decided := fun operand
        mentioned =>
      prepared.operand_decided compiled stored mentioned
    exact (nodup.subperm decided).length_le
  apply Query.exists_exhaustive few
  · intro row member
    have weight :=
      ((prepared.wellFormed compiled).inequalities_le short row
        ((listed row).1 member)).1
    omega
  · intro point feasible
    exact load_weights_le prepared.derived nonpositive factor
      compiled.periods_nodup (masked_binary_of_feasible feasible)
      (atMostOne_of_feasible compiled listed pool feasible)

/-! ## Feasible points and configurations -/

include prepared compiled listed in
/-- At a feasible point the period of the instant is active. -/
theorem active_of_feasible
    {point : String → Int}
    (feasible : (query.problemOf rows).Feasible point)
    {period : PeriodVariable}
    (active : period ∈ ruleset.activePeriod? time) :
    masked query.decided point period.id = 1 := by
  have holds := ((query.feasible_iff rows point).1 feasible).2
  exact prepared.active_of_held compiled
    (masked_binary_of_feasible feasible)
    (fun row member => holds row ((listed row).2 member)) active

include prepared compiled listed in
/--
A feasible point and the last selections of the independent variables are a
configuration.
-/
theorem exists_allowed
    {point : String → Int}
    (feasible : (query.problemOf rows).Feasible point) :
    ∃ vertex : Vertex ruleset.ids,
      ruleset.Allows time vertex ∧
      ∀ id ∈ ruleset.ids,
        vertex.value id =
          if id ∈ ruleset.independent then query.independentValue id
          else masked query.decided point id := by
  have holds := ((query.feasible_iff rows point).1 feasible).2
  obtain ⟨vertex, values⟩ := @Vertex.exists_of_binary ruleset.ids
    (fun id => if id ∈ ruleset.independent then query.independentValue id
      else masked query.decided point id) (by
    intro id _
    split
    · exact query.independentValue_binary id
    · exact masked_binary_of_feasible feasible id)
  refine ⟨vertex, ⟨(compiled.contains_iff_of_agree values).2 ?_, ?_⟩,
    values⟩
  · intro row member
    have same :=
      holds row ((listed row).2 (Model.mem_inequalities_asked member))
    refine (Inequality.holds_congr_nonzero fun id nonzero =>
             if_neg fun independent => ?_).2 same
    exact nonzero ((compiled.independent id independent).2 row member)
  · intro period active
    have one := prepared.active_of_feasible compiled listed feasible active
    have dependent : period.id ∉ ruleset.independent := by
      intro independent
      have absent : period.id ∉ query.decided := by
        rw [mem_decided, prepared.independent_eq]
        exact fun decided => decided.2 independent
      rw [masked_of_notMem absent] at one
      cases one
    have known :=
      compiled.period_known (Ruleset.mem_periods_of_active active)
    rw [values period.id known, if_neg dependent, one]

include prepared compiled listed in
/--
The problem of a query has a feasible point exactly if the rule set has a
configuration.
-/
theorem exists_feasible_iff
    (pool : IdsDetermine builder.pool) :
    (∃ point, (query.problemOf rows).Feasible point) ↔
      ∃ vertex, ruleset.Allows time vertex := by
  constructor
  · rintro ⟨point, feasible⟩
    obtain ⟨vertex, allowed, _⟩ :=
      prepared.exists_allowed compiled listed feasible
    exact ⟨vertex, allowed⟩
  · rintro ⟨vertex, contained, active⟩
    obtain ⟨extended, feasible, _⟩ :=
      prepared.exists_feasible compiled pool listed vertex contained active
    exact ⟨extended, feasible⟩

end Query.Prepared

/-! ## Solving -/

/--
Solutions obey the rules and failures are real.  For a query whose problem
has at most 24 variables, solving with the exhaustive optimiser fails
exactly if no zeros and ones satisfy the built rule set with the period of
the instant active.  Otherwise it returns a solution that lists what some
such point says about the selectable variables, provided that ids determine
the constraints.
-/
theorem Ruleset.solve_obeys_rules
    (steps : List Builder.Step)
    (ruleset : Ruleset)
    (selections : List Selection)
    (time : Option Instant)
    (query : Query)
    (built : ((Builder.ofModel Model.empty).run steps).build = .ok ruleset)
    (prepared : ruleset.prepare selections time {} = .ok query)
    (distinct : IdsDetermine ((Builder.ofModel Model.empty).run steps).pool)
    (few :
      ∀ problem,
        query.problem = .ok problem →
        problem.polyhedron.unknowns.length ≤ 24) :
    ((∃ error,
       ruleset.solve (exhaustive 24) selections time =
         .error (.error error) ∧
       error.kind = .solverFailed) ↔
      ¬ ∃ vertex, ruleset.Allows time vertex) ∧
    ((∃ vertex, ruleset.Allows time vertex) →
      ∃ solution vertex,
        ruleset.solve (exhaustive 24) selections time = .ok solution ∧
        ruleset.Allows time vertex ∧
        solution.values.entries =
          ruleset.selectable.toList.map fun id =>
            (id, vertex.value id)) := by
  obtain ⟨lowered, compiled⟩ := Builder.compiled_of_build
    (Builder.wellFormed_run Model.wellFormed_empty steps) built
  have facts := compiled.prepared prepared
  rcases facts.problem_eq with ⟨rows, computed, listed⟩
  have count : query.decided.length ≤ 24 := by
    have unknowns := few _ computed
    rwa [show (query.problemOf rows).polyhedron.unknowns.length =
        query.decided.length from
      List.length_map _] at unknowns
  obtain ⟨response, answered⟩ :=
    facts.exists_answer compiled listed distinct (by decide) (by decide)
      count (by omega)
  have solved := solve_eq prepared computed answered
  have possible := facts.exists_feasible_iff compiled listed distinct
  by_cases feasible : ∃ point, (query.problemOf rows).Feasible point
  · obtain ⟨answer, usable, optimal⟩ :=
      Query.exhaustive_solves answered feasible
    obtain ⟨solution, decoded, entries⟩ :=
      facts.exists_entries compiled usable optimal.feasible
    obtain ⟨vertex, allowed, values⟩ :=
      facts.exists_allowed compiled listed optimal.feasible
    rw [decoded] at solved
    refine ⟨⟨?_, fun impossible => absurd (possible.1 feasible) impossible⟩,
      fun _ =>
        ⟨solution, vertex, solved, allowed, ?_⟩⟩
    · rintro ⟨error, failed, _⟩
      cases solved.symm.trans failed
    · rw [entries]
      apply List.map_congr_left
      intro id selectable
      have known : id ∈ ruleset.ids := by
        rw [compiled.ids_eq]
        exact compiled.selectable_known selectable
      rw [values id known]
  · rw [Query.decode_eq_error (Query.exhaustive_fails answered feasible)]
      at solved
    have refused : ¬ ∃ vertex, ruleset.Allows time vertex :=
      mt possible.2 feasible
    exact ⟨⟨fun _ => refused, fun _ => ⟨_, solved, rfl⟩⟩,
      fun allowed => absurd allowed refused⟩

theorem Ruleset.solve_obeys_rules_either :
    ∃ ruleset solution vertex,
      ((Builder.ofModel Model.empty).run eitherSteps).build = .ok ruleset ∧
      ruleset.solve (exhaustive 24)
          [⟨"b", [], .remove⟩, ⟨"x", ["y"], .remove⟩] none =
        .ok solution ∧
      ruleset.Allows none vertex ∧
      solution.values.entries =
        ruleset.selectable.toList.map fun id => (id, vertex.value id) := by
  have checked :
      (do
        let ruleset ←
          ((Builder.ofModel Model.empty).run eitherSteps).build.toOption
        let query ←
          (ruleset.prepare [⟨"b", [], .remove⟩, ⟨"x", ["y"], .remove⟩] none
            {}).toOption
        let problem ← query.problem.toOption
        return decide
          (IdsDetermine
              ((Builder.ofModel Model.empty).run eitherSteps).pool ∧
            problem.polyhedron.unknowns.length ≤ 24 ∧
            ruleset.Allows none
              (Vertex.ofTruth ruleset.ids fun id =>
                id ∉ ["x", "y", bothId])) : Option Bool) =
        some true := by
    decide +kernel
  simp only [Option.bind_eq_bind, Option.pure_def, Option.bind_eq_some_iff,
    Option.some.injEq, toOption_eq_some_iff, decide_eq_true_eq]
    at checked
  obtain ⟨ruleset, built, query, prepared, problem, computed, distinct, few,
    allowed⟩ := checked
  obtain ⟨_, exact⟩ :=
    solve_obeys_rules eitherSteps ruleset
      [⟨"b", [], .remove⟩, ⟨"x", ["y"], .remove⟩] none query built prepared
      distinct (by
        rintro other same
        cases computed.symm.trans same
        exact few)
  obtain ⟨solution, vertex, solved, inside, entries⟩ := exact ⟨_, allowed⟩
  exact ⟨ruleset, solution, vertex, built, solved, inside, entries⟩

/--
The name of a variable continues another one so that two conjunctions have
one text.
-/
def continuedSteps : List Builder.Step :=
  [.model (.addPrimitives ["a", "a1b", "b1period_0"]),
    .model (.set .conjunction ["a", "b1period_0"]), .assume ["a1b"],
    .enablePeriod ⟨morningOf 4 (by decide), morningOf 5 (by decide)⟩]

/--
A confused conjunction makes solving fail, although some configuration is
allowed.
-/
theorem Ruleset.solve_fails_for_continued_name :
    ∃ ruleset query problem, ∃ vertex : Vertex ruleset.ids,
      ((Builder.ofModel Model.empty).run continuedSteps).build =
        .ok ruleset ∧
      ruleset.prepare [] (some (morningOf 4 (by decide))) {} = .ok query ∧
      query.problem = .ok problem ∧
      problem.polyhedron.unknowns.length ≤ 24 ∧
      ruleset.Allows (some (morningOf 4 (by decide))) vertex ∧
      ruleset.solve (exhaustive 24) [] (some (morningOf 4 (by decide))) =
        .error (.error (.solverFailed "infeasible")) := by
  have checked :
      (do
        let ruleset ←
          ((Builder.ofModel Model.empty).run continuedSteps).build.toOption
        let query ←
          (ruleset.prepare [] (some (morningOf 4 (by decide)))
            {}).toOption
        let problem ← query.problem.toOption
        let best ← (bestAssignment problem).toOption
        return decide
          (best = none ∧
            problem.polyhedron.unknowns.length ≤ 24 ∧
            ruleset.Allows (some (morningOf 4 (by decide)))
              (Vertex.ofTruth ruleset.ids fun id => id ≠ "a1b")) :
        Option Bool) =
        some true := by
    decide +kernel
  simp only [Option.bind_eq_bind, Option.pure_def, Option.bind_eq_some_iff,
    Option.some.injEq, toOption_eq_some_iff, decide_eq_true_eq]
    at checked
  obtain ⟨ruleset, built, query, prepared, problem, computed, _, assigned,
    rfl, few, allowed⟩ := checked
  refine ⟨ruleset, query, problem, _, built, prepared, computed, few,
    allowed, ?_⟩
  rw [solve_eq prepared computed
      (exhaustive_of_bestAssignment few assigned),
    Query.decode_eq_error single_answerOf_none]
  rfl

end Configurator
