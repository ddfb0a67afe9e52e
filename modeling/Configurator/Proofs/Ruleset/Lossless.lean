import Configurator.Proofs.Objective.Range
import Configurator.Proofs.Ruleset.Lexicographic
import Configurator.Proofs.Ruleset.Pinning

/-!
# Leaving columns out loses nothing

An optimiser is not asked about the columns that no row mentions.  A point
of a query's polyhedron is therefore feasible for the problem and the other
way round, whatever it has in these columns.  The weight of such a column is
that of the last selection of its variable, or it is not positive; so what
decoding reads there is as good as anything, and an optimal answer together
with it is an optimal point of the whole polyhedron.
-/

namespace Configurator

open Configurator.Calendar Configurator.Collection Configurator.Linear
  Configurator.Logic Configurator.Objective Configurator.Optimizer
  Configurator.Request Configurator.Schedule

/-! ## The score of all columns -/

namespace Query

variable {query : Query}

/-- The weight of a column, which is zero where none has been derived. -/
def weightOf (query : Query) (id : String) : Int :=
  (query.weights.values.get? id).getD 0

/--
The weights of all columns times the values of their variables, added up.
-/
def score (query : Query) (value : String → Int) : Int :=
  (query.ids.toList.map fun id => query.weightOf id * value id).sum

/-- The variables without a column in the problem. -/
def undecided (query : Query) : List String :=
  query.ids.toList.filter fun id => !decide (id ∉ query.independent)

theorem mem_undecided
    {id : String} :
    id ∈ query.undecided ↔ id ∈ query.ids ∧ id ∈ query.independent := by
  simp only [undecided]
  rw [List.mem_filter, Bool.not_eq_true', decide_eq_false_iff_not,
    Decidable.not_not]
  exact Iff.rfl

/--
The score is the objective of the problem and the terms of the other
columns.
-/
theorem score_eq
    (query : Query)
    (rows : List Inequality)
    (value : String → Int) :
    query.score value =
      (query.problemOf rows).objectiveAt value +
        (query.undecided.map fun id =>
          query.weightOf id * value id).sum := by
  rw [objectiveAt_problemOf,
    ← sum_lookup query.decided_nodup query.weights.values.nodup]
  exact (sum_filter_add _ _ _).symm

section Agreement

variable {left right : String → Int}
  (agree : ∀ id ∈ query.decided, left id = right id)

include agree

theorem objectiveAt_congr
    (rows : List Inequality) :
    (query.problemOf rows).objectiveAt left =
      (query.problemOf rows).objectiveAt right := by
  rw [objectiveAt_problemOf, objectiveAt_problemOf, masked_congr agree]

theorem Feasible.congr
    {rows : List Inequality}
    (feasible : (query.problemOf rows).Feasible right) :
    (query.problemOf rows).Feasible left := by
  rw [feasible_iff] at feasible ⊢
  rw [masked_congr agree]
  exact ⟨fun id member => agree id member ▸ feasible.1 id member,
    feasible.2⟩

end Agreement

/--
A feasible point is completed to a vertex by what decoding reads in the
other columns.
-/
theorem exists_completed
    {rows : List Inequality}
    {point : String → Int}
    (feasible : (query.problemOf rows).Feasible point) :
    ∃ vertex : Vertex query.ids,
      (∀ id ∈ query.decided, vertex.value id = point id) ∧
      ∀ id ∈ query.ids,
        id ∈ query.independent →
        vertex.value id = query.independentValue id := by
  have binary :
      ∀ id ∈ query.ids,
        (if id ∈ query.independent then query.independentValue id
        else point id) =
          0 ∨
        (if id ∈ query.independent then query.independentValue id
        else point id) =
          1 := by
    intro id known
    split
    · exact query.independentValue_binary id
    · rename_i dependent
      exact ((query.feasible_iff rows _).1 feasible).1 id
        (Query.mem_decided.2 ⟨known, dependent⟩)
  obtain ⟨vertex, values⟩ := Vertex.exists_of_binary binary
  refine ⟨vertex, fun id member => ?_, fun id known independent => ?_⟩
  · rcases Query.mem_decided.1 member with ⟨known, dependent⟩
    rw [values id known, if_neg dependent]
  · rw [values id known, if_pos independent]

end Query

namespace Query.Prepared

variable {query : Query} {ruleset : Ruleset} {builder : Builder}
  {lowered : Builder.Lowered} {selections : List Selection}
  {time : Option Instant} {config : WeightConfig} {value : String → Int}
  (prepared : query.Prepared ruleset lowered.model selections time config)
  (compiled : ruleset.Compiled builder lowered)

/-! ## Feasible points -/

section Feasible

variable (pool : IdsDetermine builder.pool)
  (binary : ∀ id, value id = 0 ∨ value id = 1)
  (held :
    ∀ row ∈
        (lowered.model.asked query.selections
          (ruleset.activePeriod? time)).inequalities,
      row.Holds value) {rows : List Inequality}
  (listed :
    ∀ row,
      row ∈ rows ↔
        row ∈
          (lowered.model.asked query.selections
            (ruleset.activePeriod? time)).inequalities)

include compiled pool binary held

/--
Where the rows of the query hold, all independent variables can be selected.
-/
theorem selectable_of_independent
    {id : String}
    (independent : id ∈ ruleset.independent) :
    id ∈ ruleset.selectable := by
  have known : ∀ row ∈ lowered.model.inequalities, row.Holds value :=
    fun row member => held row (Model.mem_inequalities_asked member)
  rcases compiled.primitive_cases
      (compiled.independent id independent).1 with
    selectable | period
  · exact selectable
  · rcases List.mem_map.1 period with ⟨periodVariable, member, rfl⟩
    exact absurd independent
      (compiled.period_notMem_independent pool binary known member)

theorem activeApart_of_held :
    ∀ period ∈ ruleset.activePeriod? time,
      period.id ∉ ruleset.independent := by
  have known : ∀ row ∈ lowered.model.inequalities, row.Holds value :=
    fun row member => held row (Model.mem_inequalities_asked member)
  intro period active
  exact compiled.period_notMem_independent pool binary known
    (Ruleset.mem_periods_of_active active)

omit binary held

include prepared listed in
/--
The points of the polyhedron are the feasible points, whatever the other
columns have.
-/
theorem contains_iff_feasible
    (vertex : Vertex query.ids) :
    query.polyhedron.Contains vertex.entries ↔
      (query.problemOf rows).Feasible vertex.value := by
  have binary := vertex.value_binary
  rw [prepared.contains_iff_of_agree fun _ _ => rfl, query.feasible_iff]
  constructor
  · intro held
    have activeApart := activeApart_of_held compiled pool binary held
    refine ⟨fun id _ => binary id, fun row member => ?_⟩
    exact prepared.held_masked compiled held activeApart row
      ((listed row).1 member)
  · rintro ⟨_, feasible⟩
    have masks :
        ∀ row ∈
            (lowered.model.asked query.selections
              (ruleset.activePeriod? time)).inequalities,
          row.Holds (masked query.decided vertex.value) :=
      fun row member => feasible row ((listed row).2 member)
    have activeApart := activeApart_of_held compiled pool
      (masked_binary fun id _ => binary id) masks
    exact fun row member =>
      (prepared.holds_masked_iff compiled activeApart member).1
        (masks row member)

end Feasible

/-! ## Columns that are left out -/

section Free

variable (distinct : IdsDetermine (builder.pool ++ query.conjunctions))
  (apart :
    ∀ conjunction ∈ query.conjunctions, conjunction.id ∉ ruleset.selectable)

include prepared distinct apart in
/-- The column of a selection has the weight of its target. -/
theorem weightOf_column
    {earlier later : List Selection}
    {selection : Selection}
    (split : query.selections = earlier ++ selection :: later) :
    query.weightOf selection.column =
      (Target.mk selection.column selection.action).weightAbove
        ((ruleset.weightInputs query.selections).threshold config)
        earlier.length := by
  have nodup := prepared.targets_nodup distinct apart
  rw [targets_of_split split, List.map_append, List.map_cons] at nodup
  have last := (List.nodup_cons.1 (List.nodup_append.1 nodup).2.1).1
  have weight := get?_of_derived prepared.derived (targets_of_split split)
    fun other member same => last (same ▸ List.mem_map_of_mem member)
  rw [List.length_map] at weight
  rw [weightOf, weight]
  rfl

include prepared distinct apart in
/--
Nothing is worth more in a column that is left out than what decoding reads
there.
-/
theorem weighs_most_of_independent
    (nonpositive : config.notSelected ≤ 0)
    (factor : 0 ≤ config.periodFactor)
    {id : String}
    (independent : id ∈ ruleset.independent)
    (selectable : id ∈ ruleset.selectable)
    {other : Int}
    (binary : other = 0 ∨ other = 1) :
    query.weightOf id * other ≤
      query.weightOf id * query.independentValue id := by
  by_cases named : ∃ selection ∈ query.selections, selection.id = id
  · obtain ⟨selection, member, rfl⟩ := named
    have single := prepared.not_composite_of_independent member independent
    obtain ⟨earlier, later, split⟩ := List.append_of_mem member
    have weight := prepared.weightOf_column distinct apart split
    have threshold :=
      (ruleset.weightInputs query.selections).threshold_nonnegative
        nonpositive factor
    have positive : 0 < 2 ^ earlier.length *
        ((ruleset.weightInputs query.selections).threshold config + 1) := by
      positivity
    rw [Selection.column_single single] at weight
    rw [weight, prepared.independentValue_of_mem member independent,
      Target.weightAbove]
    generalize 2 ^ earlier.length *
      ((ruleset.weightInputs query.selections).threshold config + 1) =
      amount at positive ⊢
    cases selection.action with
    | add =>
        simp only [Action.isAdd]
        rcases binary with rfl | rfl
        · simpa using positive.le
        · exact Int.le_refl _
    | remove =>
        simp only [Action.isAdd]
        rcases binary with rfl | rfl
        · exact Int.le_refl _
        · simpa using positive.le
  · -- no target has the column, so its weight is one below the targets
    push Not at named
    have untargeted :
        ∀ target ∈ (ruleset.weightInputs query.selections).targets,
          target.column ≠ id := by
      refine List.forall_mem_map.2 fun selection member same => ?_
      have here : selection.column = id := same
      rcases prepared.column_cases apart member with
        ⟨_, _, unselectable⟩ | ⟨_, column, _⟩
      · exact unselectable (here ▸ selectable)
      · exact named selection member (column.symm.trans here)
    have weight :=
      weight_nonpositive prepared.derived nonpositive factor untargeted
    rw [independentValue_of_unnamed named, Int.mul_zero]
    rcases binary with rfl | rfl
    · exact (Int.mul_zero _).le
    · rw [Int.mul_one]
      exact weight

end Free

/-! ## Optimal points -/

include prepared in
/--
An optimal point of the problem with what decoding reads elsewhere is an
optimal point.
-/
theorem score_le_of_optimal
    (distinct : IdsDetermine (builder.pool ++ query.conjunctions))
    (apart :
      ∀ conjunction ∈ query.conjunctions,
        conjunction.id ∉ ruleset.selectable)
    (nonpositive : config.notSelected ≤ 0)
    (factor : 0 ≤ config.periodFactor)
    {rows : List Inequality}
    {point : String → Int}
    (optimal : (query.problemOf rows).IsOptimal point)
    (selectable : ∀ id ∈ ruleset.independent, id ∈ ruleset.selectable)
    {vertex other : Vertex query.ids}
    (decided : ∀ id ∈ query.decided, vertex.value id = point id)
    (read :
      ∀ id ∈ ruleset.independent,
        vertex.value id = query.independentValue id)
    (feasible : (query.problemOf rows).Feasible other.value) :
    query.score other.value ≤ query.score vertex.value := by
  have columns : (query.problemOf rows).objectiveAt other.value ≤
      (query.problemOf rows).objectiveAt vertex.value := by
    rw [objectiveAt_congr decided rows]
    exact optimal.best other.value feasible
  have others :
      (query.undecided.map fun id =>
          query.weightOf id * other.value id).sum ≤
        (query.undecided.map fun id =>
          query.weightOf id * vertex.value id).sum := by
    apply List.sum_le_sum
    intro id member
    have independent := (mem_undecided.1 member).2
    rw [prepared.independent_eq] at independent
    rw [read id independent]
    exact prepared.weighs_most_of_independent distinct apart nonpositive
      factor independent (selectable id independent) (other.value_binary id)
  rw [query.score_eq rows, query.score_eq rows]
  exact Int.add_le_add columns others

end Query.Prepared

/--
Leaving columns out loses nothing.  The problem of a query is about the
variables that are not independent.  A vertex over all variables is in the
polyhedron of the query exactly if its values are feasible for the problem.
Every optimal answer is read as a solution, and the vertex with the values
of the answer and, where the problem has no column, those of the solution is
in the polyhedron and has the greatest score there.  This holds if ids
determine the constraints and no conjunction is named like something that
can be selected.
-/
theorem Ruleset.problem_lossless
    (steps : List Builder.Step)
    (ruleset : Ruleset)
    (selections : List Selection)
    (time : Option Instant)
    (config : WeightConfig)
    (query : Query)
    (built : ((Builder.ofModel Model.empty).run steps).build = .ok ruleset)
    (prepared : ruleset.prepare selections time config = .ok query)
    (nonpositive : config.notSelected ≤ 0)
    (factor : 0 ≤ config.periodFactor)
    (distinct :
      IdsDetermine
        (((Builder.ofModel Model.empty).run steps).pool ++
          query.conjunctions))
    (apart :
      ∀ conjunction ∈ query.conjunctions,
        conjunction.id ∉ ruleset.selectable) :
    ∃ problem,
      query.problem = .ok problem ∧
      problem.polyhedron.unknowns.map BoundedVariable.id =
        query.ids.toList.filter (· ∉ query.independent) ∧
      (∀ vertex : Vertex query.ids,
        query.polyhedron.Contains vertex.entries ↔
          problem.Feasible vertex.value) ∧
      ∀ response answer,
        response.single = .ok answer →
        problem.IsOptimal answer.point →
        ∃ (solution : Solution) (vertex : Vertex query.ids),
          query.decode response = .ok solution ∧
          (∀ unknown ∈ problem.polyhedron.unknowns,
            vertex.value unknown.id = answer.point unknown.id) ∧
          (∀ id ∈ query.independent,
            solution.values.get? id = some (vertex.value id)) ∧
          query.polyhedron.Contains vertex.entries ∧
          ∀ other : Vertex query.ids,
            query.polyhedron.Contains other.entries →
            query.score other.value ≤ query.score vertex.value := by
  obtain ⟨lowered, compiled⟩ := Builder.compiled_of_build
    (Builder.wellFormed_run Model.wellFormed_empty steps) built
  have facts := compiled.prepared prepared
  have pool : IdsDetermine ((Builder.ofModel Model.empty).run steps).pool :=
    distinct.of_subset fun _ member => List.mem_append_left _ member
  rcases facts.problem_eq with ⟨rows, computed, listed⟩
  have contains := facts.contains_iff_feasible compiled pool listed
  refine ⟨_, computed, ?_, contains, ?_⟩
  · show (query.decided.map BoundedVariable.binary).map BoundedVariable.id =
      _
    rw [List.map_map]
    exact List.map_id _
  · intro response answer usable optimal
    have binary := Query.Prepared.masked_binary_of_feasible optimal.feasible
    have held :=
      ((query.feasible_iff rows answer.point).1 optimal.feasible).2
    have selectable : ∀ id ∈ ruleset.independent, id ∈ ruleset.selectable :=
      fun id =>
        Query.Prepared.selectable_of_independent compiled pool binary
          fun row member => held row ((listed row).2 member)
    obtain ⟨solution, decoded, entries⟩ :=
      facts.exists_entries compiled usable optimal.feasible
    obtain ⟨vertex, decided, filled⟩ :=
      Query.exists_completed optimal.feasible
    have read :
        ∀ id ∈ ruleset.independent,
          vertex.value id = query.independentValue id := by
      intro id independent
      apply filled id
        (facts.mem_ids
          (compiled.selectable_known (selectable id independent)))
      rwa [facts.independent_eq]
    refine ⟨solution, vertex, decoded, ?_, ?_,
      (contains vertex).2 (Query.Feasible.congr decided optimal.feasible),
      ?_⟩
    · exact List.forall_mem_map.2 decided
    · intro id independent
      rw [facts.independent_eq] at independent
      rw [← OrderedMap.mem_entries, entries, read id independent]
      exact List.mem_map.2
        ⟨id, selectable id independent, by rw [if_pos independent]⟩
    · intro other contained
      exact facts.score_le_of_optimal distinct apart nonpositive factor
        optimal selectable decided read ((contains other).1 contained)

/--
Either one id is assumed or two others together, and no rule is about the id
`c`.
-/
def optionalSteps : List Builder.Step :=
  eitherSteps ++ [.model (.addPrimitives ["c"])]

theorem Ruleset.problem_lossless_optional :
    ∃ ruleset query problem response solution, ∃ vertex : Vertex query.ids,
      ((Builder.ofModel Model.empty).run optionalSteps).build =
        .ok ruleset ∧
      ruleset.prepare [⟨"c", [], .add⟩, ⟨"x", ["y"], .remove⟩] none {} =
        .ok query ∧
      query.independent.toList = ["c"] ∧
      query.problem = .ok problem ∧
      exhaustive 24 problem = .ok response ∧
      query.decode response = .ok solution ∧
      solution.values.get? "c" = some 1 ∧
      vertex.value "c" = 1 ∧
      query.polyhedron.Contains vertex.entries ∧
      ∀ other : Vertex query.ids,
        query.polyhedron.Contains other.entries →
        query.score other.value ≤ query.score vertex.value := by
  have checked :
      (do
        let ruleset ←
          ((Builder.ofModel Model.empty).run optionalSteps).build.toOption
        let query ←
          (ruleset.prepare [⟨"c", [], .add⟩, ⟨"x", ["y"], .remove⟩] none
            {}).toOption
        let problem ← query.problem.toOption
        let response ← (exhaustive 24 problem).toOption
        let solution ← (query.decode response).toOption
        return decide
          (query.independent.toList = ["c"] ∧
            solution.values.get? "c" = some 1 ∧
            IdsDetermine
              (((Builder.ofModel Model.empty).run optionalSteps).pool ++
                query.conjunctions) ∧
            (∀ conjunction ∈ query.conjunctions,
              conjunction.id ∉ ruleset.selectable) ∧
            ruleset.polyhedron.Contains
              (Vertex.ofTruth ruleset.ids fun id =>
                id ∉ ["x", "y", bothId]).entries) : Option Bool) =
        some true := by
    decide +kernel
  simp only [Option.bind_eq_bind, Option.pure_def, Option.bind_eq_some_iff,
    Option.some.injEq, toOption_eq_some_iff, decide_eq_true_eq]
    at checked
  obtain ⟨ruleset, built, query, prepared, problem, computed, response,
    answered, solution, decoded, independent, filled, distinct, apart,
    contained⟩ := checked
  obtain ⟨lowered, compiled⟩ := Builder.compiled_of_build
    (Builder.wellFormed_run Model.wellFormed_empty optionalSteps) built
  have pool :
      IdsDetermine ((Builder.ofModel Model.empty).run optionalSteps).pool :=
    distinct.of_subset fun _ member => List.mem_append_left _ member
  obtain ⟨answer, usable, optimal⟩ :=
    (compiled.prepared prepared).exhaustive_solves compiled pool _ contained
      (fun _ member => nomatch member) computed answered
  obtain ⟨_, same, _, _, best⟩ := problem_lossless optionalSteps ruleset
    [⟨"c", [], .add⟩, ⟨"x", ["y"], .remove⟩] none {} query built prepared
    (by decide) (by decide) distinct apart
  cases computed.symm.trans same
  obtain ⟨_, vertex, again, _, read, inside, unbeaten⟩ :=
    best response answer usable optimal
  cases decoded.symm.trans again
  have known : "c" ∈ query.independent.toList := by
    simp only [independent, List.mem_singleton]
  have agrees := (read "c" known).symm.trans filled
  exact ⟨ruleset, query, problem, response, solution, vertex, built,
    prepared, independent, computed, answered, decoded, filled,
    Option.some.inj agrees, inside, unbeaten⟩

end Configurator
