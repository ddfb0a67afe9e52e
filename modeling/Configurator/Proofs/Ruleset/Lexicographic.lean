import Configurator.Proofs.Ruleset.Priority
import Mathlib.Data.Bool.Basic
import Mathlib.Data.List.Lex

/-!
# Solutions are lexicographically best

The verdicts of some values about selections say which of them the values
honour, from the last selection to the first.  At the first difference
between two lists of verdicts the selections after it are decided alike, so
the solution of an optimal answer has the greatest verdicts among all
configurations.
-/

namespace Configurator

open Configurator.Calendar Configurator.Collection Configurator.Linear
  Configurator.Logic Configurator.Objective Configurator.Optimizer
  Configurator.Request Configurator.Schedule

/-! ## Verdicts -/

/--
Whether the values honour the selections, from the last one to the first.
-/
def Request.verdicts
    (selections : List Selection)
    (value : String → Int) :
    List Bool :=
  selections.reverse.map fun selection =>
    decide (selection.HonouredBy value)

/--
The smaller of two lists of verdicts fails where the other one does not.
-/
private theorem exists_split_of_map_lt
    {α : Type}
    {list : List α}
    {left right : α → Bool}
    (smaller : List.Lex (· < ·) (list.map left) (list.map right)) :
    ∃ before entry after,
      list = before ++ entry :: after ∧
      (∀ other ∈ before, left other = right other) ∧
      left entry = false ∧
      right entry = true := by
  induction list with
  | nil => cases smaller
  | cons first rest ih =>
      rw [List.map_cons, List.map_cons, List.cons_lex_cons_iff] at smaller
      rcases smaller with here | ⟨same, later⟩
      · rw [Bool.lt_iff] at here
        exact ⟨[], first, rest, rfl,
          (fun _ impossible => nomatch impossible), here⟩
      · obtain ⟨before, entry, after, rfl, agree, differ⟩ := ih later
        exact ⟨first :: before, entry, after, rfl,
          List.forall_mem_cons.2 ⟨same, agree⟩, differ⟩

/-- Where verdicts are smaller, the later selections are decided alike. -/
theorem Request.exists_split_of_verdicts_lt
    {selections : List Selection}
    {worse better : String → Int}
    (smaller : verdicts selections worse < verdicts selections better) :
    ∃ earlier selection later,
      selections = earlier ++ selection :: later ∧
      (∀ other ∈ later, other.HonouredBy better ↔ other.HonouredBy worse) ∧
      selection.HonouredBy better ∧
      ¬ selection.HonouredBy worse := by
  obtain ⟨before, selection, after, listed, agree, fails, honoured⟩ :=
    exists_split_of_map_lt smaller
  refine ⟨after.reverse, selection, before.reverse, ?_, ?_,
    of_decide_eq_true honoured, of_decide_eq_false fails⟩
  · rw [← List.reverse_reverse selections, listed]
    simp
  · intro other member
    exact
      (decide_eq_decide.1 (agree other (List.mem_reverse.1 member))).symm

/-! ## Selections of independent variables -/

namespace Query.Prepared

variable {query : Query} {ruleset : Ruleset} {builder : Builder}
  {lowered : Builder.Lowered} {selections : List Selection}
  {time : Option Instant} {config : WeightConfig}

theorem not_composite_of_independent
    (prepared : query.Prepared ruleset lowered.model selections time config)
    {selection : Selection}
    (member : selection ∈ query.selections)
    (independent : selection.id ∈ ruleset.independent) :
    ¬ selection.isComposite = true := by
  intro composite
  exact (prepared.admits_reduced selection member selection.id
          selection.id_mem_ids).2 composite independent

/--
Only one selection is left of an independent variable, and it decides the
value.
-/
theorem independentValue_of_mem
    (prepared : query.Prepared ruleset lowered.model selections time config)
    {selection : Selection}
    (member : selection ∈ query.selections)
    (independent : selection.id ∈ ruleset.independent) :
    query.independentValue selection.id =
      if selection.action.isAdd then 1 else 0 := by
  have irredundant : Irredundant query.selections := by
    rw [prepared.selections_eq]
    exact reduceWith_irredundant _ _
  obtain ⟨earlier, later, listed⟩ := List.append_of_mem member
  have others :
      ∀ other ∈ later, ¬ decide (other.id = selection.id) = true := by
    intro other otherMember same
    have kept : other.makesRedundant selection = false := by
      rw [listed] at irredundant
      exact (List.pairwise_cons.1
              (List.pairwise_append.1 irredundant).2.1).1 other otherMember
    have redundant : other.makesRedundant selection = true := by
      apply Selection.makesRedundant_of_subset
      intro id named
      rw [Selection.mem_ids_single
        (prepared.not_composite_of_independent member independent)] at named
      exact Selection.mem_ids.2
        (Or.inl (named.trans (of_decide_eq_true same).symm))
    rw [kept] at redundant
    cases redundant
  simp only [independentValue]
  rw [listed, List.reverse_append, List.reverse_cons, List.append_assoc,
    List.find?_append,
    List.find?_eq_none.2 fun other otherMember =>
      others other (List.mem_reverse.1 otherMember)]
  simp

/--
The values of independent variables honour all selections of them that are
left.
-/
theorem honoured_of_independent_mem
    (prepared : query.Prepared ruleset lowered.model selections time config)
    {selection : Selection}
    (member : selection ∈ query.selections)
    (independent : selection.id ∈ ruleset.independent)
    {value : String → Int}
    (read : value selection.id = query.independentValue selection.id) :
    selection.HonouredBy value := by
  rw [prepared.independentValue_of_mem member independent] at read
  exact Selection.honouredBy_of_single
    (prepared.not_composite_of_independent member independent) read

/-! ## Configurations compared with a solution -/

section Optimal

variable
  (prepared : query.Prepared ruleset lowered.model selections time config)
  (compiled : ruleset.Compiled builder lowered)
  (distinct : IdsDetermine (builder.pool ++ query.conjunctions))
  (apart :
    ∀ conjunction ∈ query.conjunctions, conjunction.id ∉ ruleset.selectable)
  {rows : List Inequality}
  (listed :
    ∀ row,
      row ∈ rows ↔
        row ∈
          (lowered.model.asked query.selections
            (ruleset.activePeriod? time)).inequalities)
  {point value : String → Int}
  (values :
    ∀ id ∈ ruleset.selectable,
      value id =
        if id ∈ ruleset.independent then query.independentValue id
        else masked query.decided point id)

include prepared values in
/--
A selection without independent variables reads the same in the answer and
the solution.
-/
theorem honoured_iff_of_dependent
    {selection : Selection}
    (member : selection ∈ query.selections)
    (dependent : selection.id ∉ ruleset.independent) :
    selection.HonouredBy value ↔
      selection.HonouredBy (masked query.decided point) := by
  have admitted := prepared.admits_reduced selection member
  apply Selection.honouredBy_congr
  intro id named
  rw [values id (admitted id named).1,
    if_neg (admitted.notMem_independent dependent id named)]

include prepared in
/--
What an optimiser does not decide reads as zero, however the selection is
meant.
-/
theorem honoured_iff_of_independent
    {selection : Selection}
    (member : selection ∈ query.selections)
    (independent : selection.id ∈ ruleset.independent)
    (left right : String → Int) :
    selection.HonouredBy (masked query.decided left) ↔
      selection.HonouredBy (masked query.decided right) := by
  have absent : selection.id ∉ query.decided := by
    rw [mem_decided, prepared.independent_eq]
    exact fun decided => decided.2 independent
  apply Selection.honouredBy_congr
  intro id named
  rw [(Selection.mem_ids_single
    (prepared.not_composite_of_independent member independent)).1 named,
    masked_of_notMem absent, masked_of_notMem absent]

include prepared compiled distinct apart listed values in
/--
No configuration of the rule set has greater verdicts than what an optimal
point gives.
-/
theorem verdicts_le_of_optimal
    (nonpositive : config.notSelected ≤ 0)
    (factor : 0 ≤ config.periodFactor)
    (optimal : (query.problemOf rows).IsOptimal point)
    (vertex : Vertex ruleset.ids)
    (contained : ruleset.polyhedron.Contains vertex.entries)
    (active :
      ∀ period ∈ ruleset.activePeriod? time, vertex.value period.id = 1) :
    verdicts query.selections vertex.value ≤
      verdicts query.selections value := by
  have pool : IdsDetermine builder.pool :=
    distinct.of_subset fun _ member => List.mem_append_left _ member
  obtain ⟨extended, feasible, same⟩ :=
    prepared.exists_feasible compiled pool listed vertex contained active
  -- the configuration honours a selection exactly if the feasible point
  -- does
  have honours :
      ∀ selection ∈ query.selections,
        selection.id ∉ ruleset.independent →
        (selection.HonouredBy vertex.value ↔
          selection.HonouredBy (masked query.decided extended)) := by
    intro selection member dependent
    have admitted := prepared.admits_reduced selection member
    apply Selection.honouredBy_congr
    intro id named
    rw [masked_of_mem
        (prepared.mem_decided_of_selectable compiled (admitted id named).1
          (admitted.notMem_independent dependent id named)),
      same id (compiled.selectable_known (admitted id named).1)]
  refine not_lt.1 fun smaller => ?_
  obtain ⟨earlier, selection, later, split, agree, honoured, fails⟩ :=
    exists_split_of_verdicts_lt smaller
  have inside : ∀ other ∈ selection :: later, other ∈ query.selections := by
    intro other member
    rw [split]
    exact List.mem_append_right _ member
  have member := inside selection List.mem_cons_self
  by_cases independent : selection.id ∈ ruleset.independent
  · have known := (prepared.admits_reduced selection member selection.id
      selection.id_mem_ids).1
    apply fails
    apply prepared.honoured_of_independent_mem member independent
    rw [values selection.id known, if_pos independent]
  · apply fails
    rw [prepared.honoured_iff_of_dependent values member independent]
    refine prepared.honoured_of_optimal compiled distinct apart listed
      nonpositive factor optimal feasible split ?_
      ((honours selection member independent).1 honoured)
    intro other otherMember
    have otherKnown := inside other (List.mem_cons_of_mem _ otherMember)
    by_cases undecided : other.id ∈ ruleset.independent
    · exact prepared.honoured_iff_of_independent otherKnown undecided
        extended point
    · rw [← honours other otherKnown undecided, agree other otherMember,
        prepared.honoured_iff_of_dependent values otherKnown undecided]

end Optimal

end Query.Prepared

/-! ## Lexicographic optimality -/

/--
Solving is lexicographically optimal.  Every optimal answer to the problem
of a query is read as a solution, and no configuration of the built rule
set, with the period of the instant active, is better than the solution when
the reduced selections are compared from the last one to the first, provided
that ids determine the constraints and that no conjunction is named like
something that can be selected.
-/
theorem Ruleset.solve_lexicographic
    (steps : List Builder.Step)
    (ruleset : Ruleset)
    (selections : List Selection)
    (time : Option Instant)
    (query : Query)
    (built : ((Builder.ofModel Model.empty).run steps).build = .ok ruleset)
    (prepared : ruleset.prepare selections time {} = .ok query)
    (distinct :
      IdsDetermine
        (((Builder.ofModel Model.empty).run steps).pool ++
          query.conjunctions))
    (apart :
      ∀ conjunction ∈ query.conjunctions,
        conjunction.id ∉ ruleset.selectable) :
    ∃ problem,
      query.problem = .ok problem ∧
      ∀ (optimiser : Problem → Except Failure Response)
          (response : Response),
        optimiser problem = .ok response →
        response.Solves problem →
        ∃ solution,
          ruleset.solve optimiser selections time = .ok solution ∧
          ∀ vertex : Vertex ruleset.ids,
            ruleset.polyhedron.Contains vertex.entries →
            (∀ period ∈ ruleset.activePeriod? time,
              vertex.value period.id = 1) →
            verdicts query.selections vertex.value ≤
              verdicts query.selections solution.value := by
  obtain ⟨lowered, compiled⟩ := Builder.compiled_of_build
    (Builder.wellFormed_run Model.wellFormed_empty steps) built
  have facts := compiled.prepared prepared
  rcases facts.problem_eq with ⟨rows, computed, listed⟩
  refine ⟨_, computed, ?_⟩
  rintro optimiser response answered ⟨answer, usable, optimal⟩
  rcases facts.exists_solution compiled usable optimal with
    ⟨solution, decoded, values⟩
  refine ⟨solution, ?_, ?_⟩
  · rw [solve_eq prepared computed answered, decoded]
    rfl
  · exact facts.verdicts_le_of_optimal compiled distinct apart listed values
      (by decide) (by decide) optimal

/-- Two removals that exclude each other: the last one is honoured. -/
theorem Ruleset.solve_lexicographic_either :
    ∃ ruleset query solution,
      ((Builder.ofModel Model.empty).run eitherSteps).build = .ok ruleset ∧
      ruleset.prepare
          [⟨"b", [], .remove⟩, ⟨"x", ["y"], .remove⟩, ⟨"x", [], .add⟩] none
          {} =
        .ok query ∧
      ruleset.solve (exhaustive 24)
          [⟨"b", [], .remove⟩, ⟨"x", ["y"], .remove⟩, ⟨"x", [], .add⟩]
          none =
        .ok solution ∧
      verdicts query.selections solution.value = [true, true, false] ∧
      ∀ vertex : Vertex ruleset.ids,
        ruleset.polyhedron.Contains vertex.entries →
        verdicts query.selections vertex.value ≤ [true, true, false] := by
  have checked :
      (do
        let ruleset ←
          ((Builder.ofModel Model.empty).run eitherSteps).build.toOption
        let query ←
          (ruleset.prepare
            [⟨"b", [], .remove⟩, ⟨"x", ["y"], .remove⟩, ⟨"x", [], .add⟩]
            none {}).toOption
        let problem ← query.problem.toOption
        let solution ←
          (ruleset.solve (exhaustive 24)
            [⟨"b", [], .remove⟩, ⟨"x", ["y"], .remove⟩, ⟨"x", [], .add⟩]
            none).toOption
        return decide
          (IdsDetermine
              (((Builder.ofModel Model.empty).run eitherSteps).pool ++
                query.conjunctions) ∧
            (∀ conjunction ∈ query.conjunctions,
              conjunction.id ∉ ruleset.selectable) ∧
            (exhaustive 24 problem).toOption.isSome = true ∧
            ruleset.polyhedron.Contains
              (Vertex.ofTruth ruleset.ids fun id =>
                id ∉ ["x", "y", bothId]).entries ∧
            verdicts query.selections solution.value =
              [true, true, false]) : Option Bool) =
        some true := by
    decide +kernel
  simp only [Option.bind_eq_bind, Option.pure_def, Option.bind_eq_some_iff,
    Option.some.injEq, toOption_eq_some_iff, decide_eq_true_eq,
    Option.isSome_iff_exists]
    at checked
  obtain ⟨ruleset, built, query, prepared, problem, computed, solution,
    solved, distinct, apart, ⟨response, answered⟩, contained, decided⟩ :=
    checked
  obtain ⟨lowered, compiled⟩ := Builder.compiled_of_build
    (Builder.wellFormed_run Model.wellFormed_empty eitherSteps) built
  have pool :
      IdsDetermine ((Builder.ofModel Model.empty).run eitherSteps).pool :=
    distinct.of_subset fun _ member => List.mem_append_left _ member
  have solves :=
    (compiled.prepared prepared).exhaustive_solves compiled pool _ contained
      (fun _ member => absurd member (Option.not_mem_none _)) computed
      answered
  obtain ⟨_, same, best⟩ := solve_lexicographic eitherSteps ruleset
    [⟨"b", [], .remove⟩, ⟨"x", ["y"], .remove⟩, ⟨"x", [], .add⟩] none query
    built prepared distinct apart
  cases computed.symm.trans same
  rcases best (exhaustive 24) response answered solves with
    ⟨_, again, unbeaten⟩
  cases solved.symm.trans again
  refine ⟨ruleset, query, solution, built, prepared, solved, decided, ?_⟩
  intro vertex inside
  rw [← decided]
  exact unbeaten vertex inside fun _ member =>
    absurd member (Option.not_mem_none _)

end Configurator
