import Configurator.Proofs.Ruleset.Decoding

/-!
# Later selections have priority

At an optimal point of a query's problem a selection is honoured if some
point honours it that agrees about the selections after it.  So the last
selection that was given is honoured by every solution, if any configuration
of the rule set honours it, unless reduction leaves nothing of the request.
-/

namespace Configurator

open Configurator.Calendar Configurator.Collection Configurator.Linear
  Configurator.Logic Configurator.Objective Configurator.Optimizer
  Configurator.Request Configurator.Schedule

theorem Linear.masked_binary
    {ids : List String}
    {value : String → Int}
    (binary : ∀ id ∈ ids, value id = 0 ∨ value id = 1)
    (id : String) :
    masked ids value id = 0 ∨ masked ids value id = 1 := by
  by_cases member : id ∈ ids
  · rw [masked_of_mem member]
    exact binary id member
  · exact Or.inl (masked_of_notMem member value)

/-- If the rows of the rule set hold, at most one period is active. -/
theorem Ruleset.Compiled.atMostOne_period
    {ruleset : Ruleset}
    {builder : Builder}
    {lowered : Builder.Lowered}
    (compiled : ruleset.Compiled builder lowered)
    (distinct : IdsDetermine builder.pool)
    {value : String → Int}
    (binary : ∀ id, value id = 0 ∨ value id = 1)
    (held : ∀ row ∈ lowered.model.inequalities, row.Holds value) :
    AtMostOne value (ruleset.periods.map PeriodVariable.id) := by
  intro left leftMember right rightMember leftOne rightOne
  rcases List.mem_map.1 leftMember with ⟨first, firstMember, rfl⟩
  rcases List.mem_map.1 rightMember with ⟨second, secondMember, rfl⟩
  obtain ⟨only, _, unique⟩ :=
    compiled.unique_period distinct binary held
      (List.ne_nil_of_mem firstMember)
  rw [unique first ⟨firstMember, leftOne⟩,
    unique second ⟨secondMember, rightOne⟩]

theorem Ruleset.mem_periods_of_active
    {ruleset : Ruleset}
    {time : Option Instant}
    {period : PeriodVariable}
    (active : period ∈ ruleset.activePeriod? time) :
    period ∈ ruleset.periods := by
  simp only [activePeriod?] at active
  simp only [Option.mem_def, Option.bind_eq_some_iff] at active
  rcases active with ⟨_, _, _, _, here⟩
  exact List.mem_of_getElem? here

namespace Query.Prepared

variable {query : Query} {ruleset : Ruleset} {builder : Builder}
  {lowered : Builder.Lowered} {selections : List Selection}
  {time : Option Instant} {config : WeightConfig} {value : String → Int}

section

variable
  (prepared : query.Prepared ruleset lowered.model selections time config)
  (compiled : ruleset.Compiled builder lowered)
  (distinct : IdsDetermine (builder.pool ++ query.conjunctions))
  (apart :
    ∀ conjunction ∈ query.conjunctions, conjunction.id ∉ ruleset.selectable)
  (binary : ∀ id, value id = 0 ∨ value id = 1)
  (held :
    ∀ row ∈
        (lowered.model.asked query.selections
          (ruleset.activePeriod? time)).inequalities,
      row.Holds value)

include prepared compiled binary held in
/--
Where the rows of the query hold, the period of the instant is active.
-/
theorem active_of_held
    {period : PeriodVariable}
    (active : period ∈ ruleset.activePeriod? time) :
    value period.id = 1 :=
  (((prepared.wellFormed compiled).inequalities_hold_iff binary).1 held).2 _
    (Model.mem_assumed_pin.2 (Or.inr ⟨period, active, rfl⟩))

include prepared compiled binary held in
/--
Where the rows of the query hold, the support of a selection's conjunction
decides it.
-/
theorem conjunction_decides
    {selection : Selection}
    (stored :
      selection.conjunction ∈
        (lowered.model.asked query.selections
          (ruleset.activePeriod? time)).constraints) :
    value selection.conjunction.id = 1 ↔
      ∀ id ∈ selection.ids, value id = 1 := by
  have consistent :=
    (((prepared.wellFormed compiled).inequalities_hold_iff binary).1 held).1
  exact (consistent _ stored).trans (Selection.conjunction_holds binary)

include prepared compiled distinct apart binary held in
/--
Where the rows of the query hold, the column of a selection decides it.
-/
theorem column_decides
    {selection : Selection}
    (member : selection ∈ query.selections) :
    value selection.column = 1 ↔ ∀ id ∈ selection.ids, value id = 1 := by
  by_cases composite : selection.isComposite = true
  · rw [Selection.column_composite composite]
    exact prepared.conjunction_decides compiled binary held
      (conjunction_mem compiled distinct apart member composite)
  · rw [Selection.column_single composite]
    simp only [Selection.mem_ids_single composite, forall_eq]

include prepared compiled in
/-- No row depends on the variables that have no column in the problem. -/
theorem holds_masked_iff
    (activeApart :
      ∀ period ∈ ruleset.activePeriod? time,
        period.id ∉ ruleset.independent)
    {row : Inequality}
    (member :
      row ∈
        (lowered.model.asked query.selections
          (ruleset.activePeriod? time)).inequalities) :
    row.Holds (masked query.decided value) ↔ row.Holds value := by
  rcases prepared.describes.rows with ⟨rows, represents, listed⟩
  apply Inequality.holds_congr_nonzero
  intro id nonzero
  apply masked_of_mem
  rw [mem_decided, prepared.independent_eq]
  constructor
  · have mentioned : id ∈ row.coefficients.ids := by
      by_contra absent
      exact nonzero (Coefficients.coefficient_of_notMem absent)
    have known := represents.known row ((listed row).2 member) id mentioned
    rwa [← prepared.describes.ids_eq] at known
  · intro independent
    exact nonzero
      (prepared.independent_unmentioned compiled activeApart id independent
        row member)

include prepared compiled held in
/--
The rows still hold where the variables without a column in the problem are
zero.
-/
theorem held_masked
    (activeApart :
      ∀ period ∈ ruleset.activePeriod? time,
        period.id ∉ ruleset.independent) :
    ∀ row ∈
        (lowered.model.asked query.selections
          (ruleset.activePeriod? time)).inequalities,
      row.Holds (masked query.decided value) :=
  fun row member =>
    (prepared.holds_masked_iff compiled activeApart member).2
      (held row member)

end

/-- The problem has the rows of the extended model. -/
theorem problem_eq
    (prepared :
      query.Prepared ruleset lowered.model selections time config) :
    ∃ rows,
      query.problem = .ok (query.problemOf rows) ∧
      ∀ row,
        row ∈ rows ↔
          row ∈
            (lowered.model.asked query.selections
              (ruleset.activePeriod? time)).inequalities := by
  rcases prepared.describes.rows with ⟨rows, represents, listed⟩
  rw [← prepared.describes.ids_eq] at represents
  exact ⟨rows, query.problem_eq represents, listed⟩

section Feasible

variable
  (prepared : query.Prepared ruleset lowered.model selections time config)
  (compiled : ruleset.Compiled builder lowered)
  (distinct : IdsDetermine (builder.pool ++ query.conjunctions))
  (apart :
    ∀ conjunction ∈ query.conjunctions, conjunction.id ∉ ruleset.selectable)
  {rows : List Inequality}
  (listed :
    ∀ row,
      row ∈ rows ↔
        row ∈
          (lowered.model.asked query.selections
            (ruleset.activePeriod? time)).inequalities)
  {point : String → Int}

theorem masked_binary_of_feasible
    (feasible : (query.problemOf rows).Feasible value)
    (id : String) :
    masked query.decided value id = 0 ∨ masked query.decided value id = 1 :=
  masked_binary ((query.feasible_iff rows value).1 feasible).1 id

include compiled listed in
theorem atMostOne_of_feasible
    (pool : IdsDetermine builder.pool)
    (feasible : (query.problemOf rows).Feasible value) :
    AtMostOne (masked query.decided value)
      (ruleset.periods.map PeriodVariable.id) := by
  have holds := ((query.feasible_iff rows value).1 feasible).2
  exact compiled.atMostOne_period pool (masked_binary_of_feasible feasible)
    fun row member =>
      holds row ((listed row).2 (Model.mem_inequalities_asked member))

include prepared compiled distinct apart listed in
/-- At a feasible point the targets of the objective are the selections. -/
theorem honours_iff_of_feasible
    (feasible : (query.problemOf rows).Feasible value)
    {selection : Selection}
    (member : selection ∈ query.selections) :
    (Target.mk selection.column selection.action).Honours
        (masked query.decided value) ↔
      selection.HonouredBy (masked query.decided value) := by
  have holds := ((query.feasible_iff rows value).1 feasible).2
  have binary := masked_binary_of_feasible feasible
  exact Selection.honours_iff binary
    (prepared.column_decides compiled distinct apart binary
      (fun row rowMember => holds row ((listed row).2 rowMember)) member)

include prepared compiled distinct apart listed in
/--
An optimal point honours a selection if a feasible one honours it that
agrees with it about all later selections.
-/
theorem honoured_of_optimal
    (nonpositive : config.notSelected ≤ 0)
    (factor : 0 ≤ config.periodFactor)
    (optimal : (query.problemOf rows).IsOptimal point)
    (feasible : (query.problemOf rows).Feasible value)
    {earlier later : List Selection}
    {selection : Selection}
    (split : query.selections = earlier ++ selection :: later)
    (agree :
      ∀ other ∈ later,
        other.HonouredBy (masked query.decided value) ↔
          other.HonouredBy (masked query.decided point))
    (honoured : selection.HonouredBy (masked query.decided value)) :
    selection.HonouredBy (masked query.decided point) := by
  have pool : IdsDetermine builder.pool :=
    distinct.of_subset fun _ member => List.mem_append_left _ member
  have valueBinary := masked_binary_of_feasible feasible
  have pointBinary := masked_binary_of_feasible optimal.feasible
  have inside : ∀ other ∈ selection :: later, other ∈ query.selections := by
    intro other member
    rw [split]
    exact List.mem_append_right _ member
  have valueHonours := fun other member =>
    prepared.honours_iff_of_feasible compiled distinct apart listed feasible
      (inside other member)
  have pointHonours := fun other member =>
    prepared.honours_iff_of_feasible compiled distinct apart listed
      optimal.feasible (inside other member)
  have columns :
      ∀ other ∈ later,
        masked query.decided value other.column =
          masked query.decided point other.column := by
    intro other member
    have known := List.mem_cons_of_mem selection member
    have honours := (valueHonours other known).trans
      ((agree other member).trans (pointHonours other known).symm)
    exact Target.column_eq_of_honours_iff (valueBinary _) (pointBinary _)
      honours
  rw [← pointHonours selection List.mem_cons_self]
  by_contra fails
  have greater :=
    derive_dominates prepared.derived nonpositive factor
      (prepared.targets_nodup distinct apart)
      (prepared.levelsApart compiled distinct apart) valueBinary pointBinary
      (atMostOne_of_feasible compiled listed pool feasible)
      (atMostOne_of_feasible compiled listed pool optimal.feasible)
      (targets_of_split split) (List.forall_mem_map.2 columns)
      ((valueHonours selection List.mem_cons_self).2 honoured) fails
  rw [← query.objectiveAt_problemOf rows,
    ← query.objectiveAt_problemOf rows] at greater
  exact absurd (optimal.best value feasible) (Int.not_le.2 greater)

end Feasible

/-! ## Configurations of the rule set -/

/-- A configuration of the rule set extends to one of the query. -/
theorem exists_held
    (prepared : query.Prepared ruleset lowered.model selections time config)
    (compiled : ruleset.Compiled builder lowered)
    (binary : ∀ id, value id = 0 ∨ value id = 1)
    (held : ∀ row ∈ lowered.model.inequalities, row.Holds value)
    (active :
      ∀ period ∈ ruleset.activePeriod? time,
        period.id ∈ lowered.model.ids ∧ value period.id = 1) :
    ∃ extended : String → Int,
      (∀ id, extended id = 0 ∨ extended id = 1) ∧
      (∀ row ∈
          (lowered.model.asked query.selections
            (ruleset.activePeriod? time)).inequalities,
        row.Holds extended) ∧
      ∀ id ∈ lowered.model.ids, extended id = value id := by
  rcases (compiled.wellFormed.inequalities_hold_iff binary).1 held with
    ⟨consistent, assumed⟩
  obtain ⟨extended, extendedBinary, extendedConsistent, same⟩ :=
    @Model.exists_extension_all lowered.model query.selections
      compiled.wellFormed value binary consistent
      fun selection member id listed =>
        compiled.selectable_known
          (prepared.admits_reduced selection member id listed).1
  refine ⟨extended, extendedBinary, ?_, same⟩
  rw [(prepared.wellFormed compiled).inequalities_hold_iff extendedBinary]
  constructor
  · intro constraint member
    rw [Model.asked, Model.constraints_pin] at member
    exact extendedConsistent constraint member
  · intro id member
    rcases Model.mem_assumed_pin.1 member with
      old | ⟨period, periodActive, rfl⟩
    · rw [Model.assumed_foldl_materialise] at old
      rw [same id (compiled.wellFormed.assumed_known id old),
        assumed id old]
    · rw [same _ (active period periodActive).1,
        (active period periodActive).2]

/--
A configuration of the rule set extends to a feasible point of the problem.
-/
theorem exists_feasible
    (prepared : query.Prepared ruleset lowered.model selections time config)
    (compiled : ruleset.Compiled builder lowered)
    (distinct : IdsDetermine builder.pool)
    {rows : List Inequality}
    (listed :
      ∀ row,
        row ∈ rows ↔
          row ∈
            (lowered.model.asked query.selections
              (ruleset.activePeriod? time)).inequalities)
    (vertex : Vertex ruleset.ids)
    (contained : ruleset.polyhedron.Contains vertex.entries)
    (active :
      ∀ period ∈ ruleset.activePeriod? time, vertex.value period.id = 1) :
    ∃ extended : String → Int,
      (query.problemOf rows).Feasible extended ∧
      ∀ id ∈ lowered.model.ids, extended id = vertex.value id := by
  have held := (compiled.contains_iff_of_agree fun _ _ => rfl).1 contained
  have activeKnown : ∀ period ∈ ruleset.activePeriod? time,
      period.id ∈ lowered.model.ids ∧ vertex.value period.id = 1 := by
    intro period periodActive
    refine ⟨?_, active period periodActive⟩
    by_contra unknown
    have zero : vertex.value period.id = 0 :=
      entryOf_of_notMem (by rwa [compiled.ids_eq]) _
    rw [active period periodActive] at zero
    cases zero
  have activeApart : ∀ period ∈ ruleset.activePeriod? time,
      period.id ∉ ruleset.independent := fun period periodActive =>
    compiled.period_notMem_independent distinct vertex.value_binary held
      (Ruleset.mem_periods_of_active periodActive)
  obtain ⟨extended, binary, extendedHeld, same⟩ :=
    prepared.exists_held compiled vertex.value_binary held activeKnown
  refine ⟨extended,
    (query.feasible_iff rows extended).2 ⟨fun id _ => binary id, ?_⟩, same⟩
  exact fun row member =>
    prepared.held_masked compiled extendedHeld activeApart row
      ((listed row).1 member)

/--
The exhaustive optimiser solves the problem if the rule set has a
configuration.
-/
theorem exhaustive_solves
    (prepared : query.Prepared ruleset lowered.model selections time config)
    (compiled : ruleset.Compiled builder lowered)
    (distinct : IdsDetermine builder.pool)
    (vertex : Vertex ruleset.ids)
    (contained : ruleset.polyhedron.Contains vertex.entries)
    (active :
      ∀ period ∈ ruleset.activePeriod? time, vertex.value period.id = 1)
    {problem : Problem}
    (computed : query.problem = .ok problem)
    {limit : Nat}
    {response : Response}
    (answered : exhaustive limit problem = .ok response) :
    response.Solves problem := by
  rcases prepared.problem_eq with ⟨rows, same, listed⟩
  cases computed.symm.trans same
  obtain ⟨extended, feasible, _⟩ :=
    prepared.exists_feasible compiled distinct listed vertex contained
      active
  exact Query.exhaustive_solves answered ⟨extended, feasible⟩

theorem mem_decided_of_selectable
    (prepared : query.Prepared ruleset lowered.model selections time config)
    (compiled : ruleset.Compiled builder lowered)
    {id : String}
    (selectable : id ∈ ruleset.selectable)
    (dependent : id ∉ ruleset.independent) :
    id ∈ query.decided := by
  rw [mem_decided, prepared.independent_eq]
  exact ⟨prepared.mem_ids (compiled.selectable_known selectable), dependent⟩

/-- A feasible answer is read as a solution that lists its values. -/
theorem exists_entries
    (prepared : query.Prepared ruleset lowered.model selections time config)
    (compiled : ruleset.Compiled builder lowered)
    {rows : List Inequality}
    {response : Response}
    {answer : Answer}
    (usable : response.single = .ok answer)
    (feasible : (query.problemOf rows).Feasible answer.point) :
    ∃ solution,
      query.decode response = .ok solution ∧
      solution.values.entries =
        ruleset.selectable.toList.map fun id =>
          (id,
            if id ∈ ruleset.independent then query.independentValue id
            else masked query.decided answer.point id) := by
  rcases (query.feasible_iff rows answer.point).1 feasible with ⟨binary, _⟩
  have decided :
      ∀ id ∈ ruleset.selectable,
        id ∉ ruleset.independent → id ∈ query.decided :=
    fun id selectable dependent =>
      prepared.mem_decided_of_selectable compiled selectable dependent
  obtain ⟨solution, decoded, listed⟩ :=
    @decode_eq_ok query response answer usable (by
      rw [prepared.selectable_eq, prepared.independent_eq]
      exact fun id selectable dependent =>
        binary id (decided id selectable dependent))
  refine ⟨solution, decoded, ?_⟩
  rw [listed, prepared.selectable_eq]
  apply List.map_congr_left
  intro id selectable
  rw [reading, prepared.independent_eq]
  split
  · rfl
  · rename_i dependent
    rw [masked_of_mem (decided id selectable dependent)]

/-- An optimal answer is read as a solution with its values. -/
theorem exists_solution
    (prepared : query.Prepared ruleset lowered.model selections time config)
    (compiled : ruleset.Compiled builder lowered)
    {rows : List Inequality}
    {response : Response}
    {answer : Answer}
    (usable : response.single = .ok answer)
    (optimal : (query.problemOf rows).IsOptimal answer.point) :
    ∃ solution,
      query.decode response = .ok solution ∧
      ∀ id ∈ ruleset.selectable,
        solution.value id =
          if id ∈ ruleset.independent then query.independentValue id
          else masked query.decided answer.point id := by
  obtain ⟨solution, decoded, listed⟩ :=
    prepared.exists_entries compiled usable optimal.feasible
  exact ⟨solution, decoded,
    fun id selectable => Solution.value_of_entries listed selectable⟩

end Query.Prepared

/-! ## The last selection -/

namespace Query.Prepared

variable {query : Query} {ruleset : Ruleset} {builder : Builder}
  {lowered : Builder.Lowered} {selections : List Selection}
  {time : Option Instant} {config : WeightConfig}

/-- If any selection is left, the last one that was given is. -/
theorem getLast?_eq_some
    (prepared : query.Prepared ruleset lowered.model selections time config)
    {last : Selection}
    (nonempty : query.selections ≠ [])
    (given : selections.getLast? = some last) :
    query.selections.getLast? = some last := by
  rw [prepared.selections_eq] at nonempty ⊢
  exact (getLast?_reduceWith nonempty).trans given

/-- A solution honours the last selection of an independent variable. -/
theorem honoured_of_independent
    (prepared : query.Prepared ruleset lowered.model selections time config)
    {last : Selection}
    (given : selections.getLast? = some last)
    (independent : last.id ∈ ruleset.independent)
    {value : String → Int}
    (read : value last.id = query.independentValue last.id) :
    last.HonouredBy value := by
  have admitted := prepared.admitted last (List.mem_of_getLast? given)
  have own := last.id_mem_ids
  have single : ¬ last.isComposite = true :=
    fun composite => (admitted last.id own).2 composite independent
  apply Selection.honouredBy_of_single single
  rw [read]
  by_cases none : query.selections = []
  · have removal : last.action = .remove :=
      remove_of_reduceWith_eq_nil (prepared.selections_eq.symm.trans none)
        given
    rw [independentValue_of_nil none, removal]
    rfl
  · exact independentValue_last (prepared.getLast?_eq_some none given)

/--
A request of which reduction leaves nothing is answered like the empty one.
-/
theorem prepare_nil_of_reduce_eq_nil
    {ruleset : Ruleset}
    {query : Query}
    (prepared : ruleset.prepare selections time config = .ok query)
    (none : ruleset.reduce selections = []) :
    ruleset.prepare [] time config = .ok query := by
  simp only [Ruleset.prepare, bind_eq_ok_iff] at prepared
  rcases prepared with ⟨_, _, rest⟩
  rw [none] at rest
  simp only [Ruleset.prepare, bind_eq_ok_iff]
  exact ⟨(), rfl, rest⟩

end Query.Prepared

/--
The last selection wins when it can.  If some configuration of a built rule
set, with the period of the instant active, honours the last selection, then
so does every solution that is read from an optimal answer, provided that
reduction has left something or the selected variable is independent, that
ids determine the constraints and that no conjunction is named like
something that can be selected.  If reduction leaves nothing, the request is
the empty one.
-/
theorem Ruleset.solve_honours_last
    (steps : List Builder.Step)
    (ruleset : Ruleset)
    (selections : List Selection)
    (time : Option Instant)
    (query : Query)
    (last : Selection)
    (built : ((Builder.ofModel Model.empty).run steps).build = .ok ruleset)
    (prepared : ruleset.prepare selections time {} = .ok query)
    (given : selections.getLast? = some last)
    (distinct :
      IdsDetermine
        (((Builder.ofModel Model.empty).run steps).pool ++
          query.conjunctions))
    (apart :
      ∀ conjunction ∈ query.conjunctions,
        conjunction.id ∉ ruleset.selectable)
    (possible :
      ∃ vertex : Vertex ruleset.ids,
        ruleset.polyhedron.Contains vertex.entries ∧
        (∀ period ∈ ruleset.activePeriod? time,
          vertex.value period.id = 1) ∧
        last.HonouredBy vertex.value) :
    (query.selections = [] → ruleset.prepare [] time {} = .ok query) ∧
    ((query.selections ≠ [] ∨ last.id ∈ ruleset.independent) →
      ∃ problem,
        query.problem = .ok problem ∧
        (∀ (limit : Nat) (response : Response),
          exhaustive limit problem = .ok response →
          response.Solves problem) ∧
        ∀ (optimiser : Problem → Except Failure Response)
            (response : Response),
          optimiser problem = .ok response →
          response.Solves problem →
          ∃ solution,
            ruleset.solve optimiser selections time = .ok solution ∧
            last.HonouredBy solution.value) := by
  obtain ⟨lowered, compiled⟩ := Builder.compiled_of_build
    (Builder.wellFormed_run Model.wellFormed_empty steps) built
  have facts := compiled.prepared prepared
  rcases possible with ⟨vertex, contained, active, honoured⟩
  rcases facts.problem_eq with ⟨rows, computed, listed⟩
  have pool : IdsDetermine ((Builder.ofModel Model.empty).run steps).pool :=
    distinct.of_subset fun _ member => List.mem_append_left _ member
  obtain ⟨extended, feasible, same⟩ :=
    facts.exists_feasible compiled pool listed vertex contained active
  constructor
  · intro none
    exact Query.Prepared.prepare_nil_of_reduce_eq_nil prepared
      (facts.selections_eq.symm.trans none)
  intro effective
  refine ⟨_, computed, ?_, ?_⟩
  · intro limit response answered
    exact facts.exhaustive_solves compiled pool vertex contained active
      computed answered
  rintro optimiser response answered ⟨answer, usable, optimal⟩
  rcases facts.exists_solution compiled usable optimal with
    ⟨solution, decoded, values⟩
  refine ⟨solution, ?_, ?_⟩
  · simp only [solve, bind_eq_ok_iff, faulting_eq_ok_iff,
      refusable_eq_ok_iff]
    exact ⟨query, prepared, _, computed, response, answered, decoded⟩
  have admitted := facts.admitted last (List.mem_of_getLast? given)
  by_cases independent : last.id ∈ ruleset.independent
  · apply facts.honoured_of_independent given independent
    rw [values _ (admitted last.id (Selection.mem_ids.2 (Or.inl rfl))).1,
      if_pos independent]
  · -- all ids of the selection have columns, so the optimum decides it
    have dependent := admitted.notMem_independent independent
    have decided : ∀ id ∈ last.ids, id ∈ query.decided := fun id named =>
      facts.mem_decided_of_selectable compiled (admitted id named).1
        (dependent id named)
    obtain ⟨earlier, split⟩ := List.getLast?_eq_some_iff.1
      (facts.getLast?_eq_some (effective.resolve_right independent) given)
    have wins :=
      facts.honoured_of_optimal compiled distinct apart listed (by decide)
        (by decide) optimal feasible split
        (fun _ impossible => absurd impossible List.not_mem_nil)
        ((Selection.honouredBy_congr fun id named => by
          rw
            [masked_of_mem (decided id named),
              same id (compiled.selectable_known (admitted id named).1)]).2
            honoured)
    refine (Selection.honouredBy_congr fun id named => ?_).2 wins
    rw [values id (admitted id named).1, if_neg (dependent id named)]

/-- The id of the conjunction of two ids. -/
def bothId : String :=
  (Constraint.uniform ["x", "y"] 1 (-2)).id

/-- Either one id is assumed or two others together. -/
def eitherSteps : List Builder.Step :=
  [.model (.addPrimitives ["b", "x", "y"]),
    .model (.set .conjunction ["x", "y"]),
    .model (.set .disjunction ["b", bothId]),
    .assume [(Constraint.uniform ["b", bothId] 1 (-1)).id]]

theorem Ruleset.solve_honours_last_either :
    ∃ ruleset solution,
      ((Builder.ofModel Model.empty).run eitherSteps).build = .ok ruleset ∧
      ruleset.solve (exhaustive 24)
          [⟨"b", [], .add⟩, ⟨"b", ["x"], .add⟩, ⟨"x", ["y"], .remove⟩]
          none =
        .ok solution ∧
      Selection.HonouredBy ⟨"x", ["y"], .remove⟩ solution.value := by
  have checked :
      (do
        let ruleset ←
          ((Builder.ofModel Model.empty).run eitherSteps).build.toOption
        let query ←
          (ruleset.prepare
            [⟨"b", [], .add⟩, ⟨"b", ["x"], .add⟩, ⟨"x", ["y"], .remove⟩]
            none {}).toOption
        let problem ← query.problem.toOption
        return decide
          (IdsDetermine
              (((Builder.ofModel Model.empty).run eitherSteps).pool ++
                query.conjunctions) ∧
            (∀ conjunction ∈ query.conjunctions,
              conjunction.id ∉ ruleset.selectable) ∧
            query.selections ≠ [] ∧
            (exhaustive 24 problem).toOption.isSome = true ∧
            ruleset.polyhedron.Contains
              (Vertex.ofTruth ruleset.ids fun id =>
                id ∉ ["x", "y", bothId]).entries ∧
            Selection.HonouredBy ⟨"x", ["y"], .remove⟩
              (Vertex.ofTruth ruleset.ids fun id =>
                id ∉ ["x", "y", bothId]).value) : Option Bool) =
        some true := by
    decide +kernel
  simp only [Option.bind_eq_bind, Option.pure_def, Option.bind_eq_some_iff,
    Option.some.injEq, toOption_eq_some_iff, decide_eq_true_eq,
    Option.isSome_iff_exists]
    at checked
  obtain ⟨ruleset, built, query, prepared, problem, computed, distinct,
    apart, nonempty, ⟨response, answered⟩, contained, honoured⟩ := checked
  obtain ⟨_, effective⟩ :=
    solve_honours_last eitherSteps ruleset
      [⟨"b", [], .add⟩, ⟨"b", ["x"], .add⟩, ⟨"x", ["y"], .remove⟩] none
      query ⟨"x", ["y"], .remove⟩ built prepared rfl distinct apart
      ⟨_, contained,
        (fun _ member => absurd member (Option.not_mem_none _)), honoured⟩
  rcases effective (Or.inl nonempty) with ⟨_, same, exact, wins⟩
  cases computed.symm.trans same
  obtain ⟨solution, solved, honours⟩ :=
    wins (exhaustive 24) response answered (exact 24 response answered)
  exact ⟨ruleset, solution, built, solved, honours⟩

/--
A removal that cancels an addition is not honoured, although it could be.
-/
theorem Ruleset.solve_drops_cancelled_removal :
    ∃ ruleset query problem response solution,
      ((Builder.ofModel Model.empty).run eitherSteps).build = .ok ruleset ∧
      ruleset.prepare [⟨"b", [], .add⟩, ⟨"b", [], .remove⟩] none {} =
        .ok query ∧
      (∃ vertex : Vertex ruleset.ids,
        ruleset.polyhedron.Contains vertex.entries ∧
        Selection.HonouredBy ⟨"b", [], .remove⟩ vertex.value) ∧
      query.problem = .ok problem ∧
      exhaustive 24 problem = .ok response ∧
      response.Solves problem ∧
      ruleset.solve (exhaustive 24) [⟨"b", [], .add⟩, ⟨"b", [], .remove⟩]
          none =
        .ok solution ∧
      ¬ Selection.HonouredBy ⟨"b", [], .remove⟩ solution.value := by
  have checked :
      (do
        let ruleset ←
          ((Builder.ofModel Model.empty).run eitherSteps).build.toOption
        let query ←
          (ruleset.prepare [⟨"b", [], .add⟩, ⟨"b", [], .remove⟩] none
            {}).toOption
        let problem ← query.problem.toOption
        let solution ←
          (ruleset.solve (exhaustive 24)
            [⟨"b", [], .add⟩, ⟨"b", [], .remove⟩] none).toOption
        return decide
          (IdsDetermine
              ((Builder.ofModel Model.empty).run eitherSteps).pool ∧
            query.conjunctions = [] ∧
            (exhaustive 24 problem).toOption.isSome = true ∧
            ruleset.polyhedron.Contains
              (Vertex.ofTruth ruleset.ids fun id => id ≠ "b").entries ∧
            Selection.HonouredBy ⟨"b", [], .remove⟩
              (Vertex.ofTruth ruleset.ids fun id => id ≠ "b").value ∧
            ¬ Selection.HonouredBy ⟨"b", [], .remove⟩ solution.value) :
        Option Bool) =
        some true := by
    decide +kernel
  simp only [Option.bind_eq_bind, Option.pure_def, Option.bind_eq_some_iff,
    Option.some.injEq, toOption_eq_some_iff, decide_eq_true_eq,
    Option.isSome_iff_exists]
    at checked
  obtain ⟨ruleset, built, query, prepared, problem, computed, solution,
    solved, distinct, _, ⟨response, answered⟩, contained, honoured,
    fails⟩ := checked
  obtain ⟨lowered, compiled⟩ := Builder.compiled_of_build
    (Builder.wellFormed_run Model.wellFormed_empty eitherSteps) built
  have solves :=
    (compiled.prepared prepared).exhaustive_solves compiled distinct _
      contained (fun _ member => absurd member (Option.not_mem_none _))
      computed answered
  exact ⟨ruleset, query, problem, response, solution, built, prepared,
    ⟨_, contained, honoured⟩, computed, answered, solves, solved, fails⟩

end Configurator
