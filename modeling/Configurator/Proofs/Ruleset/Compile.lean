import Configurator.Proofs.Ruleset.Lowering
import Configurator.Proofs.Schedule.Grouping

/-!
# What compiling assumes

A lowering adds supports and assumptions to a model.  Where the constraints
that it constructs are told apart by their ids, every support means its
connective in the lowered model, and so the new assumptions hold exactly if
one period is active and everything that is bound to it holds.
-/

namespace Configurator.Logic

open Configurator.Collection Configurator.Linear

/--
Consistent zeros and ones of a model whose constraints are told apart by
their ids.
-/
structure Model.Reads
    (final : Model)
    (pool : List Constraint)
    (value : String → Int) :
    Prop where
  /-- The constraints are among those that are told apart. -/
  stored : ∀ constraint ∈ final.constraints, constraint ∈ pool
  /-- Equal ids stand for equal inequalities. -/
  distinct : IdsDetermine pool
  /-- The values are zeros and ones. -/
  binary : ∀ id, value id = 0 ∨ value id = 1
  /-- Every support says whether its constraint holds. -/
  consistent : final.Consistent value

theorem Model.Reads.support_iff
    {final model grown : Model}
    {pool : List Constraint}
    {value : String → Int}
    (reads : final.Reads pool value)
    {connective : Connective}
    {operands : List String}
    {support : String}
    (extended : model.extend connective operands = .ok (support, grown))
    (growth : grown.GrowsTo final)
    (constructed :
      ∀ constraint ∈ model.constructedBy (.set connective operands),
        constraint ∈ pool) :
    value support = 1 ↔ connective.Holds value operands := by
  refine Model.support_iff (extend_eq_ok extended).1 growth ?_ reads.binary
    reads.consistent
  intro constraint member stored storedMember
  exact reads.distinct constraint (constructed constraint member) stored
    (reads.stored stored storedMember)

end Configurator.Logic

namespace Configurator.Builder

open Configurator.Calendar Configurator.Collection Configurator.Linear
  Configurator.Logic Configurator.Schedule

variable {final model grown : Model} {pool : List Constraint}
  {value : String → Int}

/-! ## What single lowerings assume -/

theorem joined_iff
    (reads : final.Reads pool value)
    {connective : Connective}
    (single : ∀ id, connective.Holds value [id] ↔ value id = 1)
    {ids : List String}
    {id : String}
    (computed : joined connective model ids = .ok (id, grown))
    (growth : grown.GrowsTo final)
    (constructed :
      ∀ constraint ∈ model.constructed (joinedSteps connective ids),
        constraint ∈ pool) :
    value id = 1 ↔ connective.Holds value ids := by
  simp only [joined] at computed
  split at computed
  · cases computed
    exact (single id).symm
  · rename_i several
    apply reads.support_iff computed growth
    rw [joinedSteps_of_several several] at constructed
    intro constraint member
    exact constructed constraint (List.mem_append_left _ member)

/-- A group makes its ids hold while one of its periods is active. -/
theorem lowerGroup_iff
    (reads : final.Reads pool value)
    {group : List String × List Nat}
    (lowered : lowerGroup model group = .ok grown)
    (growth : grown.GrowsTo final)
    (constructed :
      ∀ constraint ∈ model.constructed (groupSteps group),
        constraint ∈ pool) :
    (∀ id ∈ grown.assumed, value id = 1) ↔
      (∀ id ∈ model.assumed, value id = 1) ∧
      ((∃ index ∈ group.2, value (periodName index) = 1) →
        ∀ id ∈ group.1, value id = 1) := by
  simp only [lowerGroup, bind_eq_ok_iff] at lowered
  obtain ⟨⟨during, first⟩, joinedDuring, ⟨required, second⟩, joinedRequired,
    ⟨rule, third⟩, ruled, assumed⟩ := lowered
  rcases joined_eq_ok joinedDuring with ⟨duringEq, firstEq, firstAssumed⟩
  rcases joined_eq_ok joinedRequired with
    ⟨requiredEq, secondEq, secondAssumed⟩
  rcases Model.extend_eq_ok ruled with ⟨_, thirdEq, ruleEq, thirdAssumed⟩
  rcases Model.assume_eq_run assumed with ⟨grownEq, grownAssumed⟩
  have thirdGrowth : third.GrowsTo final := .of_run (grownEq ▸ growth)
  have secondGrowth : second.GrowsTo final :=
    .of_run (thirdEq ▸ thirdGrowth)
  have firstGrowth : first.GrowsTo final :=
    .of_run (secondEq ▸ secondGrowth)
  simp only [groupSteps, Model.constructed_append, List.forall_mem_append,
    ← firstEq, ← secondEq, ← duringEq, ← requiredEq] at constructed
  rcases constructed with
    ⟨duringConstructed, requiredConstructed, ruleConstructed⟩
  have duringIff :=
    joined_iff reads (fun id => by simp [Connective.Holds]) joinedDuring
      firstGrowth duringConstructed
  have requiredIff :=
    joined_iff reads (fun id => by simp [Connective.Holds]) joinedRequired
      secondGrowth requiredConstructed
  have ruleIff :=
    reads.support_iff ruled thirdGrowth fun constraint member =>
      ruleConstructed constraint (List.mem_append_left _ member)
  have active : (value during = 0 ∨ value required = 1) ↔
      (value during = 1 → value required = 1) := by
    have binary := reads.binary during
    omega
  have ruleHolds :
      value rule = 1 ↔
        ((∃ index ∈ group.2, value (periodName index) = 1) →
          ∀ id ∈ group.1, value id = 1) := by
    rw [ruleIff]
    show value during = 0 ∨ value required = 1 ↔ _
    rw [active, duringIff, requiredIff]
    simp only [Connective.Holds, List.mem_map, exists_exists_and_eq_and]
  rw [grownAssumed, thirdAssumed, secondAssumed, firstAssumed, ← ruleHolds]
  simp only [OrderedSet.mem_append, List.mem_singleton, or_imp, forall_and,
    forall_eq]

theorem foldlM_lowerGroup_iff
    (reads : final.Reads pool value)
    {groups : List (List String × List Nat)}
    (lowered : groups.foldlM lowerGroup model = .ok grown)
    (growth : grown.GrowsTo final)
    (constructed :
      ∀ constraint ∈ model.constructed (groups.flatMap groupSteps),
        constraint ∈ pool) :
    (∀ id ∈ grown.assumed, value id = 1) ↔
      (∀ id ∈ model.assumed, value id = 1) ∧
      ∀ group ∈ groups,
        (∃ index ∈ group.2, value (periodName index) = 1) →
        ∀ id ∈ group.1, value id = 1 := by
  induction groups generalizing model with
  | nil =>
      cases lowered
      simp
  | cons group rest ih =>
      rw [List.foldlM_cons, bind_eq_ok_iff] at lowered
      rcases lowered with ⟨next, first, others⟩
      rw [List.flatMap_cons, Model.constructed_append,
        List.forall_mem_append, ← lowerGroup_eq_run first] at constructed
      have nextGrowth : next.GrowsTo final :=
        .of_run (foldlM_lowerGroup_eq_run others ▸ growth)
      rw [ih others constructed.2,
        lowerGroup_iff reads first nextGrowth constructed.1,
        List.forall_mem_cons, and_assoc]

/-- Exactly one of the names holds besides what was assumed before. -/
theorem assumeExactlyOne_iff
    (reads : final.Reads pool value)
    {names : List String}
    (lowered : assumeExactlyOne model names = .ok grown)
    (growth : grown.GrowsTo final)
    (constructed :
      ∀ constraint ∈ model.constructed (exactlyOneSteps names),
        constraint ∈ pool) :
    names ≠ [] ∧
    ((∀ id ∈ grown.assumed, value id = 1) ↔
      (∀ id ∈ model.assumed, value id = 1) ∧
      ∃! name, name ∈ names ∧ value name = 1) := by
  simp only [assumeExactlyOne] at lowered
  split at lowered
  · rename_i name
    refine ⟨List.cons_ne_nil _ _, ?_⟩
    rw [(Model.assume_eq_run lowered).2]
    simp only [OrderedSet.mem_append, List.mem_singleton, or_imp,
      forall_and, forall_eq]
    apply and_congr_right
    intro _
    constructor
    · intro one
      exact ⟨name, ⟨rfl, one⟩, fun other member => member.1⟩
    · rintro ⟨other, ⟨rfl, one⟩, _⟩
      exact one
  · rename_i several
    simp only [bind_eq_ok_iff] at lowered
    rcases lowered with ⟨⟨one, next⟩, extended, assumed⟩
    rw [exactlyOneSteps_of_several several] at constructed
    rcases Model.extend_eq_ok extended with
      ⟨returned, nextEq, _, nextAssumed⟩
    rcases Model.assume_eq_run assumed with ⟨grownEq, grownAssumed⟩
    have nextGrowth : next.GrowsTo final := .of_run (grownEq ▸ growth)
    have oneIff :=
      reads.support_iff extended nextGrowth fun constraint member =>
        constructed constraint (List.mem_append_left _ member)
    refine ⟨?_, ?_⟩
    · rintro rfl
      rcases Model.carryOut_eq_ok (Model.set_eq_ok returned).2 with
        ⟨_, ⟨last, found, _⟩, _⟩
      cases found
    · rw [grownAssumed, nextAssumed]
      simp only [OrderedSet.mem_append, List.mem_singleton, or_imp,
        forall_and, forall_eq, oneIff, Connective.Holds]

/-! ## Period variables -/

/-- The period variables of atomic periods. -/
def periodVariables (atoms : List Period) : List PeriodVariable :=
  List.zipWith PeriodVariable.mk ((List.range atoms.length).map periodName)
    atoms

theorem mem_periodVariables
    {atoms : List Period}
    {period : PeriodVariable} :
    period ∈ periodVariables atoms ↔
      ∃ index,
        atoms[index]? = some period.period ∧
        periodName index = period.id := by
  rw [periodVariables, List.mem_iff_getElem?]
  apply exists_congr
  intro index
  rw [List.getElem?_zipWith, List.getElem?_map]
  by_cases inside : index < atoms.length
  · rw [List.getElem?_range inside, List.getElem?_eq_getElem inside]
    cases period
    simp [and_comm]
  · have beyond : atoms.length ≤ index := Nat.le_of_not_lt inside
    simp [List.getElem?_eq_none beyond]

theorem map_id_periodVariables
    (atoms : List Period) :
    (periodVariables atoms).map PeriodVariable.id =
      (List.range atoms.length).map periodName := by
  have paired :=
    @List.map_fst_zip _ _ ((List.range atoms.length).map periodName) atoms
      (by simp)
  rw [List.zip, List.map_zipWith] at paired
  rw [periodVariables, List.map_zipWith]
  exact paired

/--
The periods are the atoms of the span, which the bounds cut, if there is a
span.
-/
theorem lowerPeriods_eq_variables
    {builder : Builder}
    {periods : List PeriodVariable}
    (lowered : builder.lowerPeriods model = .ok (periods, grown)) :
    periods =
      builder.span.elim [] fun span =>
        periodVariables (atoms span builder.bounds) := by
  simp only [lowerPeriods] at lowered
  split at lowered
  · rename_i absent
    cases lowered
    rw [absent]
    rfl
  · rename_i span present
    simp only [bind_eq_ok_iff] at lowered
    obtain ⟨_, _, _, _, _, _, finished⟩ := lowered
    cases finished
    rw [present]
    rfl

/--
Exactly one of the names holds exactly if that is so of the variables.
-/
theorem existsUnique_period_iff
    {atoms : List Period} :
    (∃! name,
      name ∈ (List.range atoms.length).map periodName ∧ value name = 1) ↔
      ∃! period, period ∈ periodVariables atoms ∧ value period.id = 1 := by
  simp only [mem_periodVariables, List.mem_map, List.mem_range]
  constructor
  · rintro ⟨name, ⟨⟨index, inside, rfl⟩, one⟩, unique⟩
    refine ⟨⟨periodName index, atoms[index]⟩,
      ⟨⟨index, by simp [inside], rfl⟩, one⟩, ?_⟩
    rintro ⟨id, period⟩ ⟨⟨other, here, named⟩, otherOne⟩
    dsimp only at here named otherOne
    subst named
    have otherInside : other < atoms.length :=
      (List.getElem?_eq_some_iff.1 here).1
    have same : other = index :=
      periodName_injective (unique _ ⟨⟨other, otherInside, rfl⟩, otherOne⟩)
    subst same
    rw [List.getElem?_eq_getElem inside, Option.some.injEq] at here
    rw [here]
  · rintro ⟨period, ⟨⟨index, here, named⟩, one⟩, unique⟩
    have inside : index < atoms.length :=
      (List.getElem?_eq_some_iff.1 here).1
    refine ⟨period.id, ⟨⟨index, inside, named⟩, one⟩, ?_⟩
    rintro other ⟨⟨position, otherInside, rfl⟩, otherOne⟩
    have same := unique ⟨periodName position, atoms[position]⟩
      ⟨⟨position, by simp [otherInside], rfl⟩, otherOne⟩
    rw [← same]

/--
The groups say that everything that is bound to the active period holds.
-/
theorem groups_iff
    {atoms : List Period}
    {bounds : List TimeBound} :
    (∀ group ∈ (groupByActive atoms bounds).entries,
      (∃ index ∈ group.2, value (periodName index) = 1) →
      ∀ id ∈ group.1, value id = 1) ↔
      ∀ period ∈ periodVariables atoms,
        value period.id = 1 →
        ∀ bound ∈ bounds,
          bound.period.Covers period.period → value bound.id = 1 := by
  constructor
  · intro grouped period member one bound boundMember covers
    rcases mem_periodVariables.1 member with ⟨index, here, named⟩
    have active : bound.id ∈ activeIds bounds period.period :=
      mem_activeIds.2 ⟨bound, boundMember, covers, rfl⟩
    obtain ⟨indices, groupMember, listed⟩ := mem_groupByActive.2
      ⟨List.ne_nil_of_mem active, period.period, here, rfl⟩
    rw [← named] at one
    exact grouped _ groupMember ⟨index, listed, one⟩ bound.id active
  · rintro bound ⟨active, indices⟩ groupMember ⟨index, listed, one⟩ id
      required
    rcases mem_groupByActive.1 ⟨indices, groupMember, listed⟩ with
      ⟨_, atom, here, rfl⟩
    rcases mem_activeIds.1 required with
      ⟨timeBound, boundMember, covers, rfl⟩
    have member : ⟨periodName index, atom⟩ ∈ periodVariables atoms :=
      mem_periodVariables.2 ⟨index, here, rfl⟩
    exact bound _ member one timeBound boundMember covers

/--
Exactly one period is active, if there are any, and everything bound to it
holds.
-/
theorem lowerPeriods_iff
    (reads : final.Reads pool value)
    {builder : Builder}
    {periods : List PeriodVariable}
    (lowered : builder.lowerPeriods model = .ok (periods, grown))
    (growth : grown.GrowsTo final)
    (constructed :
      ∀ constraint ∈ model.constructed builder.periodSteps,
        constraint ∈ pool) :
    (∀ id ∈ grown.assumed, value id = 1) ↔
      (∀ id ∈ model.assumed, value id = 1) ∧
      (periods ≠ [] → ∃! period, period ∈ periods ∧ value period.id = 1) ∧
      ∀ active ∈ periods,
        value active.id = 1 →
        ∀ bound ∈ builder.bounds,
          bound.period.Covers active.period → value bound.id = 1 := by
  simp only [lowerPeriods] at lowered
  simp only [periodSteps] at constructed
  split at lowered
  · cases lowered
    simp
  · rename_i span present
    rw [present] at constructed
    simp only [bind_eq_ok_iff] at lowered
    rcases lowered with
      ⟨declared, declaration, one, exactlyOne, last, grouped, finished⟩
    cases finished
    rw [← periodVariables]
    rw [Model.constructed, Model.constructed_append, List.forall_mem_append]
      at constructed
    rcases constructed with ⟨_, constructed⟩
    have declaredEq := Model.addPrimitives_eq_run declaration
    have oneEq := assumeExactlyOne_eq_run exactlyOne
    rw [Model.run_cons, Model.run_nil] at declaredEq
    rw [← declaredEq, ← oneEq, List.forall_mem_append] at constructed
    have oneGrowth : one.GrowsTo final :=
      .of_run (foldlM_lowerGroup_eq_run grouped ▸ growth)
    rcases assumeExactlyOne_iff reads exactlyOne oneGrowth
        constructed.1 with
      ⟨nonempty, oneIff⟩
    have named : periodVariables (atoms span builder.bounds) ≠ [] := by
      intro empty
      apply nonempty
      rw [periodVariables, List.zipWith_eq_nil_iff] at empty
      rcases empty with names | none
      · exact names
      · rw [none]
        rfl
    have declaredAssumed : declared.assumed = model.assumed :=
      (Model.addPrimitives_eq_ok declaration).2.2.2
    rw [foldlM_lowerGroup_iff reads grouped growth constructed.2, oneIff,
      declaredAssumed, existsUnique_period_iff, groups_iff, and_assoc]
    simp only [ne_eq, named, not_false_eq_true, true_implies]

theorem lowerAssumptions_iff
    (reads : final.Reads pool value)
    (lowered : lowerAssumptions model = .ok final)
    (constructed :
      ∀ constraint ∈ model.constructed (rootSteps model.assumed),
        constraint ∈ pool) :
    (∀ id ∈ final.assumed, value id = 1) ↔
      ∀ id ∈ model.assumed, value id = 1 := by
  rcases lowerAssumptions_eq_ok lowered with
    ⟨_, same⟩ | ⟨root, rooted, stepsEq, extended, finalEq⟩
  · rw [same]
  · rw [stepsEq] at constructed
    have growth : rooted.GrowsTo final := by
      rw [finalEq]
      exact ⟨List.prefix_rfl, List.prefix_rfl⟩
    have rootIff :=
      reads.support_iff extended growth fun constraint member =>
        constructed constraint (List.mem_append_left _ member)
    have only : ∀ id, id ∈ final.assumed ↔ id = root := by
      intro id
      rw [finalEq]
      exact OrderedSet.mem_ofList.trans List.mem_singleton
    simp only [only, forall_eq, rootIff]
    exact Iff.rfl

/-! ## All lowerings together -/

theorem build_eq_ok
    {builder : Builder}
    {ruleset : Ruleset}
    (built : builder.build = .ok ruleset) :
    ∃ lowered,
      builder.lower = .ok lowered ∧
      lowered.model.polyhedron = .ok ruleset.polyhedron ∧
      ruleset.ids = lowered.model.ids ∧
      ruleset.periods = lowered.periods := by
  simp only [build, bind_eq_ok_iff, refusable_eq_ok_iff, faulting_eq_ok_iff]
    at built
  rcases built with
    ⟨lowered, computed, polyhedron, rows, independent, _, finished⟩
  cases finished
  exact ⟨lowered, computed, rows, rfl, rfl⟩

/--
What is assumed in the lowered model holds exactly if the rules of the
builder do.
-/
theorem lower_iff
    {builder : Builder}
    {lowered : Lowered}
    (computed : builder.lower = .ok lowered)
    (distinct :
      IdsDetermine
        (builder.model.constraints ++
          builder.model.constructed builder.lowerSteps))
    (binary : ∀ id, value id = 0 ∨ value id = 1)
    (consistent : lowered.model.Consistent value) :
    (∀ id ∈ lowered.model.assumed, value id = 1) ↔
      (∀ id ∈ builder.model.assumed, value id = 1) ∧
      (lowered.periods ≠ [] →
        ∃! period, period ∈ lowered.periods ∧ value period.id = 1) ∧
      ∀ active ∈ lowered.periods,
        value active.id = 1 →
        ∀ bound ∈ builder.bounds,
          bound.period.Covers active.period → value bound.id = 1 := by
  rcases lowered_model computed with ⟨idsEq, constraintsEq⟩
  rcases lower_eq_ok computed with ⟨preferred, preferences, timed, joined⟩
  have reads :
      lowered.model.Reads
        (builder.model.constraints ++
          builder.model.constructed builder.lowerSteps) value := by
    refine ⟨?_, distinct, binary, consistent⟩
    intro constraint member
    rw [constraintsEq] at member
    exact List.mem_append.2 (Model.constraints_run member)
  have growth :
      (builder.model.run builder.earlySteps).GrowsTo lowered.model := by
    have grown := Model.growsTo_run (builder.model.run builder.earlySteps)
      (rootSteps (builder.model.run builder.earlySteps).assumed)
    rw [← Model.run_append, ← lowerSteps] at grown
    constructor
    · rw [idsEq]
      exact grown.ids
    · rw [constraintsEq]
      exact grown.constraints
  rcases lowerPreferences_eq_ok preferences with
    ⟨preferredEq, preferredAssumed, _⟩
  have rootConstructed :
      ∀ constraint ∈ (builder.model.run builder.earlySteps).constructed
          (rootSteps (builder.model.run builder.earlySteps).assumed),
        constraint ∈
          builder.model.constraints ++
            builder.model.constructed builder.lowerSteps := by
    intro constraint member
    rw [lowerSteps, Model.constructed_append]
    exact List.mem_append_right _ (List.mem_append_right _ member)
  have periodsConstructed :
      ∀ constraint ∈ preferred.constructed builder.periodSteps,
        constraint ∈
          builder.model.constraints ++
            builder.model.constructed builder.lowerSteps := by
    intro constraint member
    rw [lowerSteps, Model.constructed_append, earlySteps,
      Model.constructed_append, ← preferredEq]
    exact List.mem_append_right _
      (List.mem_append_left _ (List.mem_append_right _ member))
  rw [lowerAssumptions_iff reads joined rootConstructed,
    lowerPeriods_iff reads timed growth periodsConstructed,
    preferredAssumed]

end Configurator.Builder
