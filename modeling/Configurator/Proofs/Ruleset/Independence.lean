import Configurator.Proofs.Ruleset.Compilation

/-!
# Independent variables

A variable is independent if its column holds zeros only.  Such a variable
is a name that was declared, no constraint mentions it and it is not the
assumed root: every mention leaves an entry other than zero, and the column
of a support has one in the rows of its own constraint.  The periods are
declared when the rule set is compiled, and what compiling constructs
mentions every one of them; so none of them is independent, provided that
constraints are told apart by their ids.  If a conjunction is confused with
an older one, a period can be lost.
-/

namespace Configurator

open Configurator.Calendar Configurator.Collection Configurator.Linear
  Configurator.Logic Configurator.Schedule

/-! ## Mentions in the rows of a model -/

/-- The row of an assumption mentions the assumed id only. -/
theorem Linear.Inequality.coefficient_require_ne_zero_iff
    {assumed id : String} :
    (Inequality.require assumed).coefficients.coefficient id ≠ 0 ↔
      id = assumed := by
  constructor
  · intro nonzero
    by_contra different
    refine nonzero (Coefficients.coefficient_of_notMem fun listed => ?_)
    rcases Coefficients.mem_ids_insert.1 listed with same | impossible
    · exact different same
    · exact absurd impossible List.not_mem_nil
  · rintro rfl
    have entry :
        (id, (1 : Int)) ∈ (Inequality.require id).coefficients.entries :=
      List.mem_singleton_self _
    rw [Coefficients.coefficient_of_mem entry]
    exact Int.one_ne_zero

namespace Logic.Model

variable {model : Model} {id : String}

/-- No row mentions an id that is no support, no operand and not assumed. -/
theorem WellFormed.unmentioned_iff
    (wellFormed : model.WellFormed) :
    model.Unmentioned id ↔
      id ∉ model.supports ∧
      (∀ constraint ∈ model.constraints, id ∉ constraint.operands) ∧
      id ∉ model.assumed := by
  have linked (constraint : Constraint)
      (member : constraint ∈ model.constraints) :
      (∃ link ∈ constraint.links, link.coefficients.coefficient id ≠ 0) ↔
        id = constraint.id ∨ id ∈ constraint.operands := by
    have cardinality := (wellFormed.wellMade constraint member).cardinality
    exact cardinality.exists_link_ne_zero_iff
      (wellFormed.id_notMem_operands member)
  constructor
  · intro unmentioned
    have absent : ∀ constraint ∈ model.constraints,
        ¬ (id = constraint.id ∨ id ∈ constraint.operands) := by
      intro constraint member mentioned
      obtain ⟨link, linkMember, nonzero⟩ :=
        (linked constraint member).2 mentioned
      exact nonzero
        (unmentioned link
          (List.mem_append_left _
            (List.mem_flatMap.2 ⟨constraint, member, linkMember⟩)))
    refine ⟨?_,
      fun constraint member mentioned =>
        absent constraint member (Or.inr mentioned), ?_⟩
    · intro support
      obtain ⟨constraint, member, rfl⟩ := List.mem_map.1 support
      exact absent constraint member (Or.inl rfl)
    · intro assumed
      refine Inequality.coefficient_require_ne_zero_iff.2 rfl
        (unmentioned (Inequality.require id) ?_)
      exact List.mem_append_right _ (List.mem_map_of_mem assumed)
  · rintro ⟨unsupported, unused, unassumed⟩ row member
    by_contra nonzero
    rcases List.mem_append.1 member with link | assumption
    · obtain ⟨constraint, stored, linkMember⟩ := List.mem_flatMap.1 link
      rcases (linked constraint stored).1 ⟨row, linkMember, nonzero⟩ with
        rfl | mentioned
      · exact unsupported (List.mem_map_of_mem stored)
      · exact unused constraint stored mentioned
    · obtain ⟨assumed, assumedMember, rfl⟩ := List.mem_map.1 assumption
      rw [Inequality.coefficient_require_ne_zero_iff.1 nonzero] at unassumed
      exact unassumed assumedMember

end Logic.Model

/-! ## Rule sets that are built -/

namespace Builder

variable {builder : Builder} {ruleset : Ruleset} {lowered : Lowered}

/--
What can be selected are the primitives of the builder, in their order.
-/
theorem toList_selectable
    (wellFormed : builder.model.WellFormed)
    (built : builder.build = .ok ruleset)
    (computed : builder.lower = .ok lowered) :
    ruleset.selectable.toList = builder.model.primitives := by
  have listed := primitives_lowered wellFormed computed
  have nodup : lowered.model.primitives.Nodup :=
    lowered.model.ids.nodup.filter _
  rw [listed, List.nodup_append] at nodup
  obtain ⟨nodup, _, apart⟩ := nodup
  have kept :
      (lowered.model.primitives.filter fun id =>
          id ∉ lowered.periods.map PeriodVariable.id) =
        builder.model.primitives := by
    have stay :
        ∀ id ∈ builder.model.primitives,
          decide (id ∉ lowered.periods.map PeriodVariable.id) = true :=
      fun id member =>
        decide_eq_true fun period => apart id member id period rfl
    have go : ∀ id ∈ lowered.periods.map PeriodVariable.id,
        ¬ decide (id ∉ lowered.periods.map PeriodVariable.id) = true :=
      fun id period kept => of_decide_eq_true kept period
    rw [listed, List.filter_append, List.filter_eq_self.2 stay,
      List.filter_eq_nil_iff.2 go, List.append_nil]
  rw [selectable_eq built computed, kept]
  exact congrArg OrderedSet.toList
    (OrderedSet.ofList_toList ⟨builder.model.primitives, nodup⟩)

/-- Whether a variable is independent can be read off its column. -/
theorem independent_iff_column
    (wellFormed : builder.model.WellFormed)
    (built : builder.build = .ok ruleset)
    {id : String}
    {column : Nat}
    (here : ruleset.ids.toList[column]? = some id) :
    id ∈ ruleset.independent ↔
      ∀ row ∈ ruleset.polyhedron.rows, row[column]? = some 0 := by
  obtain ⟨lowered, compiled⟩ := compiled_of_build wellFormed built
  rw [compiled.ids_eq] at here
  rw [mem_independent_iff built compiled.computed,
    compiled.represents.column_zero_iff here]
  refine ⟨And.right, fun unmentioned => ⟨?_, unmentioned⟩⟩
  exact Model.mem_primitives.2
    ⟨List.mem_of_getElem? here,
      (compiled.wellFormed.unmentioned_iff.1 unmentioned).1⟩

/-- No support is independent, as its constraint mentions it. -/
theorem support_notMem_independent
    (wellFormed : builder.model.WellFormed)
    (built : builder.build = .ok ruleset)
    (computed : builder.lower = .ok lowered) :
    ∀ constraint ∈ lowered.model.constraints,
      constraint.id ∉ ruleset.independent := by
  intro constraint member independent
  have unmentioned := ((mem_independent_iff built computed).1 independent).2
  exact ((wellFormed_lowered wellFormed computed).unmentioned_iff.1
          unmentioned).1 (List.mem_map_of_mem member)

/--
Constraints that are told apart are stored, so all of them count as
mentions.
-/
theorem pool_mentions_iff
    (computed : builder.lower = .ok lowered)
    (distinct : IdsDetermine builder.pool)
    {id : String} :
    (∃ constraint ∈ builder.pool, id ∈ constraint.operands) ↔
      ∃ constraint ∈ lowered.model.constraints,
        id ∈ constraint.operands := by
  have constraintsEq := (lowered_model computed).2
  have pooled :
      ∀ constraint ∈ lowered.model.constraints,
        constraint ∈ builder.pool := by
    intro constraint member
    rw [constraintsEq] at member
    exact List.mem_append.2 (Model.constraints_run member)
  constructor
  · rintro ⟨constraint, member, mentioned⟩
    rcases List.mem_append.1 member with old | constructed
    · exact ⟨constraint,
        (growsTo_lowered computed).constraints.subset old, mentioned⟩
    · obtain ⟨stored, storedMember, sameId⟩ :=
        exists_stored computed constructed
      have sameRow :=
        distinct stored (pooled stored storedMember) constraint member
          sameId
      refine ⟨stored, storedMember, ?_⟩
      rwa [Constraint.operands, sameRow]
  · rintro ⟨constraint, member, mentioned⟩
    exact ⟨constraint, pooled constraint member, mentioned⟩

/-- No period is independent, as lowering mentions all of them. -/
theorem period_notMem
    (wellFormed : builder.model.WellFormed)
    (built : builder.build = .ok ruleset)
    (computed : builder.lower = .ok lowered)
    (distinct : IdsDetermine builder.pool) :
    ∀ id ∈ lowered.periods.map PeriodVariable.id,
      id ∉ ruleset.independent := by
  intro id member independent
  obtain ⟨_, unused, unassumed⟩ :=
    (wellFormed_lowered wellFormed computed).unmentioned_iff.1
      ((mem_independent_iff built computed).1 independent).2
  rcases lowered_mentions computed id member with
    assumed | ⟨constraint, constructed, mentioned⟩
  · exact unassumed assumed
  · obtain ⟨stored, storedMember, storedMentions⟩ :=
      (pool_mentions_iff computed distinct).1
        ⟨constraint, List.mem_append_right _ constructed, mentioned⟩
    exact unused stored storedMember storedMentions

/--
Independent means unmentioned.  A variable of a built rule set is
independent exactly if its column is zero, and no support is; what can be
selected are the declared names in their order.  If the constraints that
building makes are told apart by their ids, no period is independent either,
and a variable is independent exactly if its name was declared, no
constraint of the builder and none that compiling constructs mentions it,
and it is not the assumed root.
-/
theorem independent_iff_unmentioned
    (steps : List Step)
    (ruleset : Ruleset) :
    let builder := (ofModel .empty).run steps
    let declared := Model.empty.declared (steps.flatMap Step.modelSteps)
    builder.build = .ok ruleset →
    ∃ lowered,
      builder.lower = .ok lowered ∧
      ruleset.ids = lowered.model.ids ∧
      lowered.model.assumed.size ≤ 1 ∧
      ruleset.selectable.toList = declared ∧
      (∀ (id : String) (column : Nat),
        ruleset.ids.toList[column]? = some id →
        (id ∈ ruleset.independent ↔
          ∀ row ∈ ruleset.polyhedron.rows, row[column]? = some 0)) ∧
      (∀ constraint ∈ lowered.model.constraints,
        constraint.id ∉ ruleset.independent) ∧
      (IdsDetermine builder.pool →
        (∀ period ∈ ruleset.periods, period.id ∉ ruleset.independent) ∧
        ∀ id,
          id ∈ ruleset.independent ↔
            id ∈ declared ∧
            (∀ constraint ∈ builder.pool, id ∉ constraint.operands) ∧
            id ∉ lowered.model.assumed) := by
  intro builder declared built
  have wellFormed : builder.model.WellFormed :=
    wellFormed_run Model.wellFormed_empty steps
  obtain ⟨lowered, compiled⟩ := compiled_of_build wellFormed built
  have computed := compiled.computed
  have given : builder.model.primitives = declared := by
    show ((ofModel .empty).run steps).model.primitives = _
    rw [model_run]
    exact Model.primitives_run Model.wellFormed_empty _
  have listed :
      lowered.model.primitives =
        declared ++ ruleset.periods.map PeriodVariable.id := by
    rw [primitives_lowered wellFormed computed, given, compiled.periods_eq]
  refine ⟨lowered, computed, compiled.ids_eq, size_assumed_lowered computed,
    (toList_selectable wellFormed built computed).trans given,
    fun id column here => independent_iff_column wellFormed built here,
    support_notMem_independent wellFormed built computed,
    fun distinct => ?_⟩
  have apart := period_notMem wellFormed built computed distinct
  rw [← compiled.periods_eq] at apart
  refine ⟨fun period member => apart _ (List.mem_map_of_mem member),
    fun id => ⟨?_, ?_⟩⟩
  · intro independent
    obtain ⟨primitive, unmentioned⟩ :=
      (mem_independent_iff built computed).1 independent
    obtain ⟨_, unused, unassumed⟩ :=
      compiled.wellFormed.unmentioned_iff.1 unmentioned
    rw [listed] at primitive
    have named : id ∈ declared :=
      (List.mem_append.1 primitive).resolve_right fun period =>
        apart id period independent
    refine ⟨named, fun constraint member mentioned => ?_, unassumed⟩
    obtain ⟨stored, storedMember, storedMentions⟩ :=
      (pool_mentions_iff computed distinct).1
        ⟨constraint, member, mentioned⟩
    exact unused stored storedMember storedMentions
  · rintro ⟨named, unused, unassumed⟩
    have primitive : id ∈ lowered.model.primitives := by
      rw [listed]
      exact List.mem_append_left _ named
    refine (mem_independent_iff built computed).2
      ⟨primitive,
        compiled.wellFormed.unmentioned_iff.2
          ⟨(Model.mem_primitives.1 primitive).2,
            fun constraint member mentioned => ?_, unassumed⟩⟩
    obtain ⟨pooled, pooledMember, pooledMentions⟩ :=
      (pool_mentions_iff computed distinct).2
        ⟨constraint, member, mentioned⟩
    exact unused pooled pooledMember pooledMentions

/--
Of an id without rules, one that is preferred and assumed, and one that is
bound to a month.
-/
theorem independent_iff_unmentioned_month :
    ∃ ruleset,
      ((ofModel .empty).run
        (.model (.addPrimitives ["spare"]) :: monthSteps)).build =
        .ok ruleset ∧
      ruleset.selectable.toList = ["spare", "a", "b"] ∧
      "spare" ∈ ruleset.independent ∧
      ∀ period ∈ ruleset.periods, period.id ∉ ruleset.independent := by
  have checked :
      (((ofModel .empty).run
         (.model (.addPrimitives ["spare"]) ::
           monthSteps)).build.toOption.map fun ruleset =>
             decide
               (ruleset.ids.toList[0]? = some "spare" ∧
                 ∀ row ∈ ruleset.polyhedron.rows, row[0]? = some 0)) = some
               true := by
    decide +kernel
  obtain ⟨ruleset, found, zero⟩ := Option.map_eq_some_iff.1 checked
  have built := toOption_eq_some_iff.1 found
  obtain ⟨here, zeros⟩ := of_decide_eq_true zero
  obtain ⟨lowered, _, _, _, selectable, columns, _, periods⟩ :=
    independent_iff_unmentioned
      (.model (.addPrimitives ["spare"]) :: monthSteps) ruleset built
  exact ⟨ruleset, built, selectable.trans (by decide +kernel),
    (columns "spare" 0 here).2 zeros, (periods (by decide +kernel)).1⟩

/--
A period joins an assumption in a conjunction that is confused with an older
one, whose operand continues the name of the assumption.
-/
def confusedSteps : List Step :=
  let april : Instant :=
    ⟨⟨2028, 4, 1, by decide⟩, 6, 45, 20, 7, by decide, by decide, by decide,
      by decide⟩
  let may : Instant :=
    ⟨⟨2028, 5, 1, by decide⟩, 6, 45, 20, 7, by decide, by decide, by decide,
      by decide⟩
  [.model (.addPrimitives ["a", "a1b", "b1period_0"]),
    .model (.set .conjunction ["a", "b1period_0"]),
    .model (.set .disjunction ["a", "a1b"]), .assume ["a1b"],
    .enablePeriod ⟨april, may⟩]

/--
If constraints are not told apart by their ids, a period can be independent.
-/
theorem period_independent_for_continued_name :
    ∃ ruleset,
      ((ofModel .empty).run confusedSteps).build = .ok ruleset ∧
      (∃ period ∈ ruleset.periods, period.id = "period_0") ∧
      "period_0" ∈ ruleset.independent := by
  have checked :
      (((ofModel .empty).run confusedSteps).build.toOption.map
        fun ruleset =>
          decide
            ((∃ period ∈ ruleset.periods, period.id = "period_0") ∧
              "period_0" ∈ ruleset.independent)) = some true := by
    decide +kernel
  obtain ⟨ruleset, found, lost⟩ := Option.map_eq_some_iff.1 checked
  exact ⟨ruleset, toOption_eq_some_iff.1 found, of_decide_eq_true lost⟩

end Builder

end Configurator
