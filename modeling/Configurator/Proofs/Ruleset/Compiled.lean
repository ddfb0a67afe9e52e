import Configurator.Proofs.Ruleset.Compile

/-!
# Compiled rule sets

What a rule set that was built says about the model from which it was built:
its columns and rows are those of the lowered model, what can be selected
are the primitives without the periods, no row mentions an independent
variable, and the preferred supports are negations of single ids.
-/

namespace Configurator

open Configurator.Calendar Configurator.Collection Configurator.Linear
  Configurator.Logic Configurator.Schedule

/-- No digest is named like a period. -/
theorem Digest.Sha1.hexDigest_ne_periodName
    (message : List UInt8)
    (index : Nat) :
    hexDigest message ≠ periodName index := by
  have digits : ∀ digit : Fin 16, Text.hexDigit digit.val ≠ 'p' := by decide
  have named : (periodName index).toList.head? = some 'p' := by
    have parts : periodName index = "period_" ++ toString index := rfl
    rw [parts, String.toList_append]
    rfl
  intro same
  have first :
      Text.hexDigit (((digest message).a.toNat >>> 28) % 16) = 'p' := by
    rw [← same] at named
    simpa [hexDigest, hexWord] using named
  exact digits ⟨_, Nat.mod_lt _ (by decide)⟩ first

theorem Logic.Constraint.WellMade.id_ne_periodName
    {constraint : Constraint}
    (wellMade : constraint.WellMade)
    (index : Nat) :
    constraint.id ≠ periodName index := by
  rw [wellMade.content]
  exact Digest.Sha1.hexDigest_ne_periodName _ index

/-! ## Columns that no row mentions -/

/-- No row of the model mentions the id. -/
def Logic.Model.Unmentioned (model : Model) (id : String) : Prop :=
  ∀ row ∈ model.inequalities, row.coefficients.coefficient id = 0

namespace Linear.Polyhedron

variable {polyhedron : Polyhedron} {column : Nat}

/-- The verdict on a column says whether all of its entries are zero. -/
theorem columnIsZero_eq_ok
    {verdict : Bool}
    (computed : polyhedron.columnIsZero column = .ok verdict) :
    verdict = true ↔ ∀ row ∈ polyhedron.rows, row[column]? = some 0 := by
  rw [columnIsZero] at computed
  generalize polyhedron.rows = rows at computed ⊢
  induction rows with
  | nil =>
      cases computed
      simp
  | cons row rest ih =>
      rw [List.forall_mem_cons]
      simp only [zeroColumn] at computed
      split at computed
      · cases computed
      · rename_i zero
        rw [ih computed, zero]
        simp
      · rename_i value nonzero here
        cases computed
        rw [here]
        simpa using fun zero => absurd zero nonzero

/--
A column of a represented polyhedron is zero if no inequality mentions its
variable.
-/
theorem Represents.column_zero_iff
    {ids : OrderedSet String}
    {inequalities : List Inequality}
    (represents : polyhedron.Represents ids inequalities)
    {id : String}
    (here : ids.toList[column]? = some id) :
    (∀ row ∈ polyhedron.rows, row[column]? = some 0) ↔
      ∀ inequality ∈ inequalities,
        inequality.coefficients.coefficient id = 0 := by
  rw [represents.rows_eq, List.forall_mem_map]
  refine forall₂_congr fun inequality _ => ?_
  rw [Coefficients.row, List.getElem?_map, here, Option.map_some,
    Option.some.injEq]

end Linear.Polyhedron

/-- The listed ids are those whose columns are zero. -/
theorem Builder.mem_unmentioned_iff
    {polyhedron : Polyhedron}
    {columns : List (String × Nat)}
    {ids : List String}
    (computed : Builder.unmentioned polyhedron columns = .ok ids)
    {id : String} :
    id ∈ ids ↔
      ∃ column,
        (id, column) ∈ columns ∧
        ∀ row ∈ polyhedron.rows, row[column]? = some 0 := by
  induction columns generalizing ids with
  | nil =>
      cases computed
      simp
  | cons first rest ih =>
      rcases first with ⟨name, place⟩
      simp only [Builder.unmentioned, bind_eq_ok_iff] at computed
      obtain ⟨zero, columnZero, others, later, finished⟩ := computed
      have zeros := Polyhedron.columnIsZero_eq_ok columnZero
      have split : (∃ column, (id, column) ∈ (name, place) :: rest ∧
          ∀ row ∈ polyhedron.rows, row[column]? = some 0) ↔
            (id = name ∧ zero = true) ∨ id ∈ others := by
        rw [ih later, zeros]
        simp only [List.mem_cons, Prod.mk.injEq, or_and_right, exists_or,
          and_assoc, exists_and_left, exists_eq_left]
      rw [split]
      cases zero with
      | false =>
          cases finished
          simp
      | true =>
          cases finished
          simp

/--
The columns of the primitives, without their places, are the primitives.
-/
theorem Logic.Model.map_fst_primitiveColumns
    (model : Model) :
    (model.ids.toList.zipIdx.filter fun (id, _) => !model.isSupport id).map
        Prod.fst =
      model.primitives := by
  have listed : model.ids.toList.zipIdx.map Prod.fst = model.ids.toList :=
    List.zipIdx_map_fst 0 _
  simp only [Model.primitives]
  rw [← listed, List.filter_map, listed]
  rfl

/-! ## Rule sets and their models -/

/-- The rule set was built from a builder whose lowered model it is. -/
structure Ruleset.Compiled
    (ruleset : Ruleset)
    (builder : Builder)
    (lowered : Builder.Lowered) :
    Prop where
  /-- The builder was lowered to the model. -/
  computed : builder.lower = .ok lowered
  /-- The model is well formed. -/
  wellFormed : lowered.model.WellFormed
  /-- The columns are the variables of the model. -/
  ids_eq : ruleset.ids = lowered.model.ids
  /-- The rows are those of the model. -/
  represents :
    ruleset.polyhedron.Represents lowered.model.ids
      lowered.model.inequalities
  /-- The periods are those of the lowering. -/
  periods_eq : ruleset.periods = lowered.periods
  /-- The preferred supports are those of the lowering. -/
  preferredSupports_eq :
    ruleset.preferredSupports = lowered.preferredSupports
  /-- What can be selected are primitives that stand for no period. -/
  selectable_iff :
    ∀ id,
      id ∈ ruleset.selectable ↔
        id ∈ lowered.model.primitives ∧
        id ∉ ruleset.periods.map PeriodVariable.id
  /-- The independent variables are primitives that no row mentions. -/
  independent : ∀ id ∈ ruleset.independent,
    id ∈ lowered.model.primitives ∧ lowered.model.Unmentioned id

namespace Builder

/-- The independent variables are the primitives that no row mentions. -/
theorem mem_independent_iff
    {builder : Builder}
    {ruleset : Ruleset}
    {lowered : Lowered}
    {id : String}
    (built : builder.build = .ok ruleset)
    (computed : builder.lower = .ok lowered) :
    id ∈ ruleset.independent ↔
      id ∈ lowered.model.primitives ∧ lowered.model.Unmentioned id := by
  simp only [build, computed, bind_eq_ok_iff, refusable_eq_ok_iff,
    faulting_eq_ok_iff] at built
  obtain ⟨_, same, polyhedron, rows, independent, zeros, finished⟩ := built
  cases same
  cases finished
  have represents := Model.polyhedron_represents rows
  rw [OrderedSet.mem_ofList, mem_unmentioned_iff zeros]
  simp only [List.mem_filter, List.mk_mem_zipIdx_iff_getElem?]
  constructor
  · rintro ⟨column, ⟨here, primitive⟩, zero⟩
    exact ⟨List.mem_filter.2 ⟨List.mem_of_getElem? here, primitive⟩,
      (represents.column_zero_iff here).1 zero⟩
  · rintro ⟨primitive, unmentioned⟩
    obtain ⟨known, unsupported⟩ := List.mem_filter.1 primitive
    obtain ⟨column, here⟩ := List.mem_iff_getElem?.1 known
    exact ⟨column, ⟨here, unsupported⟩,
      (represents.column_zero_iff here).2 unmentioned⟩

/--
What can be selected are the primitives without the periods, in their order.
-/
theorem selectable_eq
    {builder : Builder}
    {ruleset : Ruleset}
    {lowered : Lowered}
    (built : builder.build = .ok ruleset)
    (computed : builder.lower = .ok lowered) :
    ruleset.selectable =
      OrderedSet.ofList
        (lowered.model.primitives.filter fun id =>
          id ∉ lowered.periods.map PeriodVariable.id) := by
  simp only [build, computed, bind_eq_ok_iff, refusable_eq_ok_iff,
    faulting_eq_ok_iff] at built
  obtain ⟨_, same, polyhedron, rows, independent, zeros, finished⟩ := built
  cases same
  cases finished
  rw [← Model.map_fst_primitiveColumns]

theorem compiled_of_build
    {builder : Builder}
    (wellFormed : builder.model.WellFormed)
    {ruleset : Ruleset}
    (built : builder.build = .ok ruleset) :
    ∃ lowered, ruleset.Compiled builder lowered := by
  obtain ⟨lowered, computed, rows, idsEq, periodsEq⟩ := build_eq_ok built
  refine ⟨lowered, computed, wellFormed_lowered wellFormed computed, idsEq,
    Model.polyhedron_represents rows, periodsEq, ?_, ?_, ?_⟩
  · simp only [build, computed, bind_eq_ok_iff, refusable_eq_ok_iff,
      faulting_eq_ok_iff] at built
    obtain ⟨_, same, polyhedron, rows, independent, zeros, finished⟩ :=
      built
    cases same
    cases finished
    rfl
  · intro id
    rw [selectable_eq built computed, OrderedSet.mem_ofList,
      List.mem_filter, decide_eq_true_eq, periodsEq]
  · exact fun id member => (mem_independent_iff built computed).1 member

/--
The constraints that compiling tells apart: the stored and the constructed
ones.
-/
def pool (builder : Builder) : List Constraint :=
  builder.model.constraints ++ builder.model.constructed builder.lowerSteps

/-! ## Preferred supports -/

private theorem eq_uniform_of_negation
    {id : String}
    {last : Constraint}
    (found : (Connective.negation.lower [id]).last? = some last) :
    last = Constraint.uniform [id] (-1) 0 := by
  have planned : (Lowering.noneOf [id]).last? = some last := found
  rcases Lowering.last?_withDistinct_eq_some.1 planned with ⟨_, made⟩
  rw [Lowering.last?_ofResult_eq_some] at made
  obtain ⟨_, _, _, _, lastEq⟩ := Constraint.cardinality_eq_ok_iff.1 made
  exact lastEq

private theorem foldlM_lowerPreference_supports
    {preferences : List String}
    {model grown : Model}
    {known supports : OrderedSet String}
    (lowered :
      preferences.foldlM lowerPreference (known, model) =
        .ok (supports, grown)) :
    ∀ support ∈ supports, support ∈ known ∨
      ∃ id,
        support = (Constraint.uniform [id] (-1) 0).id ∧
        Constraint.uniform [id] (-1) 0 ∈
          model.constructed (preferenceSteps preferences) ∧
        ∃ stored ∈ grown.constraints, stored.id = support := by
  induction preferences generalizing known model with
  | nil =>
      cases lowered
      intro support member
      exact Or.inl member
  | cons id rest ih =>
      rw [List.foldlM_cons, bind_eq_ok_iff] at lowered
      rcases lowered with ⟨_, first, others⟩
      rcases lowerPreference_eq_ok first with ⟨name, next, extended, rfl⟩
      rcases Model.extend_eq_ok extended with ⟨returned, nextEq, _, _⟩
      rcases Model.set_eq_ok returned with ⟨required, carried⟩
      rcases Model.carryOut_eq_ok carried with
        ⟨triedEq, ⟨last, found, rfl⟩, storedById⟩
      have negation := eq_uniform_of_negation found
      have planned := Lowering.mem_constraints_of_last? found
      have growth : next.GrowsTo grown := by
        rw [(foldlM_lowerPreference_eq_run others).1]
        exact Model.growsTo_run _ _
      intro support member
      rcases ih others support member with
        early | ⟨other, same, constructed, stored⟩
      · rcases OrderedSet.mem_insert.1 early with old | rfl
        · exact Or.inl old
        · right
          refine ⟨id, by rw [negation], ?_, ?_⟩
          · apply List.mem_append_left
            rw [← negation]
            simp only [Model.constructedBy, required, triedEq]
            exact planned
          · rcases storedById last planned with
              ⟨stored, storedMember, sameId⟩
            exact ⟨stored, growth.constraints.subset storedMember, sameId⟩
      · right
        refine ⟨other, same, ?_, stored⟩
        apply List.mem_append_right
        rw [nextEq] at constructed
        exact constructed

/-- Every preferred support belongs to the negation of an id. -/
theorem lowerPreferences_supports
    {preferences : List String}
    {model grown : Model}
    {supports : OrderedSet String}
    (lowered : lowerPreferences model preferences = .ok (supports, grown)) :
    ∀ support ∈ supports, ∃ id,
      support = (Constraint.uniform [id] (-1) 0).id ∧
      Constraint.uniform [id] (-1) 0 ∈
        model.constructed (preferenceSteps preferences) ∧
      ∃ stored ∈ grown.constraints, stored.id = support := by
  intro support member
  rcases foldlM_lowerPreference_supports lowered support member with
    impossible | negation
  · exact absurd impossible (OrderedSet.not_mem_empty support)
  · exact negation

/-! ## Period variables -/

theorem lowerPeriods_periods
    {builder : Builder}
    {model grown : Model}
    {periods : List PeriodVariable}
    (lowered : builder.lowerPeriods model = .ok (periods, grown)) :
    (periods.map PeriodVariable.id).Nodup ∧
    ∀ period ∈ periods, ∃ index, period.id = periodName index := by
  have periodsEq := lowerPeriods_eq_variables lowered
  cases present : builder.span with
  | none =>
      rw [present] at periodsEq
      subst periodsEq
      exact ⟨List.nodup_nil, fun _ member => absurd member List.not_mem_nil⟩
  | some span =>
      rw [present, Option.elim_some] at periodsEq
      subst periodsEq
      constructor
      · rw [map_id_periodVariables]
        exact List.nodup_range.map periodName_injective
      · intro period member
        rcases mem_periodVariables.1 member with ⟨index, _, named⟩
        exact ⟨index, named.symm⟩

end Builder

/-! ## Consequences -/

namespace Ruleset.Compiled

variable {ruleset : Ruleset} {builder : Builder} {lowered : Builder.Lowered}

theorem stored_mem_pool
    (compiled : ruleset.Compiled builder lowered) :
    ∀ constraint ∈ lowered.model.constraints,
      constraint ∈ builder.pool := by
  intro constraint member
  rw [(Builder.lowered_model compiled.computed).2] at member
  exact List.mem_append.2 (Model.constraints_run member)

/--
A preferred support is that of a constructed negation, which the model has.
-/
theorem preferred_support
    (compiled : ruleset.Compiled builder lowered) :
    ∀ support ∈ ruleset.preferredSupports,
      support ∈ lowered.model.supports ∧
      ∃ id,
        support = (Constraint.uniform [id] (-1) 0).id ∧
        Constraint.uniform [id] (-1) 0 ∈ builder.pool := by
  rcases Builder.lower_eq_ok compiled.computed with
    ⟨preferred, preferences, _, _⟩
  have constraintsEq := (Builder.lowered_model compiled.computed).2
  intro support member
  rw [compiled.preferredSupports_eq] at member
  obtain ⟨id, same, constructed, stored, storedMember, storedId⟩ :=
    Builder.lowerPreferences_supports preferences support member
  have kept : stored ∈ lowered.model.constraints := by
    rw [constraintsEq, Builder.lowerSteps, Builder.earlySteps,
      Model.run_append, Model.run_append,
      ← (Builder.lowerPreferences_eq_ok preferences).1]
    exact ((Model.growsTo_run _ _).trans
            (Model.growsTo_run _ _)).constraints.subset storedMember
  refine ⟨List.mem_map.2 ⟨stored, kept, storedId⟩, id, same, ?_⟩
  simp only [Builder.pool, Builder.lowerSteps, Builder.earlySteps]
  rw [Model.constructed_append, Model.constructed_append]
  exact List.mem_append_right _
    (List.mem_append_left _ (List.mem_append_left _ constructed))

theorem periods_nodup
    (compiled : ruleset.Compiled builder lowered) :
    (ruleset.periods.map PeriodVariable.id).Nodup := by
  rcases Builder.lower_eq_ok compiled.computed with ⟨_, _, timed, _⟩
  rw [compiled.periods_eq]
  exact (Builder.lowerPeriods_periods timed).1

theorem period_name
    (compiled : ruleset.Compiled builder lowered)
    {period : PeriodVariable}
    (member : period ∈ ruleset.periods) :
    ∃ index, period.id = periodName index := by
  rcases Builder.lower_eq_ok compiled.computed with ⟨_, _, timed, _⟩
  rw [compiled.periods_eq] at member
  exact (Builder.lowerPeriods_periods timed).2 period member

/-- A constraint's id is no period. -/
theorem id_notMem_periods
    (compiled : ruleset.Compiled builder lowered)
    {constraint : Constraint}
    (wellMade : constraint.WellMade) :
    constraint.id ∉ ruleset.periods.map PeriodVariable.id := by
  intro member
  rcases List.mem_map.1 member with ⟨period, periodMember, same⟩
  rcases compiled.period_name periodMember with ⟨index, named⟩
  exact wellMade.id_ne_periodName index (same.symm.trans named)

/-- A primitive can be selected or stands for a period. -/
theorem primitive_cases
    (compiled : ruleset.Compiled builder lowered)
    {id : String}
    (primitive : id ∈ lowered.model.primitives) :
    id ∈ ruleset.selectable ∨
    id ∈ ruleset.periods.map PeriodVariable.id := by
  by_cases period : id ∈ ruleset.periods.map PeriodVariable.id
  · exact Or.inr period
  · exact Or.inl ((compiled.selectable_iff id).2 ⟨primitive, period⟩)

theorem selectable_primitive
    (compiled : ruleset.Compiled builder lowered)
    {id : String}
    (selectable : id ∈ ruleset.selectable) :
    id ∈ lowered.model.primitives :=
  ((compiled.selectable_iff id).1 selectable).1

theorem selectable_known
    (compiled : ruleset.Compiled builder lowered)
    {id : String}
    (selectable : id ∈ ruleset.selectable) :
    id ∈ lowered.model.ids :=
  (Model.mem_primitives.1 (compiled.selectable_primitive selectable)).1

theorem preferred_notMem_selectable
    (compiled : ruleset.Compiled builder lowered)
    {support : String}
    (member : support ∈ ruleset.preferredSupports) :
    support ∉ ruleset.selectable := by
  intro selectable
  exact (Model.mem_primitives.1
          (compiled.selectable_primitive selectable)).2
    (compiled.preferred_support support member).1

theorem preferred_notMem_periods
    (compiled : ruleset.Compiled builder lowered)
    {support : String}
    (member : support ∈ ruleset.preferredSupports) :
    support ∉ ruleset.periods.map PeriodVariable.id := by
  obtain ⟨constraint, stored, rfl⟩ :=
    List.mem_map.1 (compiled.preferred_support support member).1
  exact compiled.id_notMem_periods
    (compiled.wellFormed.wellMade constraint stored)

variable {value : String → Int}

/--
The configurations of a rule set are those at which the rows of the model
hold.
-/
theorem contains_iff_of_agree
    (compiled : ruleset.Compiled builder lowered)
    {vertex : Vertex ruleset.ids}
    (agree : ∀ id ∈ ruleset.ids, vertex.value id = value id) :
    ruleset.polyhedron.Contains vertex.entries ↔
      ∀ row ∈ lowered.model.inequalities, row.Holds value := by
  have represents := compiled.represents
  rw [← compiled.ids_eq] at represents
  exact represents.contains_iff_of_agree agree

/--
If the rows of the rule set hold and there are periods, exactly one of them
is active.
-/
theorem unique_period
    (compiled : ruleset.Compiled builder lowered)
    (distinct : IdsDetermine builder.pool)
    (binary : ∀ id, value id = 0 ∨ value id = 1)
    (held : ∀ row ∈ lowered.model.inequalities, row.Holds value)
    (some : ruleset.periods ≠ []) :
    ∃! period, period ∈ ruleset.periods ∧ value period.id = 1 := by
  rcases (compiled.wellFormed.inequalities_hold_iff binary).1 held with
    ⟨consistent, assumed⟩
  rw [compiled.periods_eq] at some ⊢
  exact ((Builder.lower_iff compiled.computed distinct binary consistent).1
          assumed).2.1 some

/-- If the rows of the rule set hold somewhere, no period is independent. -/
theorem period_notMem_independent
    (compiled : ruleset.Compiled builder lowered)
    (distinct : IdsDetermine builder.pool)
    (binary : ∀ id, value id = 0 ∨ value id = 1)
    (held : ∀ row ∈ lowered.model.inequalities, row.Holds value)
    {period : PeriodVariable}
    (member : period ∈ ruleset.periods) :
    period.id ∉ ruleset.independent := by
  intro independent
  have unmentioned := (compiled.independent period.id independent).2
  have some : ruleset.periods ≠ [] := List.ne_nil_of_mem member
  -- the rows cannot tell whether the period is active, but they say that
  -- exactly one is
  obtain ⟨flipped, here, others⟩ :
      ∃ flipped : String → Int,
        flipped period.id = 1 - value period.id ∧
        ∀ id, id ≠ period.id → flipped id = value id :=
    ⟨Function.update value period.id (1 - value period.id),
      Function.update_self _ _ _,
      fun id different => Function.update_of_ne different _ _⟩
  have flippedBinary : ∀ id, flipped id = 0 ∨ flipped id = 1 := by
    intro id
    by_cases same : id = period.id
    · rw [same, here]
      rcases binary period.id with zero | one
      · exact Or.inr (by rw [zero]; rfl)
      · exact Or.inl (by rw [one]; rfl)
    · rw [others id same]
      exact binary id
  have flippedHeld :
      ∀ row ∈ lowered.model.inequalities, row.Holds flipped := by
    intro row rowMember
    have same : row.Holds flipped ↔ row.Holds value := by
      apply Inequality.holds_congr_nonzero
      intro id nonzero
      apply others
      rintro rfl
      exact nonzero (unmentioned row rowMember)
    exact same.2 (held row rowMember)
  obtain ⟨first, ⟨firstMember, firstOne⟩, firstOnly⟩ :=
    compiled.unique_period distinct binary held some
  obtain ⟨second, ⟨secondMember, secondOne⟩, secondOnly⟩ :=
    compiled.unique_period distinct flippedBinary flippedHeld some
  rcases binary period.id with zero | one
  · have secondIs := secondOnly period ⟨member, by rw [here, zero]; rfl⟩
    have different : first.id ≠ period.id := by
      intro same
      rw [same, zero] at firstOne
      cases firstOne
    have firstIs :=
      secondOnly first ⟨firstMember, by rw [others _ different, firstOne]⟩
    exact different (by rw [firstIs, secondIs])
  · have firstIs := firstOnly period ⟨member, one⟩
    have different : second.id ≠ period.id := by
      intro same
      rw [same, here, one] at secondOne
      cases secondOne
    have secondIs :=
      firstOnly second
        ⟨secondMember, by rwa [others _ different] at secondOne⟩
    exact different (by rw [secondIs, firstIs])

end Ruleset.Compiled

end Configurator
