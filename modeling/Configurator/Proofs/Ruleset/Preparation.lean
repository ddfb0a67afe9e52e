import Configurator.Proofs.Objective.Dominance
import Configurator.Proofs.Request.Reduction
import Configurator.Proofs.Ruleset.Extension

/-!
# Prepared queries

What a query that was prepared from a compiled rule set says about the model
of the rule set.  No row of the query mentions an independent variable.  As
long as ids determine the constraints and no conjunction is named like
something that can be selected, every composite selection has a support, and
all weights belong to different columns.
-/

namespace Configurator

open Configurator.Calendar Configurator.Collection Configurator.Linear
  Configurator.Logic Configurator.Objective Configurator.Request
  Configurator.Schedule

/-! ## Checks -/

namespace Ruleset

variable {ruleset : Ruleset}

/--
The ids of the selection can be selected, and together if there are several.
-/
def Admits (ruleset : Ruleset) (selection : Selection) : Prop :=
  ∀ id ∈ selection.ids, id ∈ ruleset.selectable ∧
    (selection.isComposite = true → id ∉ ruleset.independent)

theorem admits_of_checkSelection
    {selection : Selection}
    (checked : ruleset.checkSelection selection = .ok ()) :
    ruleset.Admits selection := by
  intro id member
  have passed := forM_eq_ok_iff.1 checked id member
  simp only [checkId] at passed
  split at passed
  · cases passed
  · split at passed
    · cases passed
    · rename_i selectable
      split at passed
      · cases passed
      · rename_i apart
        exact ⟨Decidable.not_not.1 selectable, fun composite dependent =>
          apart ⟨composite, dependent⟩⟩

/-- Only a selection of a single id can name an independent variable. -/
theorem Admits.notMem_independent
    {selection : Selection}
    (admitted : ruleset.Admits selection)
    (dependent : selection.id ∉ ruleset.independent) :
    ∀ id ∈ selection.ids, id ∉ ruleset.independent := by
  intro id named
  by_cases composite : selection.isComposite = true
  · exact (admitted id named).2 composite
  · rwa [(Selection.mem_ids_single composite).1 named]

end Ruleset

/-! ## What preparation computes -/

/-- The conjunctions of the composite selections that are left. -/
def Query.conjunctions (query : Query) : List Constraint :=
  (query.selections.filter Selection.isComposite).map Selection.conjunction

/--
The query was prepared from the selections about a rule set with the model.
-/
structure Query.Prepared
    (query : Query)
    (ruleset : Ruleset)
    (model : Model)
    (selections : List Selection)
    (time : Option Instant)
    (config : WeightConfig) :
    Prop where
  /-- The selections are the reduced ones. -/
  selections_eq : query.selections = ruleset.reduce selections
  /-- What can be selected is what the rule set says. -/
  selectable_eq : query.selectable = ruleset.selectable
  /-- The independent variables are those of the rule set. -/
  independent_eq : query.independent = ruleset.independent
  /-- All given selections have been checked. -/
  admitted : ∀ selection ∈ selections, ruleset.Admits selection
  /-- The active period is a variable. -/
  active_known : ∀ period ∈ ruleset.activePeriod? time,
    period.id ∈ (query.selections.foldl Model.materialise model).ids
  /-- The columns and rows are those of the extended model. -/
  describes : (NamedPolyhedron.mk query.polyhedron query.ids).Describes
    (model.asked query.selections (ruleset.activePeriod? time))
  /-- The weights are derived from the selections that are left. -/
  derived :
    Weights.derive (ruleset.weightInputs query.selections) config =
      .ok query.weights

theorem Ruleset.Compiled.describes
    {ruleset : Ruleset}
    {builder : Builder}
    {lowered : Builder.Lowered}
    (compiled : ruleset.Compiled builder lowered) :
    (NamedPolyhedron.mk ruleset.polyhedron ruleset.ids).Describes
      lowered.model :=
  ⟨compiled.ids_eq, _, compiled.represents, fun _ => Iff.rfl⟩

/--
Preparation checks, reduces, materialises, pins the period of an instant and
derives weights.
-/
theorem Ruleset.prepare_eq_ok
    {ruleset : Ruleset}
    {selections : List Selection}
    {time : Option Instant}
    {config : WeightConfig}
    {query : Query}
    (prepared : ruleset.prepare selections time config = .ok query) :
    (∀ selection ∈ selections, ruleset.Admits selection) ∧
    ∃ materialised pinned weights,
      (ruleset.reduce selections).foldlM materialise
          ⟨ruleset.polyhedron, ruleset.ids⟩ =
        .ok materialised ∧
      (time = none ∧ pinned = materialised ∨
        ∃ instant,
          time = some instant ∧
          ruleset.pin materialised instant = .ok pinned) ∧
      Weights.derive (ruleset.weightInputs (ruleset.reduce selections))
          config =
        .ok weights ∧
      query =
        ⟨pinned.polyhedron, pinned.ids, ruleset.selectable,
          ruleset.independent, ruleset.reduce selections, weights⟩ := by
  simp only [prepare, bind_eq_ok_iff] at prepared
  rcases prepared with ⟨_, checked, materialised, extended, prepared⟩
  constructor
  · intro selection member
    have passed := forM_eq_ok_iff.1 checked selection member
    exact admits_of_checkSelection (liftError_eq_ok_iff.1 passed)
  · cases time with
    | none =>
        simp only [bind_eq_ok_iff] at prepared
        rcases prepared with ⟨pinned, located, weights, derived, finished⟩
        cases located
        cases finished
        exact ⟨_, _, weights, extended, Or.inl ⟨rfl, rfl⟩, derived, rfl⟩
    | some instant =>
        simp only [bind_eq_ok_iff] at prepared
        rcases prepared with ⟨pinned, located, weights, derived, finished⟩
        cases finished
        exact ⟨_, pinned, weights, extended, Or.inr ⟨instant, rfl, located⟩,
          derived, rfl⟩

theorem Ruleset.Compiled.prepared
    {ruleset : Ruleset}
    {builder : Builder}
    {lowered : Builder.Lowered}
    (compiled : ruleset.Compiled builder lowered)
    {selections : List Selection}
    {time : Option Instant}
    {config : WeightConfig}
    {query : Query}
    (prepared : ruleset.prepare selections time config = .ok query) :
    query.Prepared ruleset lowered.model selections time config := by
  obtain ⟨admitted, materialised, pinned, weights, extended, located,
    derived, rfl⟩ := prepare_eq_ok prepared
  have describes := compiled.describes.foldlM_materialise extended
  rcases located with ⟨rfl, rfl⟩ | ⟨instant, rfl, located⟩
  · exact ⟨rfl, rfl, rfl, admitted, fun _ member => (nomatch member),
      describes, derived⟩
  · obtain ⟨pinnedDescribes, known⟩ := describes.pin located
    exact ⟨rfl, rfl, rfl, admitted, known, pinnedDescribes, derived⟩

theorem Query.mem_conjunctions
    {query : Query}
    {conjunction : Constraint} :
    conjunction ∈ query.conjunctions ↔
      ∃ selection ∈ query.selections,
        selection.isComposite = true ∧
        selection.conjunction = conjunction := by
  simp only [conjunctions]
  simp only [List.mem_map, List.mem_filter, and_assoc]

namespace Query.Prepared

variable {query : Query} {ruleset : Ruleset} {builder : Builder}
  {lowered : Builder.Lowered} {selections : List Selection}
  {time : Option Instant} {config : WeightConfig}

theorem admits_reduced
    (prepared :
      query.Prepared ruleset lowered.model selections time config) :
    ∀ selection ∈ query.selections, ruleset.Admits selection := by
  intro selection member
  rw [prepared.selections_eq] at member
  exact prepared.admitted selection (mem_of_mem_reduceWith member)

/-- Of the selections that are left none makes an earlier one redundant. -/
theorem irredundant
    (prepared :
      query.Prepared ruleset lowered.model selections time config) :
    Irredundant query.selections := by
  rw [prepared.selections_eq]
  exact reduceWith_irredundant _ _

theorem wellFormed
    (prepared : query.Prepared ruleset lowered.model selections time config)
    (compiled : ruleset.Compiled builder lowered) :
    (lowered.model.asked query.selections
      (ruleset.activePeriod? time)).WellFormed :=
  compiled.wellFormed.asked
    (fun selection member id listed =>
      compiled.selectable_known
        (prepared.admits_reduced selection member id listed).1)
    prepared.active_known

/-- The variables of the rule set are variables of the query. -/
theorem mem_ids
    (prepared : query.Prepared ruleset lowered.model selections time config)
    {id : String}
    (known : id ∈ lowered.model.ids) :
    id ∈ query.ids := by
  have same :
      query.ids =
        (lowered.model.asked query.selections
          (ruleset.activePeriod? time)).ids :=
    prepared.describes.ids_eq
  rw [same, Model.asked, Model.ids_pin]
  exact OrderedSet.mem_of_extends (Model.growsTo_foldl_materialise _ _).ids
    known

/-! ## Supports of composite selections -/

section Separate

variable
  (prepared : query.Prepared ruleset lowered.model selections time config)
  (compiled : ruleset.Compiled builder lowered)
  (distinct : IdsDetermine (builder.pool ++ query.conjunctions))
  (apart :
    ∀ conjunction ∈ query.conjunctions, conjunction.id ∉ ruleset.selectable)

include compiled in
/--
A composite selection that is left has a support, if nothing else has its
id.
-/
theorem conjunction_mem_of_lone
    {selection : Selection}
    (member : selection ∈ query.selections)
    (composite : selection.isComposite = true)
    (lone :
      ∀ constraint ∈ lowered.model.constraints ++ query.conjunctions,
        constraint.id = selection.conjunction.id →
        constraint.row = selection.conjunction.row)
    (unselectable : selection.conjunction.id ∉ ruleset.selectable) :
    selection.conjunction ∈
      (lowered.model.asked query.selections
        (ruleset.activePeriod? time)).constraints := by
  rw [Model.asked, Model.constraints_pin]
  apply Model.conjunction_mem_foldl_materialise member composite
  · intro primitive
    rcases compiled.primitive_cases primitive with selectable | period
    · exact unselectable selectable
    · exact compiled.id_notMem_periods selection.wellMade_conjunction period
  · intro constraint stored
    apply lone
    rcases Model.mem_constraints_foldl_materialise stored with
      old | ⟨⟨other, otherMember, otherComposite, rfl⟩, _⟩
    · exact List.mem_append_left _ old
    · exact List.mem_append_right _
        (mem_conjunctions.2 ⟨other, otherMember, otherComposite, rfl⟩)

include compiled distinct apart in
/-- Every composite selection that is left has a support. -/
theorem conjunction_mem
    {selection : Selection}
    (member : selection ∈ query.selections)
    (composite : selection.isComposite = true) :
    selection.conjunction ∈
      (lowered.model.asked query.selections
        (ruleset.activePeriod? time)).constraints := by
  have listed := mem_conjunctions.2 ⟨selection, member, composite, rfl⟩
  refine conjunction_mem_of_lone compiled member composite ?_
    (apart _ listed)
  intro constraint known
  apply distinct constraint _ _ (List.mem_append_right _ listed)
  rcases List.mem_append.1 known with stored | asked
  · exact List.mem_append_left _
      (compiled.stored_mem_pool constraint stored)
  · exact List.mem_append_right _ asked

include prepared compiled in
/-- The links of the query do not mention independent variables. -/
theorem independent_unlinked
    {id : String}
    (independent : id ∈ ruleset.independent)
    {constraint : Constraint}
    (stored :
      constraint ∈
        (lowered.model.asked query.selections
          (ruleset.activePeriod? time)).constraints)
    {link : Inequality}
    (member : link ∈ constraint.links) :
    link.coefficients.coefficient id = 0 := by
  rcases compiled.independent id independent with ⟨primitive, unmentioned⟩
  rw [Model.asked, Model.constraints_pin] at stored
  rcases Model.mem_constraints_foldl_materialise stored with
    old | ⟨⟨selection, selectionMember, composite, rfl⟩, fresh⟩
  · exact unmentioned link
      (Model.mem_inequalities.2 (Or.inl ⟨constraint, old, member⟩))
  · apply Coefficients.coefficient_of_notMem
    intro mentioned
    rcases (Constraint.mem_ids_of_mem_links member).1 mentioned with
      rfl | operand
    · exact fresh (Model.mem_primitives.1 primitive).1
    · have admitted := prepared.admits_reduced selection selectionMember id
        (Selection.mem_operands_conjunction.1 operand)
      exact admitted.2 composite independent

include prepared compiled in
/--
No row of the query mentions an independent variable, unless it is the
active period.
-/
theorem independent_unmentioned
    (activeApart :
      ∀ period ∈ ruleset.activePeriod? time,
        period.id ∉ ruleset.independent) :
    ∀ id ∈ ruleset.independent,
      (lowered.model.asked query.selections
        (ruleset.activePeriod? time)).Unmentioned id := by
  intro id independent row member
  rcases Model.mem_inequalities.1 member with
    ⟨constraint, stored, link⟩ | ⟨other, assumed, rfl⟩
  · exact prepared.independent_unlinked compiled independent stored link
  · rcases Model.mem_assumed_pin.1 assumed with old | ⟨period, active, rfl⟩
    · rw [Model.assumed_foldl_materialise] at old
      exact (compiled.independent id independent).2 _
        (Model.mem_inequalities.2 (Or.inr ⟨other, old, rfl⟩))
    · apply Coefficients.coefficient_of_notMem
      intro mentioned
      have same : id = period.id := List.mem_singleton.1 mentioned
      exact activeApart period active (same ▸ independent)

/-! ## Columns of the weights -/

/-- The targets of selections, split like the selections. -/
theorem targets_of_split
    {earlier later : List Selection}
    {selection : Selection}
    (split : query.selections = earlier ++ selection :: later) :
    (ruleset.weightInputs query.selections).targets =
      earlier.map (fun other => Target.mk other.column other.action) ++
        Target.mk selection.column selection.action ::
          later.map fun other => Target.mk other.column other.action := by
  simp only [Ruleset.weightInputs]
  rw [split, List.map_append, List.map_cons]

/-- The uncovered ids can be selected, but no selection names them. -/
theorem mem_uncovered
    {id : String} :
    id ∈ (ruleset.weightInputs query.selections).uncovered ↔
      id ∈ ruleset.selectable ∧
      ∀ selection ∈ query.selections, id ∉ selection.ids := by
  have covered :
      id ∈ OrderedSet.ofList (query.selections.flatMap Selection.ids) ↔
        ∃ selection ∈ query.selections, id ∈ selection.ids :=
    OrderedSet.mem_ofList.trans List.mem_flatMap
  unfold WeightInputs.uncovered Ruleset.weightInputs
  rw [List.mem_filter, decide_eq_true_eq, covered]
  push Not
  exact Iff.rfl

include prepared apart in
theorem column_cases
    {selection : Selection}
    (member : selection ∈ query.selections) :
    selection.isComposite = true ∧
    selection.column = selection.conjunction.id ∧
    selection.column ∉ ruleset.selectable ∨
    ¬ selection.isComposite = true ∧
    selection.column = selection.id ∧
    selection.column ∈ ruleset.selectable := by
  by_cases composite : selection.isComposite = true
  · refine Or.inl ⟨composite, Selection.column_composite composite, ?_⟩
    rw [Selection.column_composite composite]
    exact apart _ (mem_conjunctions.2 ⟨selection, member, composite, rfl⟩)
  · refine Or.inr ⟨composite, Selection.column_single composite, ?_⟩
    rw [Selection.column_single composite]
    exact (prepared.admits_reduced selection member selection.id
      selection.id_mem_ids).1

include prepared distinct apart in
/-- Selections with the same column make each other redundant. -/
theorem makesRedundant_of_column_eq
    {left right : Selection}
    (leftMember : left ∈ query.selections)
    (rightMember : right ∈ query.selections)
    (same : left.column = right.column) :
    right.makesRedundant left = true := by
  rcases prepared.column_cases apart leftMember with
    ⟨leftComposite, leftColumn, leftApart⟩ |
      ⟨leftSingle, leftColumn, leftSelectable⟩
  · rcases prepared.column_cases apart rightMember with
      ⟨rightComposite, rightColumn, _⟩ | ⟨_, _, rightSelectable⟩
    · exact Selection.makesRedundant_of_row_eq
        (distinct left.conjunction
          (List.mem_append_right _
            (mem_conjunctions.2 ⟨left, leftMember, leftComposite, rfl⟩))
          right.conjunction
          (List.mem_append_right _
            (mem_conjunctions.2 ⟨right, rightMember, rightComposite, rfl⟩))
          (leftColumn.symm.trans (same.trans rightColumn)))
    · exact absurd (same ▸ rightSelectable) leftApart
  · rcases prepared.column_cases apart rightMember with
      ⟨_, _, rightApart⟩ | ⟨rightSingle, rightColumn, _⟩
    · exact absurd (same ▸ leftSelectable) rightApart
    · apply Selection.makesRedundant_of_subset
      intro id listed
      rw [Selection.mem_ids_single leftSingle] at listed
      rw [Selection.mem_ids_single rightSingle, listed, ← leftColumn, same,
        rightColumn]

include prepared distinct apart in
theorem targets_nodup :
    ((ruleset.weightInputs query.selections).targets.map
      Target.column).Nodup := by
  have columns :
      (ruleset.weightInputs query.selections).targets.map Target.column =
        query.selections.map Selection.column := by
    simp only [Ruleset.weightInputs]
    rw [List.map_map]
    rfl
  rw [columns]
  refine List.pairwise_map.2
    (List.Pairwise.imp_of_mem ?_ prepared.irredundant)
  intro earlier later earlierMember laterMember kept same
  have redundant :=
    prepared.makesRedundant_of_column_eq distinct apart earlierMember
      laterMember same
  rw [kept] at redundant
  cases redundant

include prepared compiled distinct apart in
/--
The column of a selection has no weight besides that of the selection.
-/
theorem column_notMem_lower
    {selection : Selection}
    (member : selection ∈ query.selections) :
    selection.column ∉ (ruleset.weightInputs query.selections).uncovered ∧
    selection.column ∉ ruleset.preferredSupports ∧
    selection.column ∉ ruleset.periods.map PeriodVariable.id := by
  have own := selection.id_mem_ids
  rcases prepared.column_cases apart member with
    ⟨composite, column, unselectable⟩ | ⟨_, column, selectable⟩
  · refine ⟨fun plain => unselectable (mem_uncovered.1 plain).1, ?_, ?_⟩
    · -- a conjunction has a negative bias, a negated preference none
      intro support
      rcases compiled.preferred_support _ support with
        ⟨_, name, same, pooled⟩
      have rows :=
        distinct selection.conjunction
          (List.mem_append_right _
            (mem_conjunctions.2 ⟨selection, member, composite, rfl⟩)) _
          (List.mem_append_left _ pooled) (column.symm.trans same)
      have biases : -(selection.ids.length : Int) = 0 :=
        congrArg Inequality.bias rows
      have some := List.length_pos_of_mem own
      omega
    · rw [column]
      exact compiled.id_notMem_periods selection.wellMade_conjunction
  · exact ⟨fun plain =>
      (mem_uncovered.1 plain).2 selection member (column ▸ own),
      fun support =>
        compiled.preferred_notMem_selectable support selectable,
      fun period => ((compiled.selectable_iff _).1 selectable).2 period⟩

include prepared compiled distinct apart in
/-- The weights of different levels belong to different columns. -/
theorem levelsApart :
    (ruleset.weightInputs query.selections).LevelsApart where
  preferred := fun _ support plain =>
    compiled.preferred_notMem_selectable support (mem_uncovered.1 plain).1
  periods := fun id period =>
    ⟨fun plain =>
      ((compiled.selectable_iff id).1 (mem_uncovered.1 plain).1).2 period,
      fun support => compiled.preferred_notMem_periods support period⟩
  targets := List.forall_mem_map.2 fun _ member =>
    prepared.column_notMem_lower compiled distinct apart member

end Separate

end Query.Prepared

end Configurator
