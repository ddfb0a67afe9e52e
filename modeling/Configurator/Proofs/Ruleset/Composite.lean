import Configurator.Proofs.Ruleset.Pinning

/-!
# Weights of composite selections

The column of a composite selection is named like the conjunction of its
ids, and a column of that name is reused without a look at what it stands
for.  As long as nothing else has the name, the weight of the selection is
on a column that is one exactly where all ids are.
-/

namespace Configurator

open Configurator.Calendar Configurator.Collection Configurator.Linear
  Configurator.Logic Configurator.Objective Configurator.Request

namespace Query.Prepared

variable {query : Query} {ruleset : Ruleset} {builder : Builder}
  {lowered : Builder.Lowered} {selections : List Selection}
  {time : Option Instant} {config : WeightConfig}
  (prepared : query.Prepared ruleset lowered.model selections time config)
  {earlier later : List Selection} {selection : Selection}
  (split : query.selections = earlier ++ selection :: later)
  (composite : selection.isComposite = true)
  (lone :
    ∀ constraint ∈ lowered.model.constraints ++ query.conjunctions,
      constraint.id = selection.conjunction.id →
      constraint.row = selection.conjunction.row)
  (unselectable : selection.conjunction.id ∉ ruleset.selectable)

include prepared split composite lone unselectable in
/-- No later selection has the column of the selection. -/
theorem column_ne_of_later
    {other : Selection}
    (member : other ∈ later) :
    other.column ≠ selection.column := by
  have kept : other.makesRedundant selection = false := by
    have irredundant := prepared.irredundant
    rw [split] at irredundant
    exact (List.pairwise_cons.1 (List.pairwise_append.1 irredundant).2.1).1
      other member
  have left : other ∈ query.selections := by
    rw [split]
    exact List.mem_append_right _ (List.mem_cons_of_mem _ member)
  intro same
  rw [Selection.column_composite composite] at same
  by_cases otherComposite : other.isComposite = true
  · rw [Selection.column_composite otherComposite] at same
    have rows :=
      lone other.conjunction
        (List.mem_append_right _
          (mem_conjunctions.2 ⟨other, left, otherComposite, rfl⟩)) same
    rw [Selection.makesRedundant_of_row_eq rows.symm] at kept
    cases kept
  · rw [Selection.column_single otherComposite] at same
    exact unselectable
      (same ▸
        (prepared.admits_reduced other left other.id other.id_mem_ids).1)

include prepared split composite lone unselectable in
/--
The weight of the selection is on the column named like its conjunction.
-/
theorem weight_of_lone :
    query.weights.values.get? selection.column =
      some
        ((Target.mk selection.column selection.action).weightAbove
          ((ruleset.weightInputs query.selections).threshold config)
          earlier.length) := by
  have weight := get?_of_derived prepared.derived (targets_of_split split)
    (List.forall_mem_map.2 fun _ member =>
      prepared.column_ne_of_later split composite lone unselectable member)
  rwa [List.length_map] at weight

end Query.Prepared

/--
The weight of a composite selection lands on its conjunction.  The column on
which the weight of a composite selection is placed is one at a
configuration of the query exactly if all ids of the selection are, also if
the column existed before.  This needs that no selectable primitive is named
like the conjunction, and that no other constraint of the rule set or of the
query has its id.
-/
theorem Ruleset.composite_weight_decided
    (steps : List Builder.Step)
    (ruleset : Ruleset)
    (lowered : Builder.Lowered)
    (selections : List Selection)
    (time : Option Instant)
    (config : WeightConfig)
    (query : Query)
    (built : ((Builder.ofModel Model.empty).run steps).build = .ok ruleset)
    (lowering :
      ((Builder.ofModel Model.empty).run steps).lower = .ok lowered)
    (prepared : ruleset.prepare selections time config = .ok query)
    (earlier later : List Selection)
    (selection : Selection)
    (split : query.selections = earlier ++ selection :: later)
    (composite : selection.isComposite = true)
    (lone :
      ∀ constraint ∈ lowered.model.constraints ++ query.conjunctions,
        constraint.id = selection.conjunction.id →
        constraint.row = selection.conjunction.row)
    (unselectable : selection.conjunction.id ∉ ruleset.selectable) :
    selection.column ∈ query.ids ∧
    query.weights.values.get? selection.column =
      some
        ((Target.mk selection.column selection.action).weightAbove
          ((ruleset.weightInputs query.selections).threshold config)
          earlier.length) ∧
    ∀ vertex : Vertex query.ids,
      query.polyhedron.Contains vertex.entries →
      (vertex.value selection.column = 1 ↔
        ∀ id ∈ selection.ids, vertex.value id = 1) := by
  obtain ⟨_, compiled⟩ := Builder.compiled_of_build
    (Builder.wellFormed_run Model.wellFormed_empty steps) built
  cases lowering.symm.trans compiled.computed
  have facts := compiled.prepared prepared
  have member : selection ∈ query.selections := by
    rw [split]
    exact List.mem_append_right _ List.mem_cons_self
  have stored :
      selection.conjunction ∈
        (lowered.model.asked query.selections
          (ruleset.activePeriod? time)).constraints :=
    Query.Prepared.conjunction_mem_of_lone compiled member composite lone
      unselectable
  refine ⟨?_, facts.weight_of_lone split composite lone unselectable, ?_⟩
  · have known := (facts.wellFormed compiled).supports_known _ stored
    rwa [← facts.describes.ids_eq, ← Selection.column_composite composite]
      at known
  · intro vertex contained
    rw [Selection.column_composite composite]
    exact facts.conjunction_decides compiled vertex.value_binary
      ((facts.contains_iff_of_agree fun _ _ => rfl).1 contained) stored

theorem Ruleset.composite_weight_decided_either :
    ∃ ruleset query,
      ((Builder.ofModel Model.empty).run eitherSteps).build = .ok ruleset ∧
      ruleset.prepare [⟨"b", ["x"], .add⟩, ⟨"x", ["y"], .remove⟩] none {} =
        .ok query ∧
      bothId ∈ ruleset.ids ∧
      query.weights.values.get? bothId = some (-2) ∧
      ∀ vertex : Vertex query.ids,
        query.polyhedron.Contains vertex.entries →
        (vertex.value bothId = 1 ↔
          vertex.value "x" = 1 ∧ vertex.value "y" = 1) := by
  have checked :
      (do
        let ruleset ←
          ((Builder.ofModel Model.empty).run eitherSteps).build.toOption
        let lowered ←
          ((Builder.ofModel Model.empty).run eitherSteps).lower.toOption
        let query ←
          (ruleset.prepare [⟨"b", ["x"], .add⟩, ⟨"x", ["y"], .remove⟩]
            none {}).toOption
        return decide
          (bothId ∈ ruleset.ids ∧
            bothId ∉ ruleset.selectable ∧
            query.selections =
              [⟨"b", ["x"], .add⟩, ⟨"x", ["y"], .remove⟩] ∧
            (ruleset.weightInputs query.selections).threshold {} = 0 ∧
            ∀ constraint ∈
                lowered.model.constraints ++ query.conjunctions,
              constraint.id = bothId →
              constraint.row =
                (Selection.conjunction ⟨"x", ["y"], .remove⟩).row) :
        Option Bool) =
        some true := by
    decide +kernel
  simp only [Option.bind_eq_bind, Option.pure_def, Option.bind_eq_some_iff,
    Option.some.injEq, toOption_eq_some_iff, decide_eq_true_eq]
    at checked
  obtain ⟨ruleset, built, lowered, lowering, query, prepared, known,
    unselectable, split, threshold, lone⟩ := checked
  have named : Selection.column ⟨"x", ["y"], .remove⟩ = bothId := by
    decide +kernel
  have ids : Selection.ids ⟨"x", ["y"], .remove⟩ = ["x", "y"] := by
    decide
  obtain ⟨_, weight, decided⟩ :=
    composite_weight_decided eitherSteps ruleset lowered
      [⟨"b", ["x"], .add⟩, ⟨"x", ["y"], .remove⟩] none {} query built
      lowering prepared [⟨"b", ["x"], .add⟩] [] ⟨"x", ["y"], .remove⟩ split
      rfl lone unselectable
  rw [named] at decided weight
  rw [threshold] at weight
  rw [ids] at decided
  refine ⟨ruleset, query, built, prepared, known, weight, ?_⟩
  simpa only [List.forall_mem_cons, List.not_mem_nil, false_implies,
    implies_true, and_true] using decided

/--
The id of a conjunction is the name of a primitive, and two conjunctions
have one text.
-/
def takenSteps : List Builder.Step :=
  [.model
      (.addPrimitives
        ["x", "x1y", "y1z", "z",
          (Constraint.uniform ["x", "z"] 1 (-2)).id]),
    .model (.set .disjunction ["x", "x1y", "y1z", "z"]),
    .assume [(Constraint.uniform ["x", "x1y", "y1z", "z"] 1 (-1)).id]]

/--
The weight is on a primitive of that name, or on the column of another
conjunction.
-/
theorem Ruleset.composite_weight_misplaced :
    ∃ ruleset query, ∃ vertex : Vertex query.ids,
      ((Builder.ofModel Model.empty).run takenSteps).build = .ok ruleset ∧
      ruleset.prepare
          [⟨"x", ["z"], .add⟩, ⟨"x", ["y1z"], .add⟩, ⟨"x1y", ["z"], .add⟩]
          none {} =
        .ok query ∧
      query.polyhedron.Contains vertex.entries ∧
      ∀ selection ∈
          ([⟨"x", ["z"], .add⟩, ⟨"x1y", ["z"], .add⟩] : List Selection),
        selection ∈ query.selections ∧
        selection.isComposite = true ∧
        (query.weights.values.get? selection.column).isSome = true ∧
        ¬ (vertex.value selection.column = 1 ↔
            ∀ id ∈ selection.ids, vertex.value id = 1) := by
  have checked :
      (do
        let ruleset ←
          ((Builder.ofModel Model.empty).run takenSteps).build.toOption
        let query ←
          (ruleset.prepare
            [⟨"x", ["z"], .add⟩, ⟨"x", ["y1z"], .add⟩, ⟨"x1y", ["z"], .add⟩]
            none {}).toOption
        let vertex := Vertex.ofTruth query.ids fun id => id ∉ ["x1y", "z"]
        return decide
          (query.polyhedron.Contains vertex.entries ∧
            ∀ selection ∈
                ([⟨"x", ["z"], .add⟩, ⟨"x1y", ["z"], .add⟩] :
                  List Selection),
              selection ∈ query.selections ∧
              selection.isComposite = true ∧
              (query.weights.values.get? selection.column).isSome = true ∧
              ¬ (vertex.value selection.column = 1 ↔
                ∀ id ∈ selection.ids, vertex.value id = 1)) :
        Option Bool) =
        some true := by
    decide +kernel
  simp only [Option.bind_eq_bind, Option.pure_def, Option.bind_eq_some_iff,
    Option.some.injEq, toOption_eq_some_iff, decide_eq_true_eq]
    at checked
  obtain ⟨ruleset, built, query, prepared, contained, misplaced⟩ := checked
  exact ⟨ruleset, query, _, built, prepared, contained, misplaced⟩

end Configurator
