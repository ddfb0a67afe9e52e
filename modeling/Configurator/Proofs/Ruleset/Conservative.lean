import Configurator.Proofs.Ruleset.Feasibility
import Mathlib.Data.Set.Function

/-!
# Queries extend their rule set conservatively

A query has the columns of its rule set, and after them one for each
conjunction that had none.  Its rows are those of the rule set, with zeros
in the new columns, followed by those of the new supports and of the pinned
period.  The new columns are decided by the old ones, so every configuration
that the rule set allows is the restriction of exactly one configuration of
the query.
-/

namespace Configurator

open Configurator.Calendar Configurator.Collection Configurator.Linear
  Configurator.Logic Configurator.Objective Configurator.Request

/-! ## New conjunctions -/

/--
The composite selections whose conjunctions are not known when it is their
turn.
-/
def Request.additions
    (known : OrderedSet String) :
    List Selection → List Selection
  | [] => []
  | selection :: rest =>
      if !selection.isComposite || selection.conjunction.id ∈ known then
        additions known rest
      else selection ::
        additions (known.insert selection.conjunction.id) rest

theorem Request.additions_sublist
    (selections : List Selection)
    (known : OrderedSet String) :
    (additions known selections).Sublist selections := by
  induction selections generalizing known with
  | nil => exact List.Sublist.refl _
  | cons selection rest ih =>
      simp only [additions]
      split
      · exact (ih known).cons selection
      · exact (ih _).cons_cons selection

namespace Logic.Model

/--
The new variables are the ids of the new conjunctions, in the order of the
selections.
-/
theorem ids_foldl_materialise
    (selections : List Selection)
    (model : Model) :
    (selections.foldl materialise model).ids.toList =
      model.ids.toList ++
        (additions model.ids selections).map fun selection =>
          selection.conjunction.id := by
  induction selections generalizing model with
  | nil => exact (List.append_nil _).symm
  | cons selection rest ih =>
      rw [List.foldl_cons, ih]
      simp only [additions, materialise]
      split
      · rfl
      · rename_i fresh
        simp only [Bool.or_eq_true, decide_eq_true_eq, not_or] at fresh
        show (model.ids.insert selection.conjunction.id).toList ++ _ = _
        rw [OrderedSet.toList_insert, if_neg fresh.2, List.append_assoc]
        rfl

theorem constraints_foldl_materialise
    (selections : List Selection)
    (model : Model) :
    (selections.foldl materialise model).constraints =
      model.constraints ++
        (additions model.ids selections).map Selection.conjunction := by
  induction selections generalizing model with
  | nil => exact (List.append_nil _).symm
  | cons selection rest ih =>
      rw [List.foldl_cons, ih]
      simp only [additions, materialise]
      split
      · rfl
      · exact List.append_assoc _ _ _

end Logic.Model

/-! ## Padded rows -/

namespace Ruleset

variable {ruleset : Ruleset} {named grown : NamedPolyhedron}

theorem padsTo_materialise
    {selection : Selection}
    (materialised : materialise named selection = .ok grown) :
    ∃ count, named.polyhedron.PadsTo grown.polyhedron count := by
  rcases materialise_eq_ok materialised with ⟨_, rfl⟩ | ⟨_, _, appended⟩
  · exact ⟨0, Polyhedron.PadsTo.refl _⟩
  · exact ⟨1,
      (Polyhedron.padsTo_widen _).trans
        (Polyhedron.padsTo_appendAll appended)⟩

theorem padsTo_foldlM_materialise
    {selections : List Selection}
    (materialised : selections.foldlM materialise named = .ok grown) :
    ∃ count, named.polyhedron.PadsTo grown.polyhedron count := by
  induction selections generalizing named with
  | nil =>
      cases materialised
      exact ⟨0, Polyhedron.PadsTo.refl _⟩
  | cons selection rest ih =>
      rw [List.foldlM_cons, bind_eq_ok_iff] at materialised
      rcases materialised with ⟨next, here, later⟩
      obtain ⟨first, start⟩ := padsTo_materialise here
      obtain ⟨others, finish⟩ := ih later
      exact ⟨first + others, start.trans finish⟩

theorem padsTo_pin
    {time : Instant}
    (pinned : ruleset.pin named time = .ok grown) :
    named.polyhedron.PadsTo grown.polyhedron 0 := by
  rcases pin_eq_ok pinned with ⟨_, rfl⟩ | ⟨_, _, _, appended⟩
  · exact Polyhedron.PadsTo.refl _
  · exact Polyhedron.padsTo_appendInequality appended

variable {selections : List Selection} {time : Option Instant}
  {config : WeightConfig} {query : Query}

theorem padsTo_prepare
    (prepared : ruleset.prepare selections time config = .ok query) :
    ∃ count, ruleset.polyhedron.PadsTo query.polyhedron count := by
  obtain ⟨_, materialised, pinned, _, extended, located, _, rfl⟩ :=
    prepare_eq_ok prepared
  obtain ⟨count, padded⟩ := padsTo_foldlM_materialise extended
  rcases located with ⟨_, rfl⟩ | ⟨_, _, located⟩
  · exact ⟨count, padded⟩
  · exact ⟨count, padded.trans (padsTo_pin located)⟩

/--
A query at an instant pins the period that contains it, if there are
periods.
-/
theorem exists_active_of_prepare
    {instant : Instant}
    (prepared :
      ruleset.prepare selections (some instant) config = .ok query)
    (periods : ruleset.periods ≠ []) :
    ∃ active ∈ ruleset.activePeriod? (some instant),
      active.period.Contains instant := by
  obtain ⟨_, _, _, _, _, located, _, _⟩ := prepare_eq_ok prepared
  rcases located with ⟨impossible, _⟩ | ⟨_, same, pinned⟩
  · cases impossible
  · cases same
    rcases pin_eq_ok pinned with ⟨none, _⟩ | ⟨active, found, _, _⟩
    · exact absurd none periods
    · exact ⟨active, found, contains_of_active found⟩

end Ruleset

/-! ## Configurations of the query and of the rule set -/

namespace Query.Prepared

variable {query : Query} {ruleset : Ruleset} {builder : Builder}
  {lowered : Builder.Lowered} {selections : List Selection}
  {time : Option Instant} {config : WeightConfig}
  (prepared : query.Prepared ruleset lowered.model selections time config)
  (compiled : ruleset.Compiled builder lowered)

include prepared compiled in
/--
The columns of a query are those of the rule set and then those of the new
conjunctions.
-/
theorem ids_eq :
    query.ids.toList =
      ruleset.ids.toList ++
        (additions ruleset.ids query.selections).map fun selection =>
          selection.conjunction.id := by
  have same :
      query.ids =
        (lowered.model.asked query.selections
          (ruleset.activePeriod? time)).ids :=
    prepared.describes.ids_eq
  rw [same, Model.asked, Model.ids_pin, Model.ids_foldl_materialise,
    compiled.ids_eq]

include compiled in
theorem added_mem
    {selection : Selection}
    (added : selection ∈ additions ruleset.ids query.selections) :
    selection.conjunction ∈
      (lowered.model.asked query.selections
        (ruleset.activePeriod? time)).constraints := by
  rw [Model.asked, Model.constraints_pin,
    Model.constraints_foldl_materialise, ← compiled.ids_eq]
  exact List.mem_append_right _ (List.mem_map_of_mem added)

include prepared compiled in
/--
In a configuration of a query the new columns hold exactly if their
conjunctions do.
-/
theorem added_decides
    {vertex : Vertex query.ids}
    (contained : query.polyhedron.Contains vertex.entries)
    {selection : Selection}
    (added : selection ∈ additions ruleset.ids query.selections) :
    vertex.value selection.conjunction.id = 1 ↔
      ∀ id ∈ selection.ids, vertex.value id = 1 :=
  prepared.conjunction_decides compiled vertex.value_binary
    ((prepared.contains_iff_of_agree fun _ _ => rfl).1 contained)
    (added_mem compiled added)

include prepared compiled in
/-- The restriction of a configuration of a query satisfies the rule set. -/
theorem restrict_allowed
    {vertex : Vertex query.ids}
    (contained : query.polyhedron.Contains vertex.entries) :
    ruleset.Allows time (vertex.restrict ruleset.ids) := by
  have held := (prepared.contains_iff_of_agree fun _ _ => rfl).1 contained
  constructor
  · rw [compiled.contains_iff_of_agree fun id member =>
        Vertex.value_restrict member vertex]
    exact fun row member => held row (Model.mem_inequalities_asked member)
  · intro period active
    rw [Vertex.value_restrict
        (compiled.period_known (Ruleset.mem_periods_of_active active))]
    exact prepared.active_of_held compiled vertex.value_binary held active

include prepared compiled in
/-- Configurations of a query with the same restriction are the same. -/
theorem eq_of_restrict_eq
    {left right : Vertex query.ids}
    (leftContained : query.polyhedron.Contains left.entries)
    (rightContained : query.polyhedron.Contains right.entries)
    (same : left.restrict ruleset.ids = right.restrict ruleset.ids) :
    left = right := by
  have old : ∀ id ∈ ruleset.ids, left.value id = right.value id := by
    intro id member
    rw [← Vertex.value_restrict member left, same,
      Vertex.value_restrict member right]
  apply Vertex.ext_value
  intro id member
  rw [OrderedSet.mem_iff, prepared.ids_eq compiled] at member
  rcases List.mem_append.1 member with known | new
  · exact old id known
  -- a new column is one in both exactly if the ids of its selection are,
  -- which are old
  · obtain ⟨selection, added, rfl⟩ := List.mem_map.1 new
    have admitted :=
      prepared.admits_reduced selection
        ((additions_sublist _ _).subset added)
    have ones : left.value selection.conjunction.id = 1 ↔
        right.value selection.conjunction.id = 1 := by
      rw [prepared.added_decides compiled leftContained added,
        prepared.added_decides compiled rightContained added]
      refine forall₂_congr fun operand named => ?_
      rw [old operand (by
        rw [compiled.ids_eq]
        exact compiled.selectable_known (admitted operand named).1)]
    have leftBinary := left.value_binary selection.conjunction.id
    have rightBinary := right.value_binary selection.conjunction.id
    omega

include prepared compiled in
/--
What the rule set allows is the restriction of a configuration of the query.
-/
theorem exists_restrict_eq
    {vertex : Vertex ruleset.ids}
    (allowed : ruleset.Allows time vertex) :
    ∃ extended : Vertex query.ids,
      query.polyhedron.Contains extended.entries ∧
      extended.restrict ruleset.ids = vertex := by
  obtain ⟨contained, pinned⟩ := allowed
  obtain ⟨value, binary, held, same⟩ :=
    prepared.exists_held compiled vertex.value_binary
      ((compiled.contains_iff_of_agree fun _ _ => rfl).1 contained)
      fun period active => by
        refine ⟨?_, pinned period active⟩
        rw [← compiled.ids_eq]
        exact compiled.period_known (Ruleset.mem_periods_of_active active)
  obtain ⟨extended, values⟩ :=
    @Vertex.exists_of_binary query.ids value fun id _ => binary id
  refine ⟨extended, (prepared.contains_iff_of_agree values).2 held, ?_⟩
  apply Vertex.ext_value
  intro id member
  rw [Vertex.value_restrict member]
  rw [compiled.ids_eq] at member
  rw [values id (prepared.mem_ids member), same id member]

end Query.Prepared

/--
Preparing a query is a conservative extension.  The variables of the query
are those of the rule set and then the ids of the new conjunctions, its
polyhedron begins with the rows of the rule set, and restriction to the
variables of the rule set is one-to-one from the zeros and ones that satisfy
the query onto those that satisfy the rule set with the period of the
instant active.  In each of them a new column is one exactly if all ids of
the selection that added it are.
-/
theorem Ruleset.prepare_conservative
    (steps : List Builder.Step)
    (ruleset : Ruleset)
    (selections : List Selection)
    (time : Option Instant)
    (config : WeightConfig)
    (query : Query)
    (built : ((Builder.ofModel Model.empty).run steps).build = .ok ruleset)
    (prepared : ruleset.prepare selections time config = .ok query) :
    let added := additions ruleset.ids query.selections
    query.ids.toList =
      ruleset.ids.toList ++
        added.map (fun selection => selection.conjunction.id) ∧
    query.polyhedron.columns = query.ids.size ∧
    query.polyhedron.WellShaped ∧
    ruleset.polyhedron.PadsTo query.polyhedron added.length ∧
    (∀ instant,
      time = some instant →
      ruleset.periods ≠ [] →
      ∃ active ∈ ruleset.activePeriod? time,
        active.period.Contains instant) ∧
    Set.BijOn (Vertex.restrict ruleset.ids)
      {vertex : Vertex query.ids | query.polyhedron.Contains vertex.entries}
      {vertex | ruleset.Allows time vertex} ∧
    ∀ vertex : Vertex query.ids,
      query.polyhedron.Contains vertex.entries →
      ∀ selection ∈ added,
        vertex.value selection.conjunction.id = 1 ↔
          ∀ id ∈ selection.ids, vertex.value id = 1 := by
  intro added
  obtain ⟨lowered, compiled⟩ := Builder.compiled_of_build
    (Builder.wellFormed_run Model.wellFormed_empty steps) built
  have facts := compiled.prepared prepared
  have ids := facts.ids_eq compiled
  obtain ⟨rows, represents, _⟩ := facts.describes.rows
  rw [← facts.describes.ids_eq] at represents
  have columns : query.polyhedron.columns = query.ids.size :=
    represents.columns_eq
  have padded :
      ruleset.polyhedron.PadsTo query.polyhedron added.length := by
    obtain ⟨count, padded⟩ := padsTo_prepare prepared
    have total := padded.columns_eq
    have old := compiled.represents.columns_eq
    rw [columns, OrderedSet.size, ids, List.length_append, List.length_map,
      old, ← compiled.ids_eq, OrderedSet.size] at total
    rwa [show added.length = count from Nat.add_left_cancel total]
  refine ⟨ids, columns, represents.wellShaped, padded, ?_, ⟨?_, ?_, ?_⟩, ?_⟩
  · rintro instant rfl periods
    exact exists_active_of_prepare prepared periods
  · exact fun vertex contained => facts.restrict_allowed compiled contained
  · exact fun left leftContained right rightContained same =>
      facts.eq_of_restrict_eq compiled leftContained rightContained same
  · exact fun vertex allowed => facts.exists_restrict_eq compiled allowed
  · exact fun vertex contained selection listed =>
      facts.added_decides compiled contained listed

/--
Two months are enabled, and one of the alternatives is bound to the first
one.
-/
def eitherMonthSteps : List Builder.Step :=
  eitherSteps ++
    [.enablePeriod ⟨morningOf 6 (by decide), morningOf 8 (by decide)⟩,
      .assumeInPeriod "b"
        ⟨morningOf 6 (by decide), morningOf 7 (by decide)⟩]

theorem Ruleset.prepare_conservative_either :
    ∃ ruleset query,
      ((Builder.ofModel Model.empty).run eitherMonthSteps).build =
        .ok ruleset ∧
      ruleset.prepare [⟨"x", ["y"], .add⟩, ⟨"b", ["x"], .remove⟩]
          (some (morningOf 7 (by decide))) {} =
        .ok query ∧
      query.ids.toList =
        ruleset.ids.toList ++ [(Constraint.uniform ["b", "x"] 1 (-2)).id] ∧
      ruleset.polyhedron.PadsTo query.polyhedron 1 ∧
      Set.BijOn (Vertex.restrict ruleset.ids)
        {vertex :
          Vertex query.ids | query.polyhedron.Contains vertex.entries}
        {vertex | ruleset.Allows (some (morningOf 7 (by decide))) vertex} ∧
      ∃ vertex, ruleset.Allows (some (morningOf 7 (by decide))) vertex := by
  have checked :
      (do
        let ruleset ←
          ((Builder.ofModel Model.empty).run
            eitherMonthSteps).build.toOption
        let query ←
          (ruleset.prepare [⟨"x", ["y"], .add⟩, ⟨"b", ["x"], .remove⟩]
            (some (morningOf 7 (by decide))) {}).toOption
        return decide
          (additions ruleset.ids query.selections =
              [⟨"b", ["x"], .remove⟩] ∧
            ruleset.Allows (some (morningOf 7 (by decide)))
              (Vertex.ofTruth ruleset.ids fun id =>
                id ∉ ["x", "y", bothId, "period_0"])) : Option Bool) =
        some true := by
    decide +kernel
  simp only [Option.bind_eq_bind, Option.pure_def, Option.bind_eq_some_iff,
    Option.some.injEq, toOption_eq_some_iff, decide_eq_true_eq]
    at checked
  obtain ⟨ruleset, built, query, prepared, added, allowed⟩ := checked
  obtain ⟨ids, _, _, padded, _, restriction, _⟩ :=
    prepare_conservative eitherMonthSteps ruleset
      [⟨"x", ["y"], .add⟩, ⟨"b", ["x"], .remove⟩]
      (some (morningOf 7 (by decide))) {} query built prepared
  rw [added] at ids padded
  exact ⟨ruleset, query, built, prepared, ids, padded, restriction, _,
    allowed⟩

end Configurator
