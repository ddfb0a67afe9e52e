import Configurator.Persistence.Ruleset
import Configurator.Proofs.Linear.Shape
import Configurator.Proofs.Ruleset.Decoding

/-!
# Accepted rule sets are safe to query

A rule set that is read from a text has a well-shaped polyhedron with a
column for every variable, and nothing else about it is certain: ids that
can be selected, preferred ids and periods may be no variables at all.
Preparing selections about such a rule set ends with a query or a refusal,
the problem of every query is well formed, and every answer is read or
refused.
-/

namespace Configurator

open Configurator.Arithmetic Configurator.Calendar Configurator.Collection
  Configurator.Linear Configurator.Logic Configurator.Objective
  Configurator.Optimizer Configurator.Persistence Configurator.Request
  Configurator.Schedule

/-! ## Shapes of named polyhedra -/

/-- The polyhedron keeps its own shape and has a column for every id. -/
structure NamedPolyhedron.WellShaped (named : NamedPolyhedron) : Prop where
  /-- There is one column for each id. -/
  columns_eq : named.polyhedron.columns = named.ids.size
  /--
  Every row has one entry for each column, and there is one bound for each
  row.
  -/
  shaped : named.polyhedron.WellShaped

namespace Ruleset

variable {ruleset : Ruleset}

/--
What passes the checks has a column for every variable and keeps its shape.
-/
theorem wellShaped_of_check
    (passed : ruleset.check = .ok ()) :
    (NamedPolyhedron.mk ruleset.polyhedron ruleset.ids).WellShaped := by
  simp only [check] at passed
  split at passed
  · cases passed
  · rename_i counted
    split at passed
    · rename_i unrefuted
      exact ⟨Decidable.not_not.1 counted,
        Polyhedron.misshape?_eq_none_iff.1 unrefuted⟩
    · cases passed

/-- What is accepted is a rule set that was read and passes the checks. -/
theorem readRuleset_eq_ok_iff
    {text : String} :
    readRuleset text = .ok ruleset ↔
      read text = .ok ruleset ∧ ruleset.check = .ok () := by
  simp only [readRuleset, bind_eq_ok_iff]
  constructor
  · rintro ⟨given, found, _, passed, finished⟩
    cases finished
    exact ⟨found, passed⟩
  · rintro ⟨found, passed⟩
    exact ⟨ruleset, found, (), passed, rfl⟩

theorem wellShaped_of_read
    {text : String}
    (accepted : readRuleset text = .ok ruleset) :
    (NamedPolyhedron.mk ruleset.polyhedron ruleset.ids).WellShaped :=
  wellShaped_of_check (readRuleset_eq_ok_iff.1 accepted).2

end Ruleset

namespace NamedPolyhedron.WellShaped

open Ruleset

variable {named grown : NamedPolyhedron} {selection : Selection}

theorem materialise
    (shape : named.WellShaped)
    (extended : Ruleset.materialise named selection = .ok grown) :
    grown.WellShaped := by
  simp only [Ruleset.materialise] at extended
  split at extended
  · cases extended
    exact shape
  · rename_i fresh
    have absent : selection.conjunction.id ∉ named.ids := by
      intro member
      simp [member] at fresh
    simp only [bind_eq_ok_iff] at extended
    rcases extended with ⟨rows, _, polyhedron, appended, finished⟩
    cases finished
    rcases shape.shaped.widen.appendAll appended with ⟨shaped, columns⟩
    refine ⟨?_, shaped⟩
    rw [columns]
    show named.polyhedron.columns + 1 = (named.ids.insert _).toList.length
    rw [shape.columns_eq, OrderedSet.toList_insert, if_neg absent,
      List.length_append]
    rfl

theorem pin
    {ruleset : Ruleset}
    {instant : Instant}
    (shape : named.WellShaped)
    (pinned : ruleset.pin named instant = .ok grown) :
    grown.WellShaped := by
  simp only [Ruleset.pin] at pinned
  split at pinned
  · cases pinned
    exact shape
  · split at pinned
    · cases pinned
    · simp only [bind_eq_ok_iff] at pinned
      rcases pinned with ⟨polyhedron, appended, finished⟩
      cases finished
      rcases shape.shaped.appendInequality appended with ⟨shaped, columns⟩
      exact ⟨columns.trans shape.columns_eq, shaped⟩

end NamedPolyhedron.WellShaped

/-! ## Steps of a preparation -/

/-- A selection of not too many ids is materialised or refused. -/
theorem Ruleset.faultless_materialise
    {selection : Selection}
    (few : selection.ids.length < 4611686018427387904)
    (named : NamedPolyhedron) :
    Faultless (materialise named selection) := by
  simp only [materialise]
  split
  · exact Faultless.of_ok _
  · have cardinality := selection.wellMade_conjunction.cardinality
    have count :
        selection.conjunction.operands.length = selection.ids.length := by
      rw [selection.conjunction_eq]
      exact (Coefficients.uniform_ids_perm selection.ids_nodup 1).length_eq
    have linked := cardinality.linkingRows_eq (by omega)
    refine (Faultless.faulting linked).bind fun rows returned => ?_
    have rowsEq : selection.conjunction.links = rows := by
      rw [linked] at returned
      exact Except.ok.inj returned
    refine (Polyhedron.faultless_appendAll ?_).bind fun polyhedron _ =>
      Faultless.of_ok _
    rw [← rowsEq]
    intro link member
    have small := cardinality.natAbs_link_bias_le link member
    exact isWord_of_natAbs_le (by omega)

theorem Ruleset.faultless_pin
    (ruleset : Ruleset)
    (named : NamedPolyhedron)
    (instant : Instant) :
    Faultless (ruleset.pin named instant) := by
  simp only [pin]
  split
  · exact Faultless.of_ok _
  · split
    · exact Faultless.of_refusal _
    · have opposite : IsWord (-(-1)) := by decide
      exact (Polyhedron.faultless_appendInequality opposite).bind fun _ _ =>
        Faultless.of_ok _

/--
The default weights of not too many selectable variables are derived or
refused.
-/
theorem Objective.faultless_derive
    {inputs : WeightInputs}
    (few : inputs.uncovered.length < 4611686018427387904) :
    Faultless (Weights.derive inputs {}) := by
  intro cause faulty
  rcases derive_eq_fault_iff.1 faulty with ⟨least | ⟨_, _, step⟩, _⟩
  · simp only [leastWord] at least
    omega
  · exact step (by decide)

namespace Ruleset

variable {ruleset : Ruleset}

/-- An admitted selection has no more ids than can be selected. -/
theorem Admits.length_le
    {selection : Selection}
    (admitted : ruleset.Admits selection) :
    selection.ids.length ≤ ruleset.selectable.size :=
  (selection.ids_nodup.subperm fun id member =>
    (admitted id member).1).length_le

/--
With not too many selectable variables, preparing selections ends with a
query or a refusal.
-/
theorem faultless_prepare
    (few : ruleset.selectable.size < 4611686018427387904)
    (selections : List Selection)
    (time : Option Instant) :
    Faultless (ruleset.prepare selections time {}) := by
  simp only [prepare]
  refine (Faultless.forM fun selection _ => Faultless.refusable _).bind
    fun _ checked => ?_
  have admitted :
      ∀ selection ∈ ruleset.reduce selections,
        ruleset.Admits selection := by
    intro selection member
    have passed :=
      forM_eq_ok_iff.1 checked selection (mem_of_mem_reduceWith member)
    exact admits_of_checkSelection (liftError_eq_ok_iff.1 passed)
  have extended : Faultless ((ruleset.reduce selections).foldlM materialise
      ⟨ruleset.polyhedron, ruleset.ids⟩) := by
    refine Faultless.foldlM (fun _ => True) trivial
      (fun _ _ _ _ _ _ => trivial) ?_
    intro selection member named _
    have short := (admitted selection member).length_le
    exact faultless_materialise (by omega) named
  have derived : Faultless (Weights.derive
      (ruleset.weightInputs (ruleset.reduce selections)) {}) := by
    apply faultless_derive
    have fewer :
        (ruleset.weightInputs
            (ruleset.reduce selections)).uncovered.length ≤
          ruleset.selectable.size :=
      List.length_filter_le _ _
    omega
  refine extended.bind fun materialised _ => ?_
  cases time with
  | none =>
      refine (Faultless.of_ok _).bind fun pinned _ => ?_
      exact derived.bind fun weights _ => Faultless.of_ok _
  | some instant =>
      refine (ruleset.faultless_pin materialised instant).bind
        fun pinned _ => ?_
      exact derived.bind fun weights _ => Faultless.of_ok _

/-- A query that is prepared from a well-shaped rule set is well shaped. -/
theorem wellShaped_prepare
    {selections : List Selection}
    {time : Option Instant}
    {config : WeightConfig}
    {query : Query}
    (shape : (NamedPolyhedron.mk ruleset.polyhedron ruleset.ids).WellShaped)
    (prepared : ruleset.prepare selections time config = .ok query) :
    (NamedPolyhedron.mk query.polyhedron query.ids).WellShaped := by
  obtain ⟨_, materialised, pinned, weights, extended, located, _, rfl⟩ :=
    prepare_eq_ok prepared
  have materialisedShape : materialised.WellShaped :=
    invariant_of_foldlM NamedPolyhedron.WellShaped shape
      (fun _ _ _ _ current step => current.materialise step) extended
  rcases located with ⟨_, rfl⟩ | ⟨instant, _, located⟩
  · exact materialisedShape
  · exact materialisedShape.pin located

end Ruleset

/-! ## Problems -/

/-- A problem that an optimiser can rely on. -/
structure Optimizer.Problem.WellFormed (problem : Problem) : Prop where
  /-- The matrix lists its entries as it should. -/
  matrix : problem.polyhedron.matrix.WellFormed
  /-- There is one bound for each row. -/
  bounds_length :
    problem.polyhedron.matrix.shape.rows = problem.polyhedron.bounds.length
  /-- There is one variable for each column. -/
  unknowns_length : problem.polyhedron.matrix.shape.columns =
    problem.polyhedron.unknowns.length
  /-- No variable is listed twice. -/
  unknowns_nodup :
    (problem.polyhedron.unknowns.map BoundedVariable.id).Nodup
  /-- Objectives are about variables of the problem. -/
  objectives_known :
    ∀ objective ∈ problem.objectives, ∀ id ∈ objective.keys,
      id ∈ problem.polyhedron.unknowns.map BoundedVariable.id

namespace Query

variable {query : Query}

/-- The problem of a well-shaped query is well formed. -/
theorem exists_problem
    (shape : (NamedPolyhedron.mk query.polyhedron query.ids).WellShaped) :
    ∃ problem, query.problem = .ok problem ∧ problem.WellFormed := by
  have inside : ∀ column ∈ query.decidedColumns.map Prod.snd,
      column < query.polyhedron.columns := by
    rw [List.forall_mem_map]
    rintro ⟨id, column⟩ member
    have here :=
      List.mk_mem_zipIdx_iff_getElem?.1 (List.mem_filter.1 member).1
    have bounded : column < query.ids.size :=
      (List.getElem?_eq_some_iff.1 here).1
    exact bounded.trans_eq shape.columns_eq.symm
  obtain ⟨selected, computed, shaped, columns⟩ :=
    shape.shaped.selectColumns inside
  have named :
      (query.decided.map BoundedVariable.binary).map BoundedVariable.id =
        query.decided := by
    rw [List.map_map]
    exact List.map_id _
  refine ⟨⟨⟨selected.sparse, selected.bounds,
             query.decided.map BoundedVariable.binary⟩, [query.objective],
            .maximize⟩, ?_, shaped.sparse, shaped.1.symm, ?_, ?_, ?_⟩
  · rw [problem, computed]
    show Except.ok _ = _
    rw [map_fst_decidedColumns]
    rfl
  · show selected.columns = _
    rw [columns, List.length_map, List.length_map, ← map_fst_decidedColumns,
      List.length_map]
  · rw [named]
    exact query.decided_nodup
  · intro objective listed id member
    rw [List.mem_singleton.1 listed] at member
    rcases List.mem_map.1 member with ⟨entry, entryMember, rfl⟩
    rcases List.mem_filterMap.1
        (OrderedMap.mem_of_mem_entries_ofList entryMember) with
      ⟨other, decided, weighed⟩
    rcases Option.map_eq_some_iff.1 weighed with ⟨weight, _, rfl⟩
    rw [named]
    exact decided

end Query

/-! ## Safety -/

/--
An accepted rule set is safe to query.  With fewer than `2 ^ 62` selectable
variables, and whatever else the text says, preparing selections ends with a
query or a refusal.  The problem of every query is well formed, and every
answer to it is refused or read as zeros and ones for the selectable
variables.
-/
theorem Ruleset.accepted_safe
    {text : String}
    {ruleset : Ruleset}
    (accepted : readRuleset text = .ok ruleset)
    (few : ruleset.selectable.size < 2 ^ 62)
    (selections : List Selection)
    (time : Option Instant) :
    Faultless (ruleset.prepare selections time {}) ∧
    ∀ query,
      ruleset.prepare selections time {} = .ok query →
      (∃ problem, query.problem = .ok problem ∧ problem.WellFormed) ∧
      ∀ response,
        Faultless (liftError (query.decode response)) ∧
        ∀ solution,
          query.decode response = .ok solution →
          solution.values.keys = ruleset.selectable.toList ∧
          ∀ value ∈ solution.values.values, value = 0 ∨ value = 1 := by
  refine ⟨faultless_prepare few selections time, ?_⟩
  intro query prepared
  have shape := wellShaped_prepare (wellShaped_of_read accepted) prepared
  refine ⟨query.exists_problem shape,
    fun response => ⟨Faultless.refusable _, ?_⟩⟩
  intro solution decoded
  obtain ⟨_, _, _, _, _, _, _, rfl⟩ := prepare_eq_ok prepared
  exact Query.values_of_decode decoded

/--
A rule set whose selectable, preferred and independent ids are no variables.
-/
def inconsistent : Ruleset where
  polyhedron := ⟨[[1, -1]], [0], 2⟩
  ids := OrderedSet.ofList ["x", "y"]
  selectable := OrderedSet.ofList ["x", "u"]
  independent := OrderedSet.ofList ["v"]
  preferredSupports := OrderedSet.ofList ["w"]
  preferences := OrderedSet.ofList ["u"]
  periods := []
  enabledPeriod := none

/-- The fields of the inconsistent rule set, in order. -/
def inconsistentText : String :=
  "[[[[1,-1]],[0],2],[\"x\",\"y\"],[\"x\",\"u\"],[\"v\"],[\"w\"]," ++
    "[\"u\"],[],null]"

/--
A selection of something that is no variable still leads to a well-formed
problem.
-/
theorem Ruleset.accepted_safe_inconsistent :
    readRuleset inconsistentText = .ok inconsistent ∧
    ∃ query problem,
      inconsistent.prepare [⟨"u", [], .add⟩] none {} = .ok query ∧
      query.problem = .ok problem ∧
      problem.WellFormed := by
  have accepted : readRuleset inconsistentText = .ok inconsistent :=
    toOption_eq_some_iff.1 (by decide +kernel)
  have prepared :
      (inconsistent.prepare [⟨"u", [], .add⟩] none {}).toOption.isSome =
        true := by
    decide +kernel
  obtain ⟨query, found⟩ := Option.isSome_iff_exists.1 prepared
  have safe := accepted_safe accepted (by decide) [⟨"u", [], .add⟩] none
  obtain ⟨⟨problem, computed, wellFormed⟩, _⟩ :=
    safe.2 query (toOption_eq_some_iff.1 found)
  exact ⟨accepted, query, problem, toOption_eq_some_iff.1 found, computed,
    wellFormed⟩

end Configurator
