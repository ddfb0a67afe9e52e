import Configurator.Proofs.Linear.Row
import Configurator.Proofs.Logic.Evaluation
import Mathlib.Data.List.Perm.Subperm

/-!
# The polyhedron of a model

The polyhedron of a model that requests lead to lists the links of the
constraints, two for each, and then a row for every assumed id.  Its leading
rows hold at a vertex exactly if the vertex is the bottom-up evaluation of
its primitives.
-/

namespace Configurator.Logic

open Configurator.Arithmetic Configurator.Collection Configurator.Linear

namespace Model

/-- The links of the constraints in creation order, then the assumptions. -/
def inequalities (model : Model) : List Inequality :=
  model.constraints.flatMap Constraint.links ++
    model.assumed.toList.map Inequality.require

variable {model : Model} {polyhedron : Polyhedron}

/-! ## The rows -/

/-- A polyhedron with the rows of one more constraint. -/
def appendLinks
    (ids : OrderedSet String)
    (grown : Polyhedron)
    (constraint : Constraint) :
    Except Failure Polyhedron := do
  let rows ← constraint.linkingRows
  grown.appendAll rows ids

theorem polyhedron_eq_foldlM (model : Model) :
    model.polyhedron =
      (model.constraints.foldlM (appendLinks model.ids)
          (Polyhedron.unbounded model.ids.size) >>= fun linked =>
        linked.appendAll (model.assumed.toList.map Inequality.require)
          model.ids) :=
  rfl

private theorem linked_represents
    {constraints : List Constraint}
    {ids : OrderedSet String}
    {start linked : Polyhedron}
    {inequalities : List Inequality}
    (represents : start.Represents ids inequalities)
    (computed :
      constraints.foldlM (appendLinks ids) start = .ok linked) :
    linked.Represents ids
      (inequalities ++ constraints.flatMap Constraint.links) := by
  induction constraints generalizing start inequalities with
  | nil =>
      rw [List.foldlM_nil] at computed
      cases computed
      simpa using represents
  | cons first rest ih =>
      simp only [List.foldlM_cons, appendLinks, bind_eq_ok_iff,
        faulting_eq_ok_iff] at computed
      rcases computed with ⟨next, ⟨rows, linkedRows, appended⟩, others⟩
      rw [Constraint.linkingRows_eq_ok linkedRows] at appended
      have whole := ih (represents.appendAll appended) others
      rwa [List.append_assoc, ← List.flatMap_cons] at whole

/-- A polyhedron that is returned lists the links and the assumptions. -/
theorem polyhedron_represents
    (computed : model.polyhedron = .ok polyhedron) :
    polyhedron.Represents model.ids model.inequalities := by
  rw [polyhedron_eq_foldlM, bind_eq_ok_iff] at computed
  rcases computed with ⟨linked, links, assumed⟩
  have represents :=
    linked_represents (Polyhedron.represents_unbounded model.ids) links
  exact represents.appendAll assumed

theorem length_links
    (constraints : List Constraint) :
    (constraints.flatMap Constraint.links).length =
      2 * constraints.length := by
  induction constraints with
  | nil => rfl
  | cons first rest ih =>
      rw [List.flatMap_cons, List.length_append, ih, List.length_cons]
      show 2 + _ = _
      omega

/-- The leading rows are the links of the constraints. -/
theorem leading_represents
    (represents : polyhedron.Represents model.ids model.inequalities) :
    (polyhedron.leading (2 * model.constraints.length)).Represents model.ids
      (model.constraints.flatMap Constraint.links) := by
  have leading := represents.leading (2 * model.constraints.length)
  rw [← length_links, inequalities, List.take_left] at leading
  rwa [← length_links]

namespace WellFormed

/-- The links hold at zeros and ones exactly if these are consistent. -/
theorem links_hold_iff
    (wellFormed : model.WellFormed)
    {value : String → Int}
    (binary : ∀ id, value id = 0 ∨ value id = 1) :
    (∀ link ∈ model.constraints.flatMap Constraint.links,
      link.Holds value) ↔
      model.Consistent value := by
  have single :
      ∀ constraint ∈ model.constraints,
        ((∀ link ∈ constraint.links, link.Holds value) ↔
          constraint.Agrees value) := by
    intro constraint member
    exact Constraint.links_hold_iff (wellFormed.id_notMem_operands member)
      (wellFormed.wellMade constraint member).cardinality.representable
      (fun id _ => binary id) (binary _)
  constructor
  · intro held constraint member
    rw [← single constraint member]
    intro link linkMember
    exact held link (List.mem_flatMap.2 ⟨constraint, member, linkMember⟩)
  · intro consistent link member
    rcases List.mem_flatMap.1 member with
      ⟨constraint, constraintMember, linkMember⟩
    exact (single constraint constraintMember).2
      (consistent constraint constraintMember) link linkMember

/--
The rows hold exactly at consistent values with all assumptions at one.
-/
theorem inequalities_hold_iff
    (wellFormed : model.WellFormed)
    {value : String → Int}
    (binary : ∀ id, value id = 0 ∨ value id = 1) :
    (∀ row ∈ model.inequalities, row.Holds value) ↔
      model.Consistent value ∧ ∀ id ∈ model.assumed, value id = 1 := by
  have assumptions :
      (∀ row ∈ model.assumed.toList.map Inequality.require,
        row.Holds value) ↔
        ∀ id ∈ model.assumed, value id = 1 := by
    rw [List.forall_mem_map]
    exact forall₂_congr fun id _ => Inequality.require_holds (binary id)
  rw [inequalities, List.forall_mem_append,
    wellFormed.links_hold_iff binary, assumptions]

theorem leading_contains_iff
    (wellFormed : model.WellFormed)
    (represents : polyhedron.Represents model.ids model.inequalities)
    (vertex : Vertex model.ids) :
    (polyhedron.leading (2 * model.constraints.length)).Contains
        vertex.entries ↔
      model.Consistent vertex.value := by
  rw [(leading_represents represents).contains_vertex_iff,
    wellFormed.links_hold_iff vertex.value_binary]

/--
The polyhedron contains the consistent vertices at which all assumptions are
one.
-/
theorem contains_iff
    (wellFormed : model.WellFormed)
    (represents : polyhedron.Represents model.ids model.inequalities)
    (vertex : Vertex model.ids) :
    polyhedron.Contains vertex.entries ↔
      model.Consistent vertex.value ∧
      ∀ id ∈ model.assumed, vertex.value id = 1 := by
  rw [represents.contains_vertex_iff,
    wellFormed.inequalities_hold_iff vertex.value_binary]

/-! ## Range of the rows -/

theorem operands_length_le
    (wellFormed : model.WellFormed)
    {constraint : Constraint}
    (member : constraint ∈ model.constraints) :
    constraint.operands.length ≤ model.ids.size := by
  have nodup : constraint.operands.Nodup := Coefficients.ids_nodup _
  have known : constraint.operands ⊆ model.ids.toList :=
    fun operand mentioned => wellFormed.operand_known member mentioned
  exact (nodup.subperm known).length_le

theorem links_known
    (wellFormed : model.WellFormed)
    {constraint : Constraint}
    (member : constraint ∈ model.constraints)
    {link : Inequality}
    (linkMember : link ∈ constraint.links) :
    link.coefficients.Known model.ids := by
  intro id mentioned
  rcases (Constraint.mem_ids_of_mem_links linkMember).1 mentioned with
    rfl | operand
  · exact wellFormed.supports_known constraint member
  · exact wellFormed.operand_known member operand

/--
The rows of a model weigh at most three times its greatest number of
operands and one.
-/
theorem inequalities_le
    (wellFormed : model.WellFormed)
    {count : Nat}
    (short :
      ∀ constraint ∈ model.constraints,
        constraint.operands.length ≤ count) :
    ∀ row ∈ model.inequalities,
      magnitude row.coefficients.values ≤ 3 * count + 1 ∧
      row.bias.natAbs ≤ 2 * count + 1 := by
  intro row member
  rcases List.mem_append.1 member with link | assumption
  · rcases List.mem_flatMap.1 link with
      ⟨constraint, constraintMember, linkMember⟩
    have few := short constraint constraintMember
    have cardinality :=
      (wellFormed.wellMade constraint constraintMember).cardinality
    have small := cardinality.links_small
      (wellFormed.id_notMem_operands constraintMember) row linkMember
    omega
  · rcases List.mem_map.1 assumption with ⟨id, _, rfl⟩
    have weight :
        magnitude (Inequality.require id).coefficients.values = 1 :=
      rfl
    have bias : (Inequality.require id).bias.natAbs = 1 := rfl
    omega

/-- The rows of a model weigh at most three times its variables and one. -/
theorem inequalities_small
    (wellFormed : model.WellFormed) :
    ∀ row ∈ model.inequalities,
      magnitude row.coefficients.values ≤ 3 * model.ids.size + 1 ∧
      row.bias.natAbs ≤ 2 * model.ids.size + 1 :=
  wellFormed.inequalities_le fun _ member =>
    wellFormed.operands_length_le member

private theorem linked_ok
    {constraints : List Constraint}
    {start : Polyhedron}
    {inequalities : List Inequality}
    (wellFormed : model.WellFormed)
    (few : model.ids.size < 1152921504606846976)
    (stored : ∀ constraint ∈ constraints, constraint ∈ model.constraints)
    (represents : start.Represents model.ids inequalities) :
    ∃ linked,
      constraints.foldlM (appendLinks model.ids) start = .ok linked := by
  induction constraints generalizing start inequalities with
  | nil => exact ⟨start, rfl⟩
  | cons first rest ih =>
      have member := stored first List.mem_cons_self
      have cardinality := (wellFormed.wellMade first member).cardinality
      have short := wellFormed.operands_length_le member
      have rows := cardinality.linkingRows_eq (by omega)
      obtain ⟨next, appended⟩ := represents.appendAll_ok
        (fun link linkMember => wellFormed.links_known member linkMember)
        (fun link linkMember => by
          have small :=
            cardinality.links_small (wellFormed.id_notMem_operands member)
              link linkMember
          omega)
      obtain ⟨linked, others⟩ :=
        ih
          (fun constraint later =>
            stored constraint (List.mem_cons_of_mem _ later))
          (represents.appendAll appended)
      refine ⟨linked, ?_⟩
      simp only [List.foldlM_cons, appendLinks, bind_eq_ok_iff,
        faulting_eq_ok_iff]
      exact ⟨next, ⟨_, rows, appended⟩, others⟩

/-- A model of less than `2 ^ 60` variables has a polyhedron. -/
theorem polyhedron_ok
    (wellFormed : model.WellFormed)
    (few : model.ids.size < 1152921504606846976) :
    ∃ polyhedron, model.polyhedron = .ok polyhedron := by
  obtain ⟨linked, links⟩ :=
    linked_ok wellFormed few (fun _ member => member)
      (Polyhedron.represents_unbounded model.ids)
  have represents :=
    linked_represents (Polyhedron.represents_unbounded model.ids) links
  have known : ∀ row ∈ model.assumed.toList.map Inequality.require,
      row.coefficients.Known model.ids := by
    intro row member
    rcases List.mem_map.1 member with ⟨id, assumed, rfl⟩
    intro other mentioned
    rcases Coefficients.mem_ids_insert.1 mentioned with rfl | impossible
    · exact wellFormed.assumed_known other assumed
    · cases impossible
  obtain ⟨polyhedron, assumed⟩ :=
    represents.appendAll_ok known fun row member => by
      rcases List.mem_map.1 member with ⟨id, _, rfl⟩
      show (-1 : Int).natAbs ≤ 9223372036854775807
      decide
  refine ⟨polyhedron, ?_⟩
  rw [polyhedron_eq_foldlM, bind_eq_ok_iff]
  exact ⟨linked, links, assumed⟩

/-- Rows of a small model are multiplied with a vertex without overflow. -/
theorem satisfies_eq
    (few : model.ids.size < 1152921504606846976)
    {inequalities : List Inequality}
    (small :
      ∀ row ∈ inequalities,
        magnitude row.coefficients.values ≤ 3 * model.ids.size + 1)
    (represents : polyhedron.Represents model.ids inequalities)
    (vertex : Vertex model.ids) :
    polyhedron.satisfies vertex.entries =
      .ok (decide (polyhedron.Contains vertex.entries)) := by
  apply Polyhedron.satisfies_of_small
  · rw [represents.columns_eq, vertex.length_eq]
  · exact vertex.binary
  · intro row member
    rw [represents.rows_eq] at member
    rcases List.mem_map.1 member with ⟨inequality, inequalityMember, rfl⟩
    have projected :
        magnitude (inequality.coefficients.row model.ids) ≤ _ :=
      inequality.coefficients.magnitude_map_coefficient_le model.ids.nodup
    have weight := small inequality inequalityMember
    omega

end WellFormed

/-! ## Faithfulness -/

/--
The polyhedron of every model that requests lead to has a column for each
variable.  A choice of values for the primitives extends to one vertex that
satisfies the support rows, at which the supports are the truth values of
their constraints; the satisfied vertices are those extensions at which all
assumptions are one.
-/
theorem polyhedron_faithful
    (steps : List Step)
    (few : (empty.run steps).ids.size < 2 ^ 60) :
    let model := empty.run steps
    ∃ polyhedron,
      model.polyhedron = .ok polyhedron ∧
      polyhedron.columns = model.ids.size ∧
      polyhedron.rows.length =
        2 * model.constraints.length + model.assumed.size ∧
      (∀ truth : String → Bool, ∃ extension : Vertex model.ids,
        (∀ id ∈ model.primitives, extension.value id = (truth id).toInt) ∧
        (∀ constraint ∈ model.constraints,
          (extension.value constraint.id = 1 ↔
            constraint.row.Holds extension.value)) ∧
        ∀ vertex : Vertex model.ids,
          (∀ id ∈ model.primitives, vertex.value id = (truth id).toInt) ∧
            (polyhedron.leading (2 * model.constraints.length)).satisfies
                vertex.entries =
              .ok true ↔
            vertex = extension) ∧
      ∀ vertex : Vertex model.ids, ∃ verdict,
        polyhedron.satisfies vertex.entries = .ok verdict ∧
        (verdict = true ↔
          (polyhedron.leading (2 * model.constraints.length)).satisfies
              vertex.entries =
            .ok true ∧
          ∀ id ∈ model.assumed, vertex.value id = 1) := by
  intro model
  have wellFormed : model.WellFormed := wellFormed_run_empty steps
  rcases wellFormed.polyhedron_ok few with ⟨polyhedron, computed⟩
  have represents := polyhedron_represents computed
  have supportRows :
      ∀ vertex : Vertex model.ids,
        (polyhedron.leading (2 * model.constraints.length)).satisfies
              vertex.entries =
            .ok true ↔
          model.Consistent vertex.value := by
    intro vertex
    rw [WellFormed.satisfies_eq few
        (fun row member =>
          (wellFormed.inequalities_small row
            (List.mem_append_left _ member)).1)
        (leading_represents represents), Except.ok.injEq,
      decide_eq_true_iff, wellFormed.leading_contains_iff represents]
  refine ⟨polyhedron, computed, represents.columns_eq, ?_, ?_, ?_⟩
  · rw [represents.rows_eq, List.length_map, inequalities,
      List.length_append, length_links, List.length_map]
    rfl
  · intro truth
    have given :
        ∀ id ∈ model.primitives,
          (Vertex.ofTruth model.ids (model.evaluate truth)).value id =
            (truth id).toInt := by
      intro id member
      rcases mem_primitives.1 member with ⟨known, absent⟩
      rw [Vertex.value_ofTruth known, evaluate_of_notMem absent]
    refine ⟨Vertex.ofTruth model.ids (model.evaluate truth), given,
      (wellFormed.consistent_iff given).2 rfl, ?_⟩
    intro vertex
    rw [supportRows]
    constructor
    · rintro ⟨agrees, consistent⟩
      exact (wellFormed.consistent_iff agrees).1 consistent
    · rintro rfl
      exact ⟨given, (wellFormed.consistent_iff given).2 rfl⟩
  · intro vertex
    refine ⟨_,
      WellFormed.satisfies_eq few
        (fun row member => (wellFormed.inequalities_small row member).1)
        represents vertex, ?_⟩
    rw [decide_eq_true_iff, wellFormed.contains_iff represents, supportRows]

theorem polyhedron_faithful_exclusive :
    let model :=
      empty.run
        [.addPrimitives ["a", "b"], .set .exactlyOne ["a", "b"],
          .assume ["a"]]
    model.ids.size < 2 ^ 60 ∧
    ∃ polyhedron,
      model.polyhedron = .ok polyhedron ∧
      polyhedron.columns = 5 ∧
      polyhedron.rows.length = 7 := by
  intro model
  have sizes :
      model.ids.size = 5 ∧
      model.constraints.length = 3 ∧
      model.assumed.size = 1 := by
    decide +kernel
  have few : model.ids.size < 2 ^ 60 := by
    rw [sizes.1]
    decide
  obtain ⟨polyhedron, computed, columns, rows, _⟩ :=
    polyhedron_faithful
      [.addPrimitives ["a", "b"], .set .exactlyOne ["a", "b"],
        .assume ["a"]] few
  refine ⟨few, polyhedron, computed, ?_, ?_⟩
  · exact columns.trans sizes.1
  · rw [rows, sizes.2.1, sizes.2.2]

end Model

end Configurator.Logic
