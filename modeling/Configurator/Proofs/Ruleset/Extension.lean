import Configurator.Proofs.Request.Selection
import Configurator.Proofs.Ruleset.Compiled
import Configurator.Ruleset.Query

/-!
# Queries extend their rule set

Preparing a query extends the model of the rule set by a constraint for the
conjunction of every composite selection and by the assumption that the
located period is active.  The rows of the query are those of the extended
model, and values that are consistent with the model have a consistent
extension.
-/

namespace Configurator

open Configurator.Calendar Configurator.Collection Configurator.Linear
  Configurator.Logic Configurator.Request Configurator.Schedule

/-! ## Conjunctions -/

namespace Request.Selection

theorem conjunction_eq
    (selection : Selection) :
    selection.conjunction =
      Constraint.uniform selection.ids 1 (-(selection.ids.length : Int)) :=
  Constraint.ofForm_uniform selection.ids_nodup (by decide) _

theorem wellMade_conjunction
    (selection : Selection) :
    selection.conjunction.WellMade := by
  have nonempty : selection.ids ≠ [] :=
    List.ne_nil_of_mem selection.id_mem_ids
  rw [conjunction_eq]
  exact ⟨Constraint.isCardinality_uniform .least nonempty
    selection.ids_nodup (Int.natCast_nonneg _) (Int.le_refl _), rfl⟩

theorem mem_operands_conjunction
    {selection : Selection}
    {id : String} :
    id ∈ selection.conjunction.operands ↔ id ∈ selection.ids := by
  rw [conjunction_eq]
  exact Constraint.mem_operands_uniform selection.ids_nodup _ _

/-- Selections whose conjunctions say the same make each other redundant. -/
theorem makesRedundant_of_row_eq
    {selection other : Selection}
    (same : other.conjunction.row = selection.conjunction.row) :
    selection.makesRedundant other = true := by
  apply makesRedundant_of_subset
  intro id listed
  have operand := mem_operands_conjunction.2 listed
  rw [Constraint.operands, same] at operand
  exact mem_operands_conjunction.1 operand

/-- The conjunction holds exactly if all ids have the value one. -/
theorem conjunction_holds
    {selection : Selection}
    {value : String → Int}
    (binary : ∀ id, value id = 0 ∨ value id = 1) :
    selection.conjunction.row.Holds value ↔
      ∀ id ∈ selection.ids, value id = 1 := by
  have whole := @all_iff value (selection.id :: selection.others)
  have counted := sum_distinct binary (selection.id :: selection.others)
  rw [conjunction_eq, Constraint.holds_uniform selection.ids_nodup]
  simp only [ids]
  rw [counted, Int.one_mul]
  simp only [List.mem_cons] at whole
  have listed :
      (∀ id ∈ (OrderedSet.ofList (selection.id :: selection.others)).toList,
        value id = 1) ↔
        ∀ id, id = selection.id ∨ id ∈ selection.others → value id = 1 := by
    refine forall_congr' fun id => ?_
    have member :
        id ∈ (OrderedSet.ofList (selection.id :: selection.others)).toList ↔
          id = selection.id ∨ id ∈ selection.others :=
      @mem_ids selection id
    rw [member]
  rw [listed, ← whole]
  omega

end Request.Selection

/-- The period that contains the instant. -/
def Ruleset.activePeriod?
    (ruleset : Ruleset)
    (time : Option Instant) :
    Option PeriodVariable :=
  time.bind fun instant =>
    (locate ruleset.periods instant).bind fun index =>
      ruleset.periods[index]?

/-! ## Models of queries -/

namespace Logic.Model

/--
Give a composite selection a support for its conjunction, unless its id is
taken.
-/
def materialise (model : Model) (selection : Selection) : Model :=
  if !selection.isComposite || selection.conjunction.id ∈ model.ids then
    model
  else
    { model with
      ids := model.ids.insert selection.conjunction.id
      constraints := model.constraints ++ [selection.conjunction] }

/-- Assume that a period is active, if one is given. -/
def pin (model : Model) : Option PeriodVariable → Model
  | none => model
  | some active => { model with assumed := model.assumed.insert active.id }

/-- The model of a query about selections during a period. -/
def asked
    (model : Model)
    (selections : List Selection)
    (active : Option PeriodVariable) :
    Model :=
  (selections.foldl materialise model).pin active

variable {model : Model} {selection : Selection}

theorem growsTo_materialise
    (model : Model)
    (selection : Selection) :
    model.GrowsTo (model.materialise selection) := by
  simp only [materialise]
  split
  · exact GrowsTo.refl _
  · exact ⟨OrderedSet.extends_insert _ _, List.prefix_append _ _⟩

theorem growsTo_foldl_materialise
    (selections : List Selection)
    (model : Model) :
    model.GrowsTo (selections.foldl materialise model) := by
  induction selections generalizing model with
  | nil => exact GrowsTo.refl _
  | cons selection rest ih =>
      exact (growsTo_materialise model selection).trans (ih _)

theorem assumed_materialise
    (model : Model)
    (selection : Selection) :
    (model.materialise selection).assumed = model.assumed := by
  simp only [materialise]
  split
  · rfl
  · rfl

theorem assumed_foldl_materialise
    (selections : List Selection)
    (model : Model) :
    (selections.foldl materialise model).assumed = model.assumed := by
  induction selections generalizing model with
  | nil => rfl
  | cons selection rest ih => rw [List.foldl_cons, ih, assumed_materialise]

theorem WellFormed.materialise
    (wellFormed : model.WellFormed)
    (known : ∀ id ∈ selection.ids, id ∈ model.ids) :
    (model.materialise selection).WellFormed := by
  simp only [Model.materialise]
  split
  · exact wellFormed
  · rename_i fresh
    simp only [Bool.or_eq_true, decide_eq_true_eq, not_or] at fresh
    exact wellFormed.append selection.wellMade_conjunction fresh.2
      fun operand mentioned =>
        known operand (Selection.mem_operands_conjunction.1 mentioned)

theorem WellFormed.pin
    (wellFormed : model.WellFormed)
    {active : Option PeriodVariable}
    (known : ∀ period ∈ active, period.id ∈ model.ids) :
    (model.pin active).WellFormed := by
  cases active with
  | none => exact wellFormed
  | some period =>
      refine { wellFormed with assumed_known := ?_ }
      intro id member
      rcases OrderedSet.mem_insert.1 member with old | rfl
      · exact wellFormed.assumed_known id old
      · exact known period rfl

theorem ids_pin
    (model : Model)
    (active : Option PeriodVariable) :
    (model.pin active).ids = model.ids := by
  cases active with
  | none => rfl
  | some period => rfl

theorem constraints_pin
    (model : Model)
    (active : Option PeriodVariable) :
    (model.pin active).constraints = model.constraints := by
  cases active with
  | none => rfl
  | some period => rfl

theorem mem_assumed_pin
    {id : String}
    {active : Option PeriodVariable} :
    id ∈ (model.pin active).assumed ↔
      id ∈ model.assumed ∨ ∃ period ∈ active, id = period.id := by
  cases active with
  | none => simp [pin]
  | some period => simp [pin, OrderedSet.mem_insert]

theorem mem_inequalities
    {row : Inequality} :
    row ∈ model.inequalities ↔
      (∃ constraint ∈ model.constraints, row ∈ constraint.links) ∨
      ∃ id ∈ model.assumed, Inequality.require id = row := by
  simp only [inequalities]
  rw [List.mem_append, List.mem_flatMap, List.mem_map]
  exact Iff.rfl

/-- A new constraint is a conjunction whose id has not been taken. -/
theorem mem_constraints_materialise
    {constraint : Constraint}
    (member : constraint ∈ (model.materialise selection).constraints) :
    constraint ∈ model.constraints ∨
    (selection.isComposite = true ∧ constraint = selection.conjunction) ∧
    constraint.id ∉ model.ids := by
  simp only [materialise] at member
  split at member
  · exact Or.inl member
  · rename_i fresh
    simp only [Bool.or_eq_true, Bool.not_eq_true', decide_eq_true_eq,
      not_or, Bool.not_eq_false] at fresh
    rcases List.mem_append.1 member with old | new
    · exact Or.inl old
    · cases List.mem_singleton.1 new
      exact Or.inr ⟨⟨fresh.1, rfl⟩, fresh.2⟩

theorem mem_constraints_foldl_materialise
    {selections : List Selection}
    {constraint : Constraint}
    (member :
      constraint ∈ (selections.foldl materialise model).constraints) :
    constraint ∈ model.constraints ∨
    (∃ selection ∈ selections,
      selection.isComposite = true ∧ constraint = selection.conjunction) ∧
    constraint.id ∉ model.ids := by
  induction selections generalizing model with
  | nil => exact Or.inl member
  | cons first rest ih =>
      rcases ih member with
        early | ⟨⟨selection, selectionMember, made⟩, fresh⟩
      · rcases mem_constraints_materialise early with old | ⟨made, fresh⟩
        · exact Or.inl old
        · exact Or.inr ⟨⟨first, List.mem_cons_self, made⟩, fresh⟩
      · refine Or.inr
          ⟨⟨selection, List.mem_cons_of_mem _ selectionMember, made⟩, ?_⟩
        exact fun known =>
          fresh
            (OrderedSet.mem_of_extends (growsTo_materialise model first).ids
              known)

/-- Materialising adds supports only. -/
theorem mem_primitives_of_materialise
    {id : String}
    (primitive : id ∈ (model.materialise selection).primitives) :
    id ∈ model.primitives := by
  simp only [materialise] at primitive
  split at primitive
  · exact primitive
  · rcases mem_primitives.1 primitive with ⟨known, absent⟩
    simp only [supports, List.map_append, List.mem_append, not_or] at absent
    rcases OrderedSet.mem_insert.1 known with old | rfl
    · exact mem_primitives.2 ⟨old, absent.1⟩
    · exact absurd List.mem_cons_self absent.2

theorem mem_primitives_of_foldl_materialise
    {selections : List Selection}
    {id : String}
    (primitive : id ∈ (selections.foldl materialise model).primitives) :
    id ∈ model.primitives := by
  induction selections generalizing model with
  | nil => exact primitive
  | cons first rest ih => exact mem_primitives_of_materialise (ih primitive)

/--
The id of a composite selection's conjunction is taken afterwards, by
whatever it is.
-/
theorem conjunction_id_mem_foldl_materialise
    {selections : List Selection}
    (member : selection ∈ selections)
    (composite : selection.isComposite = true) :
    selection.conjunction.id ∈
      (selections.foldl materialise model).ids := by
  obtain ⟨earlier, later, rfl⟩ := List.append_of_mem member
  rw [List.foldl_append, List.foldl_cons]
  apply OrderedSet.mem_of_extends (growsTo_foldl_materialise later _).ids
  simp only [materialise]
  split
  · rename_i taken
    simpa [composite] using taken
  · exact OrderedSet.mem_insert.2 (Or.inr rfl)

/--
A composite selection has a support, unless its id stands for something
else.
-/
theorem conjunction_mem_foldl_materialise
    {selections : List Selection}
    (member : selection ∈ selections)
    (composite : selection.isComposite = true)
    (apart : selection.conjunction.id ∉ model.primitives)
    (lone :
      ∀ constraint ∈ (selections.foldl materialise model).constraints,
        constraint.id = selection.conjunction.id →
        constraint.row = selection.conjunction.row) :
    selection.conjunction ∈
      (selections.foldl materialise model).constraints := by
  have support :
      selection.conjunction.id ∈
        (selections.foldl materialise model).supports := by
    by_contra absent
    exact apart
      (mem_primitives_of_foldl_materialise
        (mem_primitives.2
          ⟨conjunction_id_mem_foldl_materialise member composite, absent⟩))
  rcases List.mem_map.1 support with ⟨constraint, stored, same⟩
  have rows := lone constraint stored same
  have equal : constraint = selection.conjunction := by
    cases constraint
    cases same
    cases rows
    rfl
  exact equal ▸ stored

/-- A query keeps the rows of the model. -/
theorem mem_inequalities_asked
    {selections : List Selection}
    {active : Option PeriodVariable}
    {row : Inequality}
    (member : row ∈ model.inequalities) :
    row ∈ (model.asked selections active).inequalities := by
  rw [mem_inequalities] at member ⊢
  rcases member with ⟨constraint, stored, link⟩ | ⟨id, assumed, same⟩
  · refine Or.inl ⟨constraint, ?_, link⟩
    rw [asked, constraints_pin]
    exact (growsTo_foldl_materialise selections model).constraints.subset
      stored
  · refine Or.inr ⟨id, mem_assumed_pin.2 (Or.inl ?_), same⟩
    rwa [assumed_foldl_materialise]

/-- Consistent values extend to a new support. -/
theorem exists_extension
    (wellFormed : model.WellFormed)
    {value : String → Int}
    (binary : ∀ id, value id = 0 ∨ value id = 1)
    (consistent : model.Consistent value)
    (known : ∀ id ∈ selection.ids, id ∈ model.ids) :
    ∃ extended : String → Int,
      (∀ id, extended id = 0 ∨ extended id = 1) ∧
      (model.materialise selection).Consistent extended ∧
      ∀ id ∈ model.ids, extended id = value id := by
  simp only [materialise]
  split
  · exact ⟨value, binary, consistent, fun _ _ => rfl⟩
  · rename_i fresh
    simp only [Bool.or_eq_true, decide_eq_true_eq, not_or] at fresh
    have same :
        ∀ id ∈ model.ids,
          Function.update value selection.conjunction.id
              (if selection.conjunction.row.Holds value then 1 else 0) id =
            value id := by
      intro id member
      apply Function.update_of_ne
      rintro rfl
      exact fresh.2 member
    refine ⟨_, ?_, ?_, same⟩
    · intro id
      by_cases here : id = selection.conjunction.id
      · subst here
        rw [Function.update_self]
        split
        · exact Or.inr rfl
        · exact Or.inl rfl
      · rw [Function.update_of_ne here]
        exact binary id
    · intro constraint member
      rcases List.mem_append.1 member with old | new
      · rw [Constraint.agrees_congr
            (same _ (wellFormed.supports_known constraint old))
            fun operand mentioned =>
              same operand (wellFormed.operand_known old mentioned)]
        exact consistent constraint old
      · rw [List.mem_singleton.1 new]
        have operands : ∀ operand ∈ selection.conjunction.operands, _ = _ :=
          fun operand mentioned =>
            same operand
              (known operand
                (Selection.mem_operands_conjunction.1 mentioned))
        simp only [Constraint.Agrees]
        rw [Inequality.holds_congr operands, Function.update_self]
        split
        · rename_i holds
          exact ⟨fun _ => holds, fun _ => rfl⟩
        · rename_i violated
          exact ⟨fun impossible => by omega,
            fun holds => absurd holds violated⟩

theorem exists_extension_all
    {selections : List Selection}
    (wellFormed : model.WellFormed)
    {value : String → Int}
    (binary : ∀ id, value id = 0 ∨ value id = 1)
    (consistent : model.Consistent value)
    (known :
      ∀ selection ∈ selections, ∀ id ∈ selection.ids, id ∈ model.ids) :
    ∃ extended : String → Int,
      (∀ id, extended id = 0 ∨ extended id = 1) ∧
      (selections.foldl materialise model).Consistent extended ∧
      ∀ id ∈ model.ids, extended id = value id := by
  induction selections generalizing model value with
  | nil => exact ⟨value, binary, consistent, fun _ _ => rfl⟩
  | cons selection rest ih =>
      have here := known selection List.mem_cons_self
      obtain ⟨next, nextBinary, nextConsistent, same⟩ :=
        exists_extension wellFormed binary consistent here
      have growth := growsTo_materialise model selection
      obtain ⟨extended, extendedBinary, extendedConsistent, kept⟩ :=
        ih (wellFormed.materialise here) nextBinary nextConsistent
          fun other member id listed => OrderedSet.mem_of_extends growth.ids
            (known other (List.mem_cons_of_mem _ member) id listed)
      refine ⟨extended, extendedBinary, extendedConsistent, ?_⟩
      intro id member
      rw [kept id (OrderedSet.mem_of_extends growth.ids member),
        same id member]

theorem WellFormed.foldl_materialise
    {selections : List Selection}
    (wellFormed : model.WellFormed)
    (known :
      ∀ selection ∈ selections, ∀ id ∈ selection.ids, id ∈ model.ids) :
    (selections.foldl Model.materialise model).WellFormed := by
  induction selections generalizing model with
  | nil => exact wellFormed
  | cons selection rest ih =>
      have growth := growsTo_materialise model selection
      exact ih (wellFormed.materialise (known selection List.mem_cons_self))
        fun other member id listed => OrderedSet.mem_of_extends growth.ids
          (known other (List.mem_cons_of_mem _ member) id listed)

theorem WellFormed.asked
    {selections : List Selection}
    {active : Option PeriodVariable}
    (wellFormed : model.WellFormed)
    (known : ∀ selection ∈ selections, ∀ id ∈ selection.ids, id ∈ model.ids)
    (activeKnown :
      ∀ period ∈ active,
        period.id ∈ (selections.foldl Model.materialise model).ids) :
    (model.asked selections active).WellFormed :=
  (wellFormed.foldl_materialise known).pin activeKnown

end Logic.Model

/-! ## Rows of queries -/

namespace Ruleset

/--
A selection either adds nothing, or a column and the two links of its
conjunction.
-/
theorem materialise_eq_ok
    {named grown : NamedPolyhedron}
    {selection : Selection}
    (materialised : materialise named selection = .ok grown) :
    (!selection.isComposite || selection.conjunction.id ∈ named.ids) =
      true ∧
    grown = named ∨
    ¬ (!selection.isComposite || selection.conjunction.id ∈ named.ids) =
      true ∧
    grown.ids = named.ids.insert selection.conjunction.id ∧
    named.polyhedron.widen.appendAll selection.conjunction.links grown.ids =
      .ok grown.polyhedron := by
  simp only [materialise] at materialised
  split at materialised
  · rename_i present
    cases materialised
    exact Or.inl ⟨present, rfl⟩
  · rename_i absent
    simp only [bind_eq_ok_iff, faulting_eq_ok_iff] at materialised
    rcases materialised with ⟨links, linked, polyhedron, appended, finished⟩
    cases finished
    rw [Constraint.linkingRows_eq_ok linked] at appended
    exact Or.inr ⟨absent, rfl, appended⟩

/--
Pinning adds the row that requires the located period, or nothing without
periods.
-/
theorem pin_eq_ok
    {ruleset : Ruleset}
    {named grown : NamedPolyhedron}
    {time : Instant}
    (pinned : ruleset.pin named time = .ok grown) :
    ruleset.periods = [] ∧ grown = named ∨
    ∃ active,
      ruleset.activePeriod? (some time) = some active ∧
      grown.ids = named.ids ∧
      named.polyhedron.appendInequality (Inequality.require active.id)
          named.ids =
        .ok grown.polyhedron := by
  simp only [pin] at pinned
  split at pinned
  · rename_i empty
    cases pinned
    exact Or.inl ⟨List.isEmpty_iff.1 empty, rfl⟩
  · split at pinned
    · cases pinned
    · rename_i active found
      simp only [bind_eq_ok_iff] at pinned
      rcases pinned with ⟨polyhedron, appended, finished⟩
      cases finished
      exact Or.inr ⟨active, found, rfl, appended⟩

theorem activePeriod?_of_nil
    {ruleset : Ruleset}
    (none : ruleset.periods = [])
    (time : Option Instant) :
    ruleset.activePeriod? time = Option.none := by
  cases time with
  | none => rfl
  | some instant =>
      simp only [activePeriod?]
      rw [none]
      rfl

end Ruleset

/--
The columns are the variables of the model, and the rows are its
inequalities.
-/
structure NamedPolyhedron.Describes
    (named : NamedPolyhedron)
    (model : Model) :
    Prop where
  /-- The columns are the variables. -/
  ids_eq : named.ids = model.ids
  /-- The rows are the inequalities, in whatever order. -/
  rows : ∃ rows, named.polyhedron.Represents model.ids rows ∧
    ∀ row, row ∈ rows ↔ row ∈ model.inequalities

namespace NamedPolyhedron.Describes

variable {named grown : NamedPolyhedron} {model : Model}

theorem materialise
    (describes : named.Describes model)
    {selection : Selection}
    (materialised : Ruleset.materialise named selection = .ok grown) :
    grown.Describes (model.materialise selection) := by
  rcases describes.rows with ⟨rows, represents, listed⟩
  simp only [Model.materialise]
  rcases Ruleset.materialise_eq_ok materialised with
    ⟨present, rfl⟩ | ⟨absent, idsEq, appended⟩
  · rw [describes.ids_eq] at present
    rw [if_pos present]
    exact describes
  · rw [idsEq, describes.ids_eq] at appended
    rw [describes.ids_eq] at absent idsEq
    rw [if_neg absent]
    simp only [Bool.or_eq_true, decide_eq_true_eq, not_or] at absent
    refine ⟨idsEq, _, (represents.widen absent.2).appendAll appended, ?_⟩
    intro row
    rw [List.mem_append, listed, Model.mem_inequalities,
      Model.mem_inequalities]
    simp only [List.mem_append, List.mem_singleton, or_and_right, exists_or,
      exists_eq_left]
    exact or_right_comm

theorem foldlM_materialise
    {selections : List Selection}
    (describes : named.Describes model)
    (materialised :
      selections.foldlM Ruleset.materialise named = .ok grown) :
    grown.Describes (selections.foldl Model.materialise model) := by
  induction selections generalizing named model with
  | nil =>
      cases materialised
      exact describes
  | cons selection rest ih =>
      rw [List.foldlM_cons, bind_eq_ok_iff] at materialised
      rcases materialised with ⟨next, here, later⟩
      exact ih (describes.materialise here) later

theorem pin
    (describes : named.Describes model)
    {ruleset : Ruleset}
    {time : Instant}
    (pinned : ruleset.pin named time = .ok grown) :
    grown.Describes (model.pin (ruleset.activePeriod? (some time))) ∧
    ∀ period ∈ ruleset.activePeriod? (some time),
      period.id ∈ model.ids := by
  rcases describes.rows with ⟨rows, represents, listed⟩
  rcases Ruleset.pin_eq_ok pinned with
    ⟨none, rfl⟩ | ⟨active, located, idsEq, appended⟩
  · rw [Ruleset.activePeriod?_of_nil none]
    exact ⟨describes, fun _ member => nomatch member⟩
  · rw [describes.ids_eq] at appended
    have extended := represents.append appended
    have known : active.id ∈ model.ids := by
      apply extended.known (Inequality.require active.id)
      · exact List.mem_append_right _ List.mem_cons_self
      · exact List.mem_cons_self
    rw [located]
    refine ⟨⟨idsEq.trans describes.ids_eq, _, extended, ?_⟩, ?_⟩
    · intro row
      rw [List.mem_append, listed, List.mem_singleton,
        Model.mem_inequalities, Model.mem_inequalities]
      show _ ↔
        (∃ constraint ∈ model.constraints, row ∈ constraint.links) ∨ _
      simp only [Model.mem_assumed_pin, Option.mem_def, Option.some.injEq,
        or_and_right, exists_or, or_assoc]
      simp [eq_comm]
    · rintro period ⟨⟩
      exact known

end NamedPolyhedron.Describes

end Configurator
