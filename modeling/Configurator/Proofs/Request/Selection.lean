import Configurator.Request.Selection

/-!
# Selections by their ids

A selection names its id and the others, each once.  A selection makes
another one redundant if it names all of its ids; only a removal of several
ids can be redundant for any other reason.
-/

namespace Configurator.Request.Selection

open Configurator.Collection

variable {selection other : Selection} {id : String}

theorem ids_nodup (selection : Selection) : selection.ids.Nodup :=
  (OrderedSet.ofList (selection.id :: selection.others)).nodup

theorem mem_ids :
    id ∈ selection.ids ↔ id = selection.id ∨ id ∈ selection.others := by
  simp only [ids]
  exact OrderedSet.mem_ofList.trans List.mem_cons

theorem id_mem_ids (selection : Selection) : selection.id ∈ selection.ids :=
  mem_ids.2 (Or.inl rfl)

theorem mem_ids_single
    (single : ¬ selection.isComposite = true) :
    id ∈ selection.ids ↔ id = selection.id := by
  have none : selection.others = [] := by
    simpa [isComposite] using single
  rw [mem_ids, none]
  simp

theorem column_composite
    (composite : selection.isComposite = true) :
    selection.column = selection.conjunction.id :=
  if_pos composite

theorem column_single
    (single : ¬ selection.isComposite = true) :
    selection.column = selection.id :=
  if_neg single

/-! ## Redundancy -/

/-- A selection makes those redundant all of whose ids it names. -/
theorem makesRedundant_of_subset
    (subset : ∀ id ∈ other.ids, id ∈ selection.ids) :
    selection.makesRedundant other = true := by
  simp only [makesRedundant]
  rw [Bool.or_eq_true, Bool.or_eq_true]
  refine Or.inl (Or.inl ?_)
  simpa using subset

theorem makesRedundant_self
    (selection : Selection) :
    selection.makesRedundant selection = true :=
  makesRedundant_of_subset fun _ member => member

/--
Unless it removes several ids, a selection is redundant only if all of its
ids are named.
-/
theorem makesRedundant_iff_subset
    (plain : other.action = .remove → other.isComposite = false) :
    selection.makesRedundant other = true ↔ other.ids ⊆ selection.ids := by
  constructor
  · intro redundant id member
    simp only [makesRedundant] at redundant
    rw [Bool.or_eq_true, Bool.or_eq_true] at redundant
    rcases redundant with (whole | removal) | sameId
    · exact of_decide_eq_true (List.all_eq_true.1 whole id member)
    · rw [Bool.and_eq_true, beq_iff_eq] at removal
      have none : other.others = [] := by
        simpa [isComposite] using plain removal.1
      rw [none] at removal
      exact absurd removal.2 Bool.false_ne_true
    · rw [Bool.and_eq_true, beq_iff_eq, Bool.or_eq_true, Bool.not_eq_true']
        at sameId
      rcases sameId with ⟨same, single | whole⟩
      · rw [mem_ids_single (by simp [single])] at member
        rw [member, ← same]
        exact selection.id_mem_ids
      · rcases mem_ids.1 member with rfl | named
        · rw [← same]
          exact selection.id_mem_ids
        · exact of_decide_eq_true (List.all_eq_true.1 whole id named)
  · exact makesRedundant_of_subset

end Configurator.Request.Selection
