import Configurator.Proofs.Request.Reduction

/-!
# The last word on an id

As long as only selections without other ids name an id, the last one of
them decides about it, and reduction does not change the decision: the last
selection of the id survives, and if it cancels out then it is a removal,
just like what an id without selections amounts to.
-/

namespace Configurator.Request

/-- The last selection of the id is an addition. -/
def AddedLast (selections : List Selection) (id : String) : Prop :=
  ∃ last,
    (selections.filter fun selection => selection.id = id).getLast? =
      some last ∧
    last.action = .add

instance
    (selections : List Selection)
    (id : String) :
    Decidable (AddedLast selections id) :=
  inferInstanceAs (Decidable (∃ last ∈ (selections.filter fun selection =>
    selection.id = id).getLast?, last.action = .add))

/-- The id is named by selections without other ids only. -/
def NamedAlone (selections : List Selection) (id : String) : Prop :=
  ∀ selection ∈ selections,
    id ∈ selection.ids → ¬ selection.isComposite = true

variable {selections : List Selection} {id : String}

/-- What makes a selection of the id redundant is a selection of the id. -/
theorem NamedAlone.id_eq_of_makesRedundant
    (alone : NamedAlone selections id)
    {selection other : Selection}
    (member : selection ∈ selections)
    (otherMember : other ∈ selections)
    (same : other.id = id)
    (redundant : selection.makesRedundant other = true) :
    selection.id = id := by
  have named : id ∈ other.ids := same ▸ other.id_mem_ids
  have single := alone other otherMember named
  have subset := (Selection.makesRedundant_iff_subset
    fun _ => Bool.not_eq_true _ ▸ single).1 redundant
  exact ((Selection.mem_ids_single
           (alone selection member (subset named))).1 (subset named)).symm

/-- The last selection of the id survives. -/
theorem getLast?_filter_survivors
    (alone : NamedAlone selections id) :
    (((survivors selections).map Kept.selection).filter fun selection =>
      selection.id = id).getLast? =
      (selections.filter fun selection => selection.id = id).getLast? := by
  induction selections with
  | nil => rfl
  | cons first rest ih =>
      have later := ih fun selection member =>
        alone selection (List.mem_cons_of_mem _ member)
      rw [survivors_cons, selections_consider]
      by_cases here : first.id = id
      · rw [List.filter_cons_of_pos (by simpa using here),
          List.getLast?_cons, ← later]
        split
        · rename_i redundant
          -- something behind the first selection makes it redundant, so it
          -- is not the last one
          obtain ⟨kept, member, covers⟩ := List.any_eq_true.1 redundant
          have same :=
            alone.id_eq_of_makesRedundant
              (List.mem_cons_of_mem _
                ((survivors_sublist rest).subset member)) List.mem_cons_self
              here covers
          have listed : kept ∈ ((survivors rest).map Kept.selection).filter
              fun selection => selection.id = id :=
            List.mem_filter.2 ⟨member, decide_eq_true same⟩
          rw [List.getLast?_eq_some_getLast (List.ne_nil_of_mem listed)]
          rfl
        · rw [List.filter_cons_of_pos (by simpa using here),
            List.getLast?_cons]
      · rw [List.filter_cons_of_neg (by simpa using here), ← later]
        split
        · rfl
        · rw [List.filter_cons_of_neg (by simpa using here)]

/--
Reduction does not change whether the last selection of the id is an
addition.
-/
theorem addedLast_reduceWith
    (isProtected : Selection → Bool)
    (alone : NamedAlone selections id) :
    AddedLast (reduceWith isProtected selections) id ↔
      AddedLast selections id := by
  have last := getLast?_filter_survivors alone
  rw [← cancelled_append_reduceWith isProtected, List.filter_append,
    List.getLast?_append] at last
  simp only [AddedLast, ← last]
  cases left : ((reduceWith isProtected selections).filter fun selection =>
      selection.id = id).getLast? with
  | some selection => rfl
  | none =>
      constructor
      · rintro ⟨_, impossible, _⟩
        cases impossible
      · rintro ⟨selection, found, addition⟩
        -- only removals cancel out
        obtain ⟨kept, cancelled, rfl⟩ :=
          List.mem_map.1 (List.mem_filter.1 (List.mem_of_getLast? found)).1
        have removal :=
          (Kept.cancels_iff.1 (List.mem_takeWhile_imp cancelled)).1
        cases addition.symm.trans removal

end Configurator.Request
