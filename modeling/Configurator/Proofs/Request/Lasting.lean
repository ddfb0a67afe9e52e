import Configurator.Proofs.Request.Positions

/-!
# Selections that last

Where no removal is composite, a selection is redundant exactly if another
one names all of its ids.  This relation is transitive, so it does not
matter whether the other one is kept itself: the survivors of a reduction
are the selections whose ids no later one has all of.  Of these a reduction
drops the leading removals that take back what was asked for before.
-/

namespace Configurator.Request

/-- Two selections name the same ids. -/
def SameIds (left right : Selection) : Prop :=
  left.ids ⊆ right.ids ∧ right.ids ⊆ left.ids

instance (left right : Selection) : Decidable (SameIds left right) :=
  inferInstanceAs (Decidable (left.ids ⊆ right.ids ∧ right.ids ⊆ left.ids))

/--
The positions of the selections whose ids no later selection has all of.
-/
def lasting (selections : List Selection) : List (Fin selections.length) :=
  (List.finRange selections.length).filter fun position =>
    ∀ later,
      position < later → ¬ selections[position].ids ⊆ selections[later].ids

/--
There is an unprotected removal at the position, and an earlier selection of
the same ids.
-/
def TakesBack
    (isProtected : Selection → Bool)
    (selections : List Selection)
    (position : Fin selections.length) :
    Prop :=
  selections[position].action = .remove ∧
  isProtected selections[position] = false ∧
  ∃ earlier,
    earlier < position ∧ SameIds selections[earlier] selections[position]

instance
    (isProtected : Selection → Bool)
    (selections : List Selection)
    (position : Fin selections.length) :
    Decidable (TakesBack isProtected selections position) :=
  inferInstanceAs
    (Decidable
      (selections[position].action = .remove ∧
        isProtected selections[position] = false ∧
        ∃ earlier,
          earlier < position ∧
          SameIds selections[earlier] selections[position]))

variable {selections : List Selection} {isProtected : Selection → Bool}

/-! ## Positions -/

/-- The first selection lasts unless a later one has all of its ids. -/
theorem lasting_cons
    (first : Selection)
    (rest : List Selection) :
    lasting (first :: rest) =
      (if ∃ later ∈ rest, first.ids ⊆ later.ids then [] else [0]) ++
        (lasting rest).map Fin.succ := by
  have here :
      (∀ later : Fin (rest.length + 1),
        0 < later →
        ¬ (first :: rest)[(0 : Fin (rest.length + 1))].ids ⊆
          (first :: rest)[later].ids) ↔
        ¬ ∃ later ∈ rest, first.ids ⊆ later.ids := by
    rw [Fin.forall_fin_succ]
    simp only [Fin.lt_irrefl, false_implies, true_and, Fin.succ_pos,
      true_implies]
    constructor
    · rintro none ⟨later, member, subset⟩
      obtain ⟨position, rfl⟩ := List.mem_iff_get.1 member
      exact none position subset
    · intro none position subset
      exact none ⟨_, List.get_mem rest position, subset⟩
  have there :
      ∀ position : Fin rest.length,
        (∀ later : Fin (rest.length + 1),
          position.succ < later →
          ¬ (first :: rest)[position.succ].ids ⊆
            (first :: rest)[later].ids) ↔
          ∀ later,
            position < later → ¬ rest[position].ids ⊆ rest[later].ids := by
    intro position
    rw [Fin.forall_fin_succ]
    simp only [Fin.not_lt_zero, false_implies, true_and,
      Fin.succ_lt_succ_iff]
    rfl
  have others : ((List.finRange rest.length).filter fun position =>
      decide
        (∀ later : Fin (rest.length + 1),
          position.succ < later →
          ¬ (first :: rest)[position.succ].ids ⊆
            (first :: rest)[later].ids)) = lasting rest :=
    List.filter_congr fun position _ => decide_eq_decide.2 (there position)
  show (List.finRange (rest.length + 1)).filter
      (fun position =>
        decide
          (∀ later,
            position < later →
            ¬ (first :: rest)[position].ids ⊆ (first :: rest)[later].ids)) =
    _
  rw [List.finRange_succ, List.filter_cons, List.filter_map]
  simp only [Function.comp_def]
  rw [others]
  by_cases covered : ∃ later ∈ rest, first.ids ⊆ later.ids
  · rw [if_pos covered,
      if_neg fun lasts => here.1 (of_decide_eq_true lasts) covered]
    rfl
  · rw [if_neg covered, if_pos (decide_eq_true (here.2 covered))]
    rfl

/-! ## Survivors -/

section PlainRemovals

variable (plain : ∀ selection ∈ selections,
  selection.action = .remove → selection.isComposite = false)

include plain

/-- The selections that last are those that survive. -/
theorem survivingPositions_eq_lasting :
    survivingPositions selections = lasting selections := by
  induction selections with
  | nil => rfl
  | cons first rest ih =>
      have restPlain := fun selection member =>
        plain selection (List.mem_cons_of_mem _ member)
      have firstPlain := plain first List.mem_cons_self
      have covered :
          (((survivors rest).map Kept.selection).any fun selection =>
              selection.makesRedundant first) = true ↔
                ∃ later ∈ rest, first.ids ⊆ later.ids := by
            rw [List.any_eq_true]
            constructor
            · rintro ⟨kept, member, redundant⟩
              exact ⟨kept, (survivors_sublist rest).subset member,
                (Selection.makesRedundant_iff_subset firstPlain).1
                  redundant⟩
            · rintro ⟨later, member, subset⟩
              -- a survivor names all ids of the later selection, and so
              -- those of the first one
              rcases exists_survivor member with ⟨kept, known, redundant⟩
              have wider :=
                (Selection.makesRedundant_iff_subset
                  (restPlain later member)).1 redundant
              exact ⟨kept, known,
                (Selection.makesRedundant_iff_subset firstPlain).2
                  (List.Subset.trans subset wider)⟩
      rw [survivingPositions, lasting_cons, ih restPlain]
      congr 1
      exact if_congr covered rfl rfl

/--
The survivors are the selections that last, and each of them takes note of
the earlier selections that it makes redundant.
-/
theorem survivors_eq_lasting :
    survivors selections =
      (lasting selections).map (keptAt selections) := by
  rw [survivors_eq_map_keptAt, survivingPositions_eq_lasting plain]

/--
A survivor cancels out exactly if it takes back what was asked for before.
-/
theorem cancels_keptAt_iff
    (position : Fin selections.length) :
    (keptAt selections position).cancels isProtected = true ↔
      TakesBack isProtected selections position := by
  have known :
      ∀ place : Fin selections.length, selections[place] ∈ selections :=
    fun place => List.getElem_mem place.isLt
  rw [Kept.cancels_iff]
  simp only [keptAt, TakesBack, decide_eq_true_eq]
  refine and_congr_right fun removal => ?_
  rw [and_comm]
  refine and_congr_right fun _ =>
    exists_congr fun earlier => and_congr_right fun _ => ?_
  have single : ¬ selections[position].isComposite = true := by
    rw [plain _ (known position) removal]
    exact Bool.false_ne_true
  show selections[position].makesRedundant selections[earlier] = true ↔ _
  rw [Selection.makesRedundant_iff_subset (plain _ (known earlier)),
    SameIds]
  constructor
  · intro subset
    refine ⟨subset, fun id member => ?_⟩
    -- both selections name the one id of the removal and no other
    have own :=
      (Selection.mem_ids_single single).1 (subset (Selection.id_mem_ids _))
    rw [(Selection.mem_ids_single single).1 member, ← own]
    exact Selection.id_mem_ids _
  · exact And.left

end PlainRemovals

/--
What reduction keeps, where no removal is composite.  Of the selections
whose ids no later one has all of, reduction drops the longest prefix of
unprotected removals that take back an earlier selection of the same ids,
and keeps all others.  If no selection is composite, those are the last ones
of each id.
-/
theorem reduceWith_eq_lasting
    (isProtected : Selection → Bool)
    (selections : List Selection)
    (plain :
      ∀ selection ∈ selections,
        selection.action = .remove → selection.isComposite = false) :
    reduceWith isProtected selections =
      ((lasting selections).dropWhile fun position =>
        TakesBack isProtected selections position).map
        (fun position => selections[position]) ∧
    ((∀ selection ∈ selections, selection.isComposite = false) →
      lasting selections =
        (List.finRange selections.length).filter fun position =>
          ∀ later,
            position < later →
            selections[later].id ≠ selections[position].id) := by
  constructor
  · have cancels :
        Kept.cancels isProtected ∘ keptAt selections =
          fun position =>
            decide (TakesBack isProtected selections position) := by
      funext position
      rw [Function.comp_apply, Bool.eq_iff_iff, decide_eq_true_eq]
      exact cancels_keptAt_iff plain position
    rw [reduceWith, survivors_eq_lasting plain, List.dropWhile_map, cancels,
      List.map_map]
    rfl
  · intro single
    refine List.filter_congr fun position _ => decide_eq_decide.2 ?_
    refine forall_congr' fun later => imp_congr_right fun _ => not_congr ?_
    have lone :
        ∀ place : Fin selections.length,
          ¬ selections[place].isComposite = true := by
      intro place
      rw [single selections[place] (List.getElem_mem place.isLt)]
      exact Bool.false_ne_true
    constructor
    · intro subset
      exact ((Selection.mem_ids_single (lone later)).1
        (subset (Selection.id_mem_ids _))).symm
    · intro same id member
      rw [(Selection.mem_ids_single (lone position)).1 member, ← same]
      exact Selection.id_mem_ids _

/-- Two removals that take something back, and an addition between them. -/
def revisedSelections : List Selection :=
  [⟨"b", [], .add⟩, ⟨"b", [], .remove⟩, ⟨"x", [], .add⟩,
    ⟨"c", ["x", "y"], .add⟩, ⟨"d", [], .add⟩, ⟨"d", [], .remove⟩]

/--
The leading removal is dropped unless it is protected, the other one is
kept.
-/
theorem reduceWith_eq_lasting_revised :
    (lasting revisedSelections).map Fin.val = [1, 3, 5] ∧
    reduceWith (fun _ => false) revisedSelections =
      [⟨"c", ["x", "y"], .add⟩, ⟨"d", [], .remove⟩] ∧
    reduceWith (fun selection => selection.id == "b") revisedSelections =
      [⟨"b", [], .remove⟩, ⟨"c", ["x", "y"], .add⟩,
        ⟨"d", [], .remove⟩] := by
  have kept := fun isProtected =>
    (reduceWith_eq_lasting isProtected revisedSelections (by decide)).1
  rw [kept, kept]
  decide

end Configurator.Request
