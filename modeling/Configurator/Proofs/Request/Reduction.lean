import Configurator.Proofs.Request.Selection
import Configurator.Request.Reduction
import Mathlib.Data.List.TakeWhile

/-!
# What reduction leaves

The selections that survive a reduction keep their order, none of them makes
an earlier one redundant, and the last of them is the last one that was
given, unless all of them have cancelled out.  Then the last one was a
removal.  Every selection is redundant beside a survivor, and nothing more
happens to selections of which none makes an earlier one redundant.
-/

namespace Configurator.Request

/-- No selection makes an earlier one redundant. -/
def Irredundant (selections : List Selection) : Prop :=
  selections.Pairwise fun earlier later =>
    later.makesRedundant earlier = false

variable {selections : List Selection} {isProtected : Selection → Bool}

theorem Kept.shadow_eq
    (kept : Kept)
    (candidate : Selection) :
    kept.shadow candidate =
      ⟨kept.selection,
        kept.shadows || kept.selection.makesRedundant candidate⟩ := by
  simp only [Kept.shadow]
  split
  · rename_i redundant
    rw [redundant, Bool.or_true]
  · rename_i apart
    rw [Bool.not_eq_true] at apart
    rw [apart, Bool.or_false]

theorem Kept.cancels_iff
    {kept : Kept} :
    kept.cancels isProtected = true ↔
      kept.selection.action = .remove ∧
      kept.shadows = true ∧
      isProtected kept.selection = false := by
  simp only [Kept.cancels, Bool.and_eq_true, beq_iff_eq, Bool.not_eq_true',
    and_assoc]

/--
Whether or not a candidate is kept, the flags of the kept ones take note of
it.
-/
theorem consider_eq
    (candidate : Selection)
    (kept : List Kept) :
    consider candidate kept =
      (if (kept.map Kept.selection).any fun selection =>
          selection.makesRedundant candidate then []
      else [⟨candidate, false⟩]) ++
        kept.map fun entry => entry.shadow candidate := by
  rw [consider, List.any_map]
  show (if (kept.any fun entry =>
             entry.selection.makesRedundant candidate) =
           true then _
    else _) =
      (if (kept.any fun entry => entry.selection.makesRedundant candidate) =
        true
      then _ else _) ++ _
  split
  · rfl
  · rename_i fresh
    have same :
        kept.map (fun entry => entry.shadow candidate) = kept.map id := by
      apply List.map_congr_left
      intro entry member
      exact if_neg fun redundant =>
        fresh (List.any_eq_true.2 ⟨entry, member, redundant⟩)
    rw [same, List.map_id]
    rfl

theorem selections_consider
    (candidate : Selection)
    (kept : List Kept) :
    (consider candidate kept).map Kept.selection =
      if (kept.map Kept.selection).any fun selection =>
          selection.makesRedundant candidate then kept.map Kept.selection
      else candidate :: kept.map Kept.selection := by
  have same :
      (kept.map fun entry => entry.shadow candidate).map Kept.selection =
        kept.map Kept.selection := by
    rw [List.map_map]
    refine List.map_congr_left fun entry _ => ?_
    rw [Function.comp_apply, Kept.shadow_eq]
  rw [consider_eq, List.map_append, same]
  split
  · rfl
  · rfl

theorem survivors_cons
    (first : Selection)
    (rest : List Selection) :
    survivors (first :: rest) = consider first (survivors rest) :=
  rfl

theorem survivors_sublist
    (selections : List Selection) :
    ((survivors selections).map Kept.selection).Sublist selections := by
  induction selections with
  | nil => exact List.Sublist.refl _
  | cons first rest ih =>
      rw [survivors_cons, selections_consider]
      split
      · exact ih.cons first
      · exact ih.cons_cons first

theorem survivors_irredundant
    (selections : List Selection) :
    Irredundant ((survivors selections).map Kept.selection) := by
  induction selections with
  | nil => exact List.Pairwise.nil
  | cons first rest ih =>
      rw [survivors_cons, selections_consider]
      split
      · exact ih
      · rename_i kept
        rw [Bool.not_eq_true, List.any_eq_false] at kept
        refine List.pairwise_cons.2 ⟨?_, ih⟩
        intro later member
        exact Bool.not_eq_true _ ▸ kept later member

/-- Beside the survivors every selection is redundant. -/
theorem exists_survivor
    {selection : Selection}
    (member : selection ∈ selections) :
    ∃ kept ∈ (survivors selections).map Kept.selection,
      kept.makesRedundant selection = true := by
  induction selections with
  | nil => exact nomatch member
  | cons first rest ih =>
      have stays : ∀ kept ∈ (survivors rest).map Kept.selection,
          kept ∈ (survivors (first :: rest)).map Kept.selection := by
        intro kept known
        rw [survivors_cons, selections_consider]
        split
        · exact known
        · exact List.mem_cons_of_mem _ known
      rcases List.mem_cons.1 member with rfl | later
      · rw [survivors_cons, selections_consider]
        split
        · rename_i redundant
          exact List.any_eq_true.1 redundant
        · exact ⟨selection, List.mem_cons_self,
            selection.makesRedundant_self⟩
      · rcases ih later with ⟨kept, known, redundant⟩
        exact ⟨kept, stays kept known, redundant⟩

/--
Selections that make no earlier one redundant survive without shadows.
-/
theorem survivors_of_irredundant
    (irredundant : Irredundant selections) :
    survivors selections =
      selections.map fun selection => ⟨selection, false⟩ := by
  induction selections with
  | nil => rfl
  | cons first rest ih =>
      rcases List.pairwise_cons.1 irredundant with ⟨here, later⟩
      have kept :
          ¬ ((rest.map fun selection => Kept.mk selection false).any
              fun entry =>
                  entry.selection.makesRedundant first) = true := by
                rw [List.any_map, Bool.not_eq_true, List.any_eq_false]
                intro selection member
                exact Bool.not_eq_true _ ▸ here selection member
      rw [survivors_cons, ih later, consider, if_neg kept]
      rfl

theorem getLast?_survivors
    (selections : List Selection) :
    ((survivors selections).map Kept.selection).getLast? =
      selections.getLast? := by
  induction selections with
  | nil => rfl
  | cons first rest ih =>
      rw [survivors_cons, selections_consider]
      cases rest with
      | nil => rfl
      | cons second others =>
          have kept :
              (survivors (second :: others)).map Kept.selection ≠ [] := by
            intro empty
            rw [empty] at ih
            cases ih
          split
          · rw [ih, List.getLast?_cons_cons]
          · rw [List.getLast?_cons, ih]
            rfl

/--
The survivors are those that cancel out, and then those that are left.
-/
theorem cancelled_append_reduceWith
    (isProtected : Selection → Bool)
    (selections : List Selection) :
    ((survivors selections).takeWhile (Kept.cancels isProtected)).map
        Kept.selection ++ reduceWith isProtected selections =
      (survivors selections).map Kept.selection := by
  rw [reduceWith, ← List.map_append, List.takeWhile_append_dropWhile]

theorem reduceWith_suffix
    (isProtected : Selection → Bool)
    (selections : List Selection) :
    reduceWith isProtected selections <:+ (survivors selections).map
      Kept.selection :=
  ⟨_, cancelled_append_reduceWith isProtected selections⟩

theorem mem_of_mem_reduceWith
    {selection : Selection}
    (member : selection ∈ reduceWith isProtected selections) :
    selection ∈ selections :=
  (survivors_sublist selections).subset
    ((reduceWith_suffix _ _).subset member)

/-- Of the selections that are left none makes an earlier one redundant. -/
theorem reduceWith_irredundant
    (isProtected : Selection → Bool)
    (selections : List Selection) :
    Irredundant (reduceWith isProtected selections) :=
  (survivors_irredundant selections).sublist (reduceWith_suffix _ _).sublist

/-- If any selection is left, the last one is. -/
theorem getLast?_reduceWith
    (some : reduceWith isProtected selections ≠ []) :
    (reduceWith isProtected selections).getLast? = selections.getLast? := by
  rcases reduceWith_suffix isProtected selections with ⟨dropped, whole⟩
  rw [← getLast?_survivors selections, ← whole, List.getLast?_append,
    List.getLast?_eq_some_getLast some]
  rfl

/-- If no selection is left, the last one was a removal. -/
theorem remove_of_reduceWith_eq_nil
    (none : reduceWith isProtected selections = [])
    {last : Selection}
    (given : selections.getLast? = some last) :
    last.action = .remove := by
  rw [← getLast?_survivors] at given
  rcases List.mem_map.1 (List.mem_of_getLast? given) with
    ⟨kept, member, rfl⟩
  have cancelled :=
    List.dropWhile_eq_nil_iff.1 (List.map_eq_nil_iff.1 none) kept member
  exact (Kept.cancels_iff.1 cancelled).1

/--
Nothing is redundant and nothing cancels out where nothing shadows anything.
-/
theorem reduceWith_of_irredundant
    (isProtected : Selection → Bool)
    (irredundant : Irredundant selections) :
    reduceWith isProtected selections = selections := by
  rw [reduceWith, survivors_of_irredundant irredundant]
  cases selections with
  | nil => rfl
  | cons first rest =>
      have stays : ¬ Kept.cancels isProtected ⟨first, false⟩ = true := by
        simp [Kept.cancels]
      rw [List.map_cons, List.dropWhile_cons_of_neg stays, List.map_cons,
        List.map_map]
      show first :: rest.map id = _
      rw [List.map_id]

/--
What is not left is redundant beside something that is, or beside a removal
that is not.
-/
theorem redundant_of_reduceWith
    (isProtected : Selection → Bool)
    {selection : Selection}
    (member : selection ∈ selections) :
    (∃ kept ∈ reduceWith isProtected selections,
      kept.makesRedundant selection = true) ∨
    ∃ removal ∈ selections,
      removal.action = .remove ∧
      isProtected removal = false ∧
      removal.makesRedundant selection = true := by
  rcases exists_survivor member with ⟨_, known, redundant⟩
  have listed := (survivors_sublist selections).subset known
  rw [← cancelled_append_reduceWith isProtected] at known
  rcases List.mem_append.1 known with cancelled | left
  · rcases List.mem_map.1 cancelled with ⟨kept, dropped, rfl⟩
    obtain ⟨removal, _, unprotected⟩ :=
      Kept.cancels_iff.1 (List.mem_takeWhile_imp dropped)
    exact Or.inr ⟨kept.selection, listed, removal, unprotected, redundant⟩
  · exact Or.inl ⟨_, left, redundant⟩

/--
Reduction is a fixed point.  Reducing what is left changes nothing; what is
left keeps its order, and no selection in it makes an earlier one redundant.
Nothing is dropped without a reason: every selection is redundant beside one
that is left, or beside an unprotected removal.
-/
theorem reduceWith_fixed
    (isProtected : Selection → Bool)
    (selections : List Selection) :
    reduceWith isProtected (reduceWith isProtected selections) =
      reduceWith isProtected selections ∧
    (reduceWith isProtected selections).Sublist selections ∧
    ((reduceWith isProtected selections).Pairwise fun earlier later =>
      later.makesRedundant earlier = false) ∧
    ∀ selection ∈ selections,
      (∃ kept ∈ reduceWith isProtected selections,
        kept.makesRedundant selection = true) ∨
      ∃ removal ∈ selections,
        removal.action = .remove ∧
        isProtected removal = false ∧
        removal.makesRedundant selection = true := by
  have irredundant := reduceWith_irredundant isProtected selections
  have ordered : (reduceWith isProtected selections).Sublist selections :=
    (reduceWith_suffix isProtected selections).sublist.trans
      (survivors_sublist selections)
  exact ⟨reduceWith_of_irredundant isProtected irredundant, ordered,
    irredundant, fun _ member => redundant_of_reduceWith isProtected member⟩

end Configurator.Request
