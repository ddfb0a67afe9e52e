import Configurator.Proofs.Request.Reduction

/-!
# Positions of the selections that are kept

The same selection may be given twice, so it is positions that a reduction
keeps or drops.  A position survives unless a survivor behind it makes its
selection redundant, and every survivor knows whether it makes an earlier
selection redundant.  A reduction drops the leading survivors that cancel
out and lists the selections at the other ones.
-/

namespace Configurator.Request

variable {selections : List Selection} {isProtected : Selection → Bool}

/-- An earlier selection is one of the rest, or the first one. -/
theorem exists_earlier_succ_iff
    {first : Selection}
    {rest : List Selection}
    {position : Fin rest.length}
    {property : Selection → Prop} :
    (∃ earlier : Fin (rest.length + 1),
      earlier < position.succ ∧ property ((first :: rest).get earlier)) ↔
      property first ∨
      ∃ earlier, earlier < position ∧ property (rest.get earlier) := by
  rw [Fin.exists_fin_succ]
  simp only [Fin.succ_pos, true_and, Fin.succ_lt_succ_iff]
  rfl

/--
The selection at a position, and whether it makes an earlier one redundant.
-/
def keptAt
    (selections : List Selection)
    (position : Fin selections.length) :
    Kept :=
  ⟨selections.get position,
    decide
      (∃ earlier,
        earlier < position ∧
        (selections.get position).makesRedundant (selections.get earlier) =
          true)⟩

theorem keptAt_zero
    (first : Selection)
    (rest : List Selection) :
    keptAt (first :: rest) (0 : Fin (rest.length + 1)) =
      ⟨first, false⟩ := by
  have none : ¬ ∃ earlier : Fin (rest.length + 1), earlier < 0 ∧
      first.makesRedundant ((first :: rest).get earlier) = true :=
    fun ⟨earlier, before, _⟩ => Fin.not_lt_zero earlier before
  exact congrArg (Kept.mk first) (decide_eq_false none)

theorem keptAt_succ
    (first : Selection)
    (rest : List Selection)
    (position : Fin rest.length) :
    keptAt (first :: rest) position.succ =
      (keptAt rest position).shadow first := by
  have earlier :=
    @exists_earlier_succ_iff first rest position fun earlier =>
      (rest.get position).makesRedundant earlier = true
  rw [keptAt, keptAt, Kept.shadow_eq]
  refine congrArg (Kept.mk (rest.get position)) ?_
  rw [Bool.or_comm,
    ← Bool.decide_coe ((rest.get position).makesRedundant first),
    ← Bool.decide_or]
  exact decide_eq_decide.2 earlier

/-! ## Survivors -/

/--
The positions of the selections that no survivor behind them makes
redundant.
-/
def survivingPositions :
    (selections : List Selection) → List (Fin selections.length)
  | [] => []
  | first :: rest =>
      (if ((survivors rest).map Kept.selection).any fun selection =>
          selection.makesRedundant first then [] else [0]) ++
        (survivingPositions rest).map Fin.succ

/-- The survivors are the selections at the surviving positions. -/
theorem survivors_eq_map_keptAt
    (selections : List Selection) :
    survivors selections =
      (survivingPositions selections).map (keptAt selections) := by
  induction selections with
  | nil => rfl
  | cons first rest ih =>
      have noted :
          (survivors rest).map (fun entry => entry.shadow first) =
            ((survivingPositions rest).map Fin.succ).map
              (keptAt (first :: rest)) := by
        rw [ih, List.map_map, List.map_map]
        exact List.map_congr_left fun position _ =>
          (keptAt_succ first rest position).symm
      rw [survivors_cons, consider_eq, survivingPositions, List.map_append,
        noted]
      congr 1
      split
      · rfl
      · exact congrArg (fun entry => [entry]) (keptAt_zero first rest).symm

theorem ascending_survivingPositions
    (selections : List Selection) :
    (survivingPositions selections).Pairwise (· < ·) := by
  induction selections with
  | nil => exact List.Pairwise.nil
  | cons first rest ih =>
      have shifted :
          ((survivingPositions rest).map Fin.succ).Pairwise (· < ·) :=
        List.pairwise_map.2 (ih.imp Fin.succ_lt_succ_iff.2)
      rw [survivingPositions]
      split
      · exact shifted
      · refine List.pairwise_cons.2 ⟨?_, shifted⟩
        intro later member
        obtain ⟨position, _, rfl⟩ := List.mem_map.1 member
        exact Fin.succ_pos position

/--
A selection whose position does not survive is redundant beside a later one.
-/
theorem exists_later_of_notMem
    {position : Fin selections.length}
    (dropped : position ∉ survivingPositions selections) :
    ∃ later,
      position < later ∧
      (selections.get later).makesRedundant (selections.get position) =
        true := by
  induction selections with
  | nil => exact position.elim0
  | cons first rest ih =>
      rw [survivingPositions, List.mem_append, not_or] at dropped
      obtain ⟨notFirst, notLater⟩ := dropped
      cases position using Fin.cases with
      | zero =>
          split at notFirst
          · rename_i redundant
            obtain ⟨kept, member, covers⟩ := List.any_eq_true.1 redundant
            obtain ⟨later, rfl⟩ :=
              List.mem_iff_get.1 ((survivors_sublist rest).subset member)
            exact ⟨later.succ, Fin.succ_pos later, covers⟩
          · exact absurd List.mem_cons_self notFirst
      | succ position =>
          obtain ⟨later, behind, covers⟩ :=
            ih fun member => notLater (List.mem_map_of_mem member)
          exact ⟨later.succ, Fin.succ_lt_succ_iff.2 behind, covers⟩

/-! ## Reduction -/

/-- The positions of the selections that a reduction keeps. -/
def keptPositions
    (isProtected : Selection → Bool)
    (selections : List Selection) :
    List (Fin selections.length) :=
  (survivingPositions selections).dropWhile fun position =>
    (keptAt selections position).cancels isProtected

/-- A reduction lists the selections at the kept positions. -/
theorem reduceWith_eq_map_keptPositions
    (isProtected : Selection → Bool)
    (selections : List Selection) :
    reduceWith isProtected selections =
      (keptPositions isProtected selections).map fun position =>
        selections.get position := by
  rw [reduceWith, survivors_eq_map_keptAt, List.dropWhile_map, List.map_map]
  rfl

theorem ascending_keptPositions
    (isProtected : Selection → Bool)
    (selections : List Selection) :
    (keptPositions isProtected selections).Pairwise (· < ·) :=
  (ascending_survivingPositions selections).sublist
    (List.dropWhile_sublist _)

/-- Only removals cancel out, so a surviving addition is kept. -/
theorem mem_keptPositions_of_add
    {position : Fin selections.length}
    (survives : position ∈ survivingPositions selections)
    (addition : (selections.get position).action = .add) :
    position ∈ keptPositions isProtected selections := by
  rw [← List.takeWhile_append_dropWhile (p := fun position =>
      (keptAt selections position).cancels isProtected)
        (l := survivingPositions selections),
    List.mem_append] at survives
  rcases survives with cancelled | kept
  · have cancels := List.mem_takeWhile_imp cancelled
    cases addition.symm.trans (Kept.cancels_iff.1 cancels).1
  · exact kept

end Configurator.Request
