import Configurator.Proofs.Request.Positions
import Configurator.Proofs.Ruleset.Decoding

/-!
# Additions that are dropped

A selection settles another one if all values that honour it agree on
whether the ids of the other one hold.  An addition settles the selections
all of whose ids it has, a removal those that have all of its own ids, and
neither settles any others.  So a dropped addition has lost nothing if a
later addition has all of its ids, or a later removal has exactly its ids.
Beside a removal of more ids it could still have been met.
-/

namespace Configurator.Request

namespace Selection

variable {selection other : Selection}

/--
The 0/1 values that honour a selection agree on whether all ids of another
one hold.
-/
def Settles (selection other : Selection) : Prop :=
  ∀ left right : String → Int, (∀ id, left id = 0 ∨ left id = 1) →
    (∀ id, right id = 0 ∨ right id = 1) →
    selection.HonouredBy left → selection.HonouredBy right →
      ((∀ id ∈ other.ids, left id = 1) ↔ ∀ id ∈ other.ids, right id = 1)

/-- Everything holds but a single id. -/
def allBut (missing id : String) : Int :=
  if id = missing then 0 else 1

theorem allBut_binary
    (missing id : String) :
    allBut missing id = 0 ∨ allBut missing id = 1 := by
  simp only [allBut]
  split
  · exact Or.inl rfl
  · exact Or.inr rfl

theorem allBut_eq_one_iff
    {missing id : String} :
    allBut missing id = 1 ↔ id ≠ missing := by
  simp [allBut]

/--
All ids of a selection hold without an id exactly if the selection does not
name it.
-/
theorem forall_allBut_iff
    {missing : String} :
    (∀ id ∈ selection.ids, allBut missing id = 1) ↔
      missing ∉ selection.ids := by
  simp only [allBut_eq_one_iff]
  exact ⟨fun apart member => apart missing member rfl,
    fun absent id member same =>
      absent (same ▸ member)⟩

/--
An addition settles what has no further ids, a removal what has all of its
ids.
-/
theorem settles_iff :
    selection.Settles other ↔
      (selection.action = .add → other.ids ⊆ selection.ids) ∧
      (selection.action = .remove → selection.ids ⊆ other.ids) := by
  constructor
  · intro settles
    constructor
    · intro addition id member
      by_contra missing
      have agree :=
        settles (fun _ => 1) (allBut id) (fun _ => Or.inr rfl)
          (allBut_binary id) (honouredBy_iff.2 (by simp [addition]))
          (honouredBy_iff.2
            (by rw [forall_allBut_iff]; simp [addition, missing]))
      exact forall_allBut_iff.1 (agree.1 fun _ _ => rfl) member
    · intro removal id member
      by_contra missing
      -- nothing holds, or all that the other selection asks for does
      have agree :=
        settles (fun _ => 0) (allBut id) (fun _ => Or.inl rfl)
          (allBut_binary id) (honouredBy_iff.2 (by
            simp only [removal, reduceCtorEq, iff_false]
            exact fun held =>
              Int.zero_ne_one (held _ selection.id_mem_ids)))
        (honouredBy_iff.2
          (by rw [forall_allBut_iff]; simp [removal, member]))
      exact Int.zero_ne_one
        (agree.2 (forall_allBut_iff.2 missing) _ other.id_mem_ids)
  · rintro ⟨wider, narrower⟩ left right _ _ leftHonours rightHonours
    rw [honouredBy_iff] at leftHonours rightHonours
    cases asked : selection.action with
    | add =>
        simp only [asked, iff_true] at leftHonours rightHonours
        exact iff_of_true
          (fun id member => leftHonours id (wider asked member))
          fun id member => rightHonours id (wider asked member)
    | remove =>
        simp only [asked, reduceCtorEq, iff_false]
          at leftHonours rightHonours
        exact iff_of_false
          (fun held =>
            leftHonours fun id member => held id (narrower asked member))
          fun held =>
            rightHonours fun id member => held id (narrower asked member)

end Selection

/--
What becomes of dropped additions.  A reduction lists the selections at some
positions in their order.  An addition at any other position is redundant
beside a later selection.  A later selection that makes it redundant also
settles it, unless all later selections with all of its ids are removals
with further ids.
-/
theorem dropped_addition_settled
    (isProtected : Selection → Bool)
    (selections : List Selection) :
    reduceWith isProtected selections =
      (keptPositions isProtected selections).map
        (fun position => selections.get position) ∧
    (keptPositions isProtected selections).Pairwise (· < ·) ∧
    ∀ position ∉ keptPositions isProtected selections,
      (selections.get position).action = .add →
      (∃ later,
        position < later ∧
        (selections.get later).makesRedundant (selections.get position) =
          true) ∧
      ((∃ later,
         position < later ∧
         (selections.get later).makesRedundant (selections.get position) =
           true ∧
         (selections.get later).Settles (selections.get position)) ↔
        ¬ ∀ later,
          position < later →
          (selections.get position).ids ⊆ (selections.get later).ids →
          (selections.get later).action = .remove ∧
          ¬ (selections.get later).ids ⊆
            (selections.get position).ids) := by
  refine ⟨reduceWith_eq_map_keptPositions isProtected selections,
    ascending_keptPositions isProtected selections, ?_⟩
  intro position dropped addition
  have subset :
      ∀ later : Fin selections.length,
        (selections.get later).makesRedundant (selections.get position) =
            true ↔
          (selections.get position).ids ⊆ (selections.get later).ids :=
    fun later => Selection.makesRedundant_iff_subset fun removal =>
      nomatch addition.symm.trans removal
  constructor
  · exact exists_later_of_notMem fun survives =>
      dropped (mem_keptPositions_of_add survives addition)
  · simp only [subset]
    constructor
    · rintro ⟨later, behind, named, settles⟩ wide
      obtain ⟨removal, further⟩ := wide later behind named
      exact further ((Selection.settles_iff.1 settles).2 removal)
    · intro narrow
      simp only [not_forall, not_and, not_not] at narrow
      obtain ⟨later, behind, named, same⟩ := narrow
      exact ⟨later, behind, named,
        Selection.settles_iff.2 ⟨fun _ => named, same⟩⟩

/--
An id is added, removed together with another one, and added together with a
third.
-/
def widenedAddition : List Selection :=
  [⟨"a", [], .add⟩, ⟨"a", ["b"], .remove⟩, ⟨"a", ["c"], .add⟩]

/-- The last selection settles the first one, which the removal does not. -/
theorem dropped_addition_settled_widened :
    reduce widenedAddition = [⟨"a", ["c"], .add⟩] ∧
    ∃ later : Fin widenedAddition.length,
      0 < later.val ∧
      (widenedAddition.get later).makesRedundant ⟨"a", [], .add⟩ = true ∧
      (widenedAddition.get later).Settles ⟨"a", [], .add⟩ := by
  refine ⟨by decide, ?_⟩
  obtain ⟨_, _, settled⟩ :=
    dropped_addition_settled (fun _ => false) widenedAddition
  exact (settled ⟨0, by decide⟩ (by decide) rfl).2.2 (by decide)

/-- An id is added, and then removed together with another one. -/
def widenedRemoval : List Selection :=
  [⟨"a", [], .add⟩, ⟨"a", ["b"], .remove⟩]

/--
The addition is dropped although both selections can be honoured together.
-/
theorem reduce_drops_open_addition :
    reduce widenedRemoval = [] ∧
    (∀ selection ∈ widenedRemoval,
      selection.HonouredBy (Selection.allBut "b")) ∧
    ¬ ∃ later : Fin widenedRemoval.length,
      0 < later.val ∧
      (widenedRemoval.get later).makesRedundant ⟨"a", [], .add⟩ = true ∧
      (widenedRemoval.get later).Settles ⟨"a", [], .add⟩ := by
  refine ⟨by decide, by decide, ?_⟩
  rintro ⟨⟨later, bound⟩, behind, _, settles⟩
  obtain rfl : later = 1 := Nat.le_antisymm (Nat.le_of_lt_succ bound) behind
  have further :
      ¬ Selection.ids ⟨"a", ["b"], .remove⟩ ⊆
        Selection.ids ⟨"a", [], .add⟩ := by
    decide
  exact further ((Selection.settles_iff.1 settles).2 rfl)

end Configurator.Request
