import Configurator.Proofs.Collection.Lookup
import Configurator.Proofs.Collection.Precedence
import Configurator.Proofs.Schedule.Tiling
import Configurator.Schedule.Atoms
import Configurator.Text.Decimal
import Mathlib.Logic.ExistsUnique

/-!
# Groups of atomic periods

A group lists exactly the indices of the atoms with the ids of its key, and
every atom with an active id is in the group of its active ids.  A key is a
list of ids in the order of the first bounds that cover the atom.  So the
atoms with one set of active ids are one group as long as the bounds of each
id stand together; a bound of another id between them can give that set two
keys.
-/

namespace Configurator.Schedule

open Configurator.Calendar Configurator.Collection

/-- Different indices have different period names. -/
theorem periodName_injective : Function.Injective periodName := by
  intro left right same
  have listed := congrArg String.toList same
  have digits : Text.decimalDigits left = Text.decimalDigits right := by
    simpa [periodName, Text.decimalDigits] using listed
  have values := congrArg Text.digitsValue digits
  rwa [Text.digitsValue_decimalDigits, Text.digitsValue_decimalDigits]
    at values

/-! ## Active ids -/

/-- The id has a bound that covers the atom. -/
def ActiveIn
    (bounds : List TimeBound)
    (atom : Period)
    (id : String) :
    Prop :=
  ∃ bound ∈ bounds, bound.period.Covers atom ∧ bound.id = id

instance
    (bounds : List TimeBound)
    (atom : Period)
    (id : String) :
    Decidable (ActiveIn bounds atom id) :=
  inferInstanceAs
    (Decidable (∃ bound ∈ bounds, bound.period.Covers atom ∧ bound.id = id))

theorem mem_activeIds
    {bounds : List TimeBound}
    {atom : Period}
    {id : String} :
    id ∈ activeIds bounds atom ↔ ActiveIn bounds atom id := by
  simp only [activeIds, ActiveIn]
  refine OrderedSet.mem_ofList.trans ?_
  simp only [List.mem_map, List.mem_filter, decide_eq_true_eq, and_assoc]

theorem activeIds_ne_nil_iff
    {bounds : List TimeBound}
    {atom : Period} :
    activeIds bounds atom ≠ [] ↔ ∃ id, ActiveIn bounds atom id := by
  rw [ne_eq, List.eq_nil_iff_forall_not_mem, not_forall_not]
  exact exists_congr fun _ => mem_activeIds

/-! ## Atoms by the ids of their key -/

/--
The indices of the listed atoms with the given active ids, as they are
listed.
-/
def indicesOf
    (bounds : List TimeBound)
    (indexed : List (Period × Nat))
    (active : List String) :
    List Nat :=
  (indexed.filter fun entry => activeIds bounds entry.1 = active).map
    Prod.snd

/--
Each key other than the empty one has the indices of its atoms, if it has
atoms.
-/
def Collects
    (bounds : List TimeBound)
    (indexed : List (Period × Nat))
    (groups : OrderedMap (List String) (List Nat)) :
    Prop :=
  ∀ active indices, groups.get? active = some indices ↔
    active ≠ [] ∧ indices ≠ [] ∧ indices = indicesOf bounds indexed active

variable {bounds : List TimeBound} {grown : List (Period × Nat)}
  {groups : OrderedMap (List String) (List Nat)}

theorem indicesOf_concat
    (entry : Period × Nat)
    (active : List String) :
    indicesOf bounds (grown ++ [entry]) active =
      indicesOf bounds grown active ++
        if activeIds bounds entry.1 = active then [entry.2] else [] := by
  simp only [indicesOf, List.filter_append, List.map_append]
  by_cases here : activeIds bounds entry.1 = active
  · simp [here]
  · simp [here]

/-- What a key has so far is what one more index is put behind. -/
theorem Collects.getD_eq
    (collects : Collects bounds grown groups)
    {active : List String}
    (inhabited : active ≠ []) :
    (groups.get? active).getD [] = indicesOf bounds grown active := by
  cases found : groups.get? active with
  | some indices => exact ((collects active indices).1 found).2.2
  | none =>
      by_cases empty : indicesOf bounds grown active = []
      · exact empty.symm
      · have present := (collects active _).2 ⟨inhabited, empty, rfl⟩
        cases found.symm.trans present

/-- One more atom goes to the group of its active ids, if it has any. -/
theorem Collects.addToGroup
    (collects : Collects bounds grown groups)
    (entry : Period × Nat) :
    Collects bounds (grown ++ [entry])
      (addToGroup bounds groups entry) := by
  intro active indices
  rw [indicesOf_concat, Schedule.addToGroup]
  by_cases inactive : activeIds bounds entry.1 = []
  · rw [if_pos (by rw [inactive]; rfl), collects active indices, inactive]
    refine and_congr_right fun inhabited => ?_
    rw [if_neg inhabited.symm, List.append_nil]
  · rw [if_neg (by simpa using inactive), OrderedMap.get?_insert]
    by_cases here : active = activeIds bounds entry.1
    · subst here
      rw [if_pos rfl, if_pos rfl, collects.getD_eq inactive,
        Option.some.injEq]
      constructor
      · rintro rfl
        exact ⟨inactive, by simp, rfl⟩
      · exact fun listed => listed.2.2.symm
    · rw [if_neg here, collects active indices, if_neg (Ne.symm here),
        List.append_nil]

theorem Collects.foldl
    (collects : Collects bounds grown groups)
    (later : List (Period × Nat)) :
    Collects bounds (grown ++ later)
      (later.foldl (Schedule.addToGroup bounds) groups) := by
  induction later generalizing grown groups with
  | nil => simpa using collects
  | cons first rest ih => simpa using ih (collects.addToGroup first)

variable {pieces : List Period} {active : List String} {index : Nat}

/--
The groups are the active ids of some atoms, with the indices of all such
atoms.
-/
theorem mem_entries_groupByActive
    {indices : List Nat} :
    (active, indices) ∈ (groupByActive pieces bounds).entries ↔
      active ≠ [] ∧
      indices ≠ [] ∧
      indices = indicesOf bounds pieces.zipIdx active := by
  have start : Collects bounds [] ∅ := fun active indices => by
    simp only [OrderedMap.get?_empty, indicesOf, List.filter_nil,
      List.map_nil]
    constructor
    · exact fun impossible => nomatch impossible
    · exact fun listed => absurd listed.2.2 listed.2.1
  rw [OrderedMap.mem_entries]
  exact start.foldl pieces.zipIdx active indices

theorem mem_indicesOf :
    index ∈ indicesOf bounds pieces.zipIdx active ↔
      ∃ atom,
        pieces[index]? = some atom ∧ activeIds bounds atom = active := by
  simp only [indicesOf, List.mem_map, List.mem_filter, decide_eq_true_eq]
  constructor
  · rintro ⟨⟨atom, _⟩, ⟨member, same⟩, rfl⟩
    exact ⟨atom, List.mk_mem_zipIdx_iff_getElem?.1 member, same⟩
  · rintro ⟨atom, here, same⟩
    exact ⟨(atom, index), ⟨List.mk_mem_zipIdx_iff_getElem?.2 here, same⟩,
      rfl⟩

theorem ascending_indicesOf :
    (indicesOf bounds pieces.zipIdx active).Pairwise (· < ·) := by
  have positions : (pieces.zipIdx.map Prod.snd).Pairwise (· < ·) := by
    rw [List.zipIdx_map_snd]
    exact List.pairwise_lt_range'
  exact positions.sublist (List.filter_sublist.map Prod.snd)

/--
The index of an atom is in a group exactly if the active ids of the atom are
its key.
-/
theorem mem_groupByActive :
    (∃ indices,
      (active, indices) ∈ (groupByActive pieces bounds).entries ∧
      index ∈ indices) ↔
      active ≠ [] ∧
      ∃ atom,
        pieces[index]? = some atom ∧ activeIds bounds atom = active := by
  simp only [mem_entries_groupByActive, ← mem_indicesOf]
  constructor
  · rintro ⟨indices, ⟨inhabited, _, rfl⟩, member⟩
    exact ⟨inhabited, member⟩
  · rintro ⟨inhabited, member⟩
    exact ⟨_, ⟨inhabited, List.ne_nil_of_mem member, rfl⟩, member⟩

/-! ## Groups by the set of active ids -/

/-- A group has both indices. -/
def SameGroup
    (pieces : List Period)
    (bounds : List TimeBound)
    (first second : Nat) :
    Prop :=
  ∃ group ∈ (groupByActive pieces bounds).entries,
    first ∈ group.2 ∧ second ∈ group.2

instance
    (pieces : List Period)
    (bounds : List TimeBound)
    (first second : Nat) :
    Decidable (SameGroup pieces bounds first second) :=
  inferInstanceAs
    (Decidable
      (∃ group ∈ (groupByActive pieces bounds).entries,
        first ∈ group.2 ∧ second ∈ group.2))

/-- An atom with an active id is in the group of its active ids. -/
theorem mem_own_group
    {atom : Period}
    (here : pieces[index]? = some atom)
    (active : ∃ id, ActiveIn bounds atom id) :
    (activeIds bounds atom,
      indicesOf bounds pieces.zipIdx (activeIds bounds atom)) ∈
      (groupByActive pieces bounds).entries ∧
    index ∈ indicesOf bounds pieces.zipIdx (activeIds bounds atom) := by
  have member :
      index ∈ indicesOf bounds pieces.zipIdx (activeIds bounds atom) :=
    mem_indicesOf.2 ⟨atom, here, rfl⟩
  exact ⟨mem_entries_groupByActive.2
    ⟨activeIds_ne_nil_iff.2 active, List.ne_nil_of_mem member, rfl⟩, member⟩

/--
Two atoms share a group if the same ids are active in them and come in the
same order.
-/
theorem sameGroup_iff
    {first second : Nat}
    {firstAtom secondAtom : Period}
    (firstHere : pieces[first]? = some firstAtom)
    (secondHere : pieces[second]? = some secondAtom) :
    SameGroup pieces bounds first second ↔
      activeIds bounds firstAtom = activeIds bounds secondAtom ∧
      ∃ id, ActiveIn bounds firstAtom id := by
  constructor
  · rintro ⟨⟨key, indices⟩, entry, firstMember, secondMember⟩
    obtain ⟨inhabited, _, rfl⟩ := mem_entries_groupByActive.1 entry
    obtain ⟨_, found, rfl⟩ := mem_indicesOf.1 firstMember
    cases firstHere.symm.trans found
    obtain ⟨_, found, same⟩ := mem_indicesOf.1 secondMember
    cases secondHere.symm.trans found
    exact ⟨same.symm, activeIds_ne_nil_iff.1 inhabited⟩
  · rintro ⟨same, active⟩
    obtain ⟨entry, firstMember⟩ := mem_own_group firstHere active
    exact ⟨_, entry, firstMember,
      mem_indicesOf.2 ⟨secondAtom, secondHere, same.symm⟩⟩

/--
Where the bounds of one id stand together, the active ids of an atom have
one order.
-/
theorem activeIds_eq_iff
    (together : OrderedSet.Together (bounds.map TimeBound.id))
    {firstAtom secondAtom : Period} :
    activeIds bounds firstAtom = activeIds bounds secondAtom ↔
      ∀ id,
        ActiveIn bounds firstAtom id ↔ ActiveIn bounds secondAtom id := by
  have listed :
      ∀ (atom : Period) (id : String),
        id ∈
            (bounds.filter fun bound => bound.period.Covers atom).map
              TimeBound.id ↔
          ActiveIn bounds atom id :=
    fun _ _ =>
    OrderedSet.mem_ofList.symm.trans mem_activeIds
  constructor
  · intro same id
    exact mem_activeIds.symm.trans
      ((iff_of_eq (congrArg (id ∈ ·) same)).trans mem_activeIds)
  · intro same
    refine congrArg OrderedSet.toList
      (OrderedSet.ofList_eq_of_sublists together
        (List.filter_sublist.map TimeBound.id)
        (List.filter_sublist.map TimeBound.id) ?_)
    exact fun id =>
      (listed firstAtom id).trans
        ((same id).trans (listed secondAtom id).symm)

/-- An atom with an active id is in one group. -/
theorem existsUnique_group
    {atom : Period}
    (here : pieces[index]? = some atom)
    (active : ∃ id, ActiveIn bounds atom id) :
    ∃! group,
      group ∈ (groupByActive pieces bounds).entries ∧ index ∈ group.2 := by
  refine ⟨_, mem_own_group here active, ?_⟩
  rintro ⟨key, indices⟩ ⟨entry, member⟩
  obtain ⟨_, _, rfl⟩ := mem_entries_groupByActive.1 entry
  obtain ⟨_, found, rfl⟩ := mem_indicesOf.1 member
  cases here.symm.trans found
  rfl

/--
A group has ascending indices, and its key lists what is active in each of
its atoms once.
-/
theorem group_sound
    {group : List String × List Nat}
    (entry : group ∈ (groupByActive pieces bounds).entries) :
    group.1.Nodup ∧
    group.2.Pairwise (· < ·) ∧
    ∀ index ∈ group.2, ∃ atom,
      pieces[index]? = some atom ∧
      ∀ id, id ∈ group.1 ↔ ActiveIn bounds atom id := by
  obtain ⟨key, indices⟩ := group
  obtain ⟨_, inhabited, rfl⟩ := mem_entries_groupByActive.1 entry
  obtain ⟨index, member⟩ := List.exists_mem_of_ne_nil _ inhabited
  obtain ⟨_, _, rfl⟩ := mem_indicesOf.1 member
  refine ⟨OrderedSet.nodup _, ascending_indicesOf, fun index member => ?_⟩
  obtain ⟨atom, here, same⟩ := mem_indicesOf.1 member
  exact ⟨atom, here, fun id => same ▸ mem_activeIds⟩

/--
Atoms are grouped by their active ids.  Two atoms share a group exactly if
some id is active in the one and both list the same active ids in the same
order, which is the order of the first bounds that cover them.  So where the
bounds of one id stand together, it suffices that the same ids are active in
both.  An atom with an active id is in one group.  A group has ascending
indices, and its key lists exactly the ids that are active in each of its
atoms, each of them once.
-/
theorem groupByActive_by_ids
    (pieces : List Period)
    (bounds : List TimeBound) :
    (∀ first second firstAtom secondAtom,
      pieces[first]? = some firstAtom →
      pieces[second]? = some secondAtom →
      (SameGroup pieces bounds first second ↔
        activeIds bounds firstAtom = activeIds bounds secondAtom ∧
        ∃ id, ActiveIn bounds firstAtom id) ∧
      (OrderedSet.Together (bounds.map TimeBound.id) →
        (SameGroup pieces bounds first second ↔
          (∀ id,
            ActiveIn bounds firstAtom id ↔ ActiveIn bounds secondAtom id) ∧
          ∃ id, ActiveIn bounds firstAtom id))) ∧
    (∀ index atom,
      pieces[index]? = some atom →
      (∃ id, ActiveIn bounds atom id) →
      ∃! group,
        group ∈ (groupByActive pieces bounds).entries ∧ index ∈ group.2) ∧
    ∀ group ∈ (groupByActive pieces bounds).entries,
      group.1.Nodup ∧
      group.2.Pairwise (· < ·) ∧
      ∀ index ∈ group.2, ∃ atom,
        pieces[index]? = some atom ∧
        ∀ id, id ∈ group.1 ↔ ActiveIn bounds atom id := by
  refine ⟨fun first second firstAtom secondAtom firstHere secondHere =>
    ⟨?_, fun together => ?_⟩, fun _ _ => existsUnique_group,
    fun _ => group_sound⟩
  · exact sameGroup_iff firstHere secondHere
  · rw [sameGroup_iff firstHere secondHere, activeIds_eq_iff together]

/-- Two bounds of one id, and one of another id that overlaps them both. -/
def repeatedBounds : List TimeBound :=
  [⟨"a", minutesOf 0 20⟩, ⟨"a", minutesOf 40 59⟩, ⟨"b", minutesOf 10 50⟩]

/-- The second and the fourth of the pieces are in the group of both ids. -/
theorem groupByActive_by_ids_repeated :
    let pieces := atoms (minutesOf 0 59) repeatedBounds
    pieces.length = 5 ∧
    OrderedSet.Together (repeatedBounds.map TimeBound.id) ∧
    SameGroup pieces repeatedBounds 1 3 ∧
    ¬ SameGroup pieces repeatedBounds 1 2 ∧
    ∃! group,
      group ∈ (groupByActive pieces repeatedBounds).entries ∧
      3 ∈ group.2 := by
  intro pieces
  have apart := groupByActive_by_ids pieces repeatedBounds
  have together :
      OrderedSet.Together (repeatedBounds.map TimeBound.id) := by
    decide
  have second : pieces[1]? = some (minutesOf 10 20) := by decide
  have third : pieces[2]? = some (minutesOf 20 40) := by decide
  have fourth : pieces[3]? = some (minutesOf 40 50) := by decide
  have active : ActiveIn repeatedBounds (minutesOf 40 50) "b" := by decide
  have same : activeIds repeatedBounds (minutesOf 10 20) =
      activeIds repeatedBounds (minutesOf 40 50) := by decide
  refine ⟨by decide, together,
    ((apart.1 1 3 _ _ second fourth).2 together).2 ⟨?_, ?_⟩, ?_,
    apart.2.1 3 _ fourth ⟨"b", active⟩⟩
  · exact (activeIds_eq_iff together).1 same
  · exact ⟨"b", by decide⟩
  · intro same
    have both := (((apart.1 1 2 _ _ second third).2 together).1 same).1 "a"
    exact absurd both (by decide)

/-- Bounds of one id with a bound of another id between them. -/
def interleavedBounds : List TimeBound :=
  [⟨"x", minutesOf 0 10⟩, ⟨"y", minutesOf 0 20⟩, ⟨"x", minutesOf 10 20⟩]

/--
Both pieces have the two ids active in them, and they are in different
groups.
-/
theorem groupByActive_splits_set :
    let pieces := atoms (minutesOf 0 20) interleavedBounds
    ∃ first second,
      pieces[0]? = some first ∧
      pieces[1]? = some second ∧
      (∀ id,
        ActiveIn interleavedBounds first id ↔
          ActiveIn interleavedBounds second id) ∧
      (∃ id, ActiveIn interleavedBounds first id) ∧
      ¬ SameGroup pieces interleavedBounds 0 1 := by
  intro pieces
  have former :
      activeIds interleavedBounds (minutesOf 0 10) = ["x", "y"] := by
    decide
  have latter :
      activeIds interleavedBounds (minutesOf 10 20) = ["y", "x"] := by
    decide
  refine ⟨minutesOf 0 10, minutesOf 10 20, by decide, by decide,
    fun id => ?_, ⟨"x", by decide⟩, by decide⟩
  refine mem_activeIds.symm.trans (Iff.trans ?_ mem_activeIds)
  rw [former, latter]
  exact (List.Perm.swap "y" "x" []).mem_iff

end Configurator.Schedule
