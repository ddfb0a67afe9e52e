import Configurator.Collection.OrderedSet
import Mathlib.Data.List.Perm.Basic

/-!
# The order of the members of a set

An ordered set grows at its end.  So whatever precedes a member when the
member is inserted precedes it ever after, and the set of some listed
members has them in the order of their first occurrences.
-/

namespace Configurator.Collection.OrderedSet

variable {α : Type} {members grown : OrderedSet α} {first second : α}

/-- The first member is listed before the second one. -/
def Precedes (members : OrderedSet α) (first second : α) : Prop :=
  ∃ earlier later,
    members.toList = earlier ++ second :: later ∧ first ∈ earlier

theorem Precedes.mem
    (precedes : members.Precedes first second) :
    first ∈ members := by
  rcases precedes with ⟨earlier, later, listed, member⟩
  rw [mem_iff, listed]
  exact List.mem_append_left _ member

/-- Members keep their order when more members come after them. -/
theorem Precedes.extend
    (precedes : members.Precedes first second)
    (extended : members.toList <+: grown.toList) :
    grown.Precedes first second := by
  rcases precedes with ⟨earlier, later, listed, before⟩
  rcases extended with ⟨newer, whole⟩
  exact ⟨earlier, later ++ newer, by simp [← whole, listed], before⟩

/-- Of two members at most one precedes the other. -/
theorem Precedes.asymm
    (forward : members.Precedes first second) :
    ¬ members.Precedes second first := by
  rintro ⟨otherEarlier, otherLater, otherListed, otherBefore⟩
  rcases forward with ⟨earlier, later, listed, before⟩
  have nodup := members.nodup
  rw [listed] at otherListed nodup
  rw [List.nodup_append] at nodup
  rcases nodup with ⟨_, secondNodup, apart⟩
  -- what is listed before the first member is shorter and yet contains the
  -- second one
  rcases List.append_eq_append_iff.1 otherListed with
    ⟨gap, beforeEq, restEq⟩ | ⟨gap, beforeEq, restEq⟩
  · have later : first ∈ second :: later := by
      cases gap with
      | nil =>
          simp only [List.nil_append, List.cons.injEq] at restEq
          exact List.mem_cons.2 (Or.inl restEq.1.symm)
      | cons head tail =>
          simp only [List.cons_append, List.cons.injEq] at restEq
          rw [restEq.2]
          simp
    exact apart first before first later rfl
  · have before : second ∈ earlier := by
      rw [beforeEq]
      exact List.mem_append_left _ otherBefore
    exact apart second before second List.mem_cons_self rfl

theorem Precedes.ne
    (precedes : members.Precedes first second) :
    first ≠ second := by
  intro equality
  subst equality
  exact precedes.asymm precedes

theorem mem_of_extends
    (extended : members.toList <+: grown.toList)
    (member : first ∈ members) :
    first ∈ grown :=
  extended.subset member

/-! ## The order of first occurrences -/

variable [DecidableEq α]

theorem extends_insert
    (members : OrderedSet α)
    (member : α) :
    members.toList <+: (members.insert member).toList := by
  rw [toList_insert]
  split
  · exact List.prefix_rfl
  · exact List.prefix_append _ _

/-- Appending puts those new members at the end that are not there yet. -/
theorem toList_append_eq_filter
    (members : OrderedSet α)
    (added : List α) :
    (members.append added).toList =
      members.toList ++
        (ofList added).toList.filter fun member => member ∉ members := by
  induction added generalizing members with
  | nil => exact (List.append_nil _).symm
  | cons first rest ih =>
      have step :
          members.append (first :: rest) =
            (members.insert first).append rest :=
        rfl
      have alone :
          ofList (first :: rest) =
            ((∅ : OrderedSet α).insert first).append rest :=
        rfl
      rw [step, alone, ih, ih, toList_insert, toList_insert,
        if_neg (not_mem_empty first), toList_empty, List.nil_append,
        List.singleton_append, List.filter_cons, List.filter_filter]
      by_cases present : first ∈ members
      · rw [if_pos present, if_neg (by simpa using present)]
        congr 1
        refine List.filter_congr fun member _ => ?_
        simp only [mem_insert, not_mem_empty, false_or]
        by_cases same : member = first
        · simp [same, present]
        · simp [same]
      · rw [if_neg present, if_pos (by simpa using present),
          List.append_assoc, List.singleton_append]
        congr 2
        refine List.filter_congr fun member _ => ?_
        simp only [mem_insert, not_mem_empty, false_or, not_or,
          Bool.decide_and]

/-- The first member comes first, and is left out of the others. -/
theorem toList_ofList_cons
    (first : α)
    (rest : List α) :
    (ofList (first :: rest)).toList =
      first ::
        (ofList rest).toList.filter fun member => member ≠ first := by
  have step :
      ofList (first :: rest) =
        ((∅ : OrderedSet α).insert first).append rest :=
    rfl
  rw [step, toList_append_eq_filter, toList_insert,
    if_neg (not_mem_empty first), toList_empty, List.nil_append,
    List.singleton_append]
  simp only [mem_insert, not_mem_empty, false_or]

/-! ## Occurrences that stand together -/

/-- Nothing else is listed between two occurrences of one member. -/
def Together (listed : List α) : Prop :=
  ∀ member ∈ listed, ∀ between ∈ listed,
    [member, between, member].Sublist listed → between = member

instance (listed : List α) : Decidable (Together listed) :=
  inferInstanceAs (Decidable (∀ member ∈ listed, ∀ between ∈ listed,
    [member, between, member].Sublist listed → between = member))

omit [DecidableEq α] in
theorem Together.eq_of_sublist
    {listed : List α}
    (together : Together listed)
    {member between : α}
    (sublist : [member, between, member].Sublist listed) :
    between = member :=
  together member (sublist.subset (by simp)) between
    (sublist.subset (by simp)) sublist

/--
Where occurrences stand together, leaving some out changes the order of no
two members.
-/
theorem sublist_toList_ofList
    {kept listed : List α}
    (together : Together listed)
    (sublist : kept.Sublist listed) :
    (ofList kept).toList.Sublist (ofList listed).toList := by
  induction sublist with
  | slnil => exact List.Sublist.refl _
  | @cons kept rest first shorter ih =>
      have smaller : Together rest := fun member _ between _ within =>
        together.eq_of_sublist (within.cons first)
      have others := (ih smaller).filter fun member => member ≠ first
      rw [toList_ofList_cons]
      by_cases present : first ∈ kept
      · cases kept with
        | nil => cases present
        | cons head tail =>
            -- the member left out occurs again, so it is the next one that
            -- is kept
            have next : head = first := by
              rcases List.mem_cons.1 present with same | later
              · exact same.symm
              · refine together.eq_of_sublist
                  (List.Sublist.cons_cons first ?_)
                exact ((List.singleton_sublist.2 later).cons_cons
                        head).trans shorter
            subst next
            rw [toList_ofList_cons] at others ⊢
            simpa using others
      · rw [List.filter_eq_self.2] at others
        · exact others.cons first
        · intro member old
          have among : member ∈ kept := mem_ofList.1 old
          exact decide_eq_true fun same => present (same ▸ among)
  | @cons_cons kept rest first shorter ih =>
      have smaller : Together rest := fun member _ between _ within =>
        together.eq_of_sublist (within.cons first)
      rw [toList_ofList_cons, toList_ofList_cons]
      exact ((ih smaller).filter _).cons_cons first

/--
Where occurrences stand together, equal sets of listed members have equal
orders.
-/
theorem ofList_eq_of_sublists
    {left right listed : List α}
    (together : Together listed)
    (leftSublist : left.Sublist listed)
    (rightSublist : right.Sublist listed)
    (same : ∀ member, member ∈ left ↔ member ∈ right) :
    ofList left = ofList right := by
  refine OrderedSet.ext
    ((List.Nodup.perm_iff_eq_of_sublist (ofList listed).nodup
       (sublist_toList_ofList together leftSublist)
       (sublist_toList_ofList together rightSublist)).1 ?_)
  refine (List.perm_ext_iff_of_nodup (ofList left).nodup
           (ofList right).nodup).2 fun member => ?_
  exact mem_ofList.trans ((same member).trans mem_ofList.symm)

/-! ## Members that are listed once -/

/-- New members that are all different come last. -/
private theorem toList_append
    (members : OrderedSet α)
    {added : List α}
    (nodup : (members.toList ++ added).Nodup) :
    (members.append added).toList = members.toList ++ added := by
  induction added generalizing members with
  | nil => exact (List.append_nil _).symm
  | cons first rest ih =>
      have absent : first ∉ members := fun present =>
        (List.nodup_append.1 nodup).2.2 first present first
          List.mem_cons_self rfl
      have inserted :
          (members.insert first).toList = members.toList ++ [first] := by
        rw [toList_insert, if_neg absent]
      have step :
          members.append (first :: rest) =
            (members.insert first).append rest :=
        rfl
      rw [step, ih, inserted, List.append_assoc]
      · rfl
      · rw [inserted, List.append_assoc]
        exact nodup

/-- A set is the set of its members in their order. -/
theorem ofList_toList
    (members : OrderedSet α) :
    ofList members.toList = members :=
  OrderedSet.ext (toList_append ∅ members.nodup)

/-- What precedes a member has the smaller position. -/
theorem Precedes.idxOf_lt
    (precedes : members.Precedes first second) :
    members.toList.idxOf first < members.toList.idxOf second := by
  rcases precedes with ⟨earlier, later, listed, before⟩
  have nodup := members.nodup
  rw [listed] at nodup ⊢
  have absent : second ∉ earlier := fun repeated =>
    (List.nodup_append.1 nodup).2.2 second repeated second
      List.mem_cons_self rfl
  rw [List.idxOf_append, List.idxOf_append, if_pos before, if_neg absent,
    List.idxOf_cons_self, Nat.zero_add]
  exact List.idxOf_lt_length_iff.2 before

/-- A new member comes after all old ones. -/
theorem precedes_insert
    (old : first ∈ members)
    (absent : second ∉ members) :
    (members.insert second).Precedes first second := by
  refine ⟨members.toList, [], ?_, old⟩
  rw [toList_insert, if_neg absent]

end Configurator.Collection.OrderedSet
