/-!
# Sets that remember the order of insertion

An `OrderedSet` lists its members in the order of their first insertion.
The list is the data and a proof field rules out repetitions, so two sets
are equal exactly when they hold the same members in the same order.
-/

namespace Configurator.Collection

/-- Distinct members in the order of their first insertion. -/
structure OrderedSet (α : Type u) where
  /-- The members in order. -/
  toList : List α
  /-- No member occurs twice. -/
  nodup : toList.Nodup

namespace OrderedSet

variable {α : Type u}

@[ext]
theorem ext
    {left right : OrderedSet α}
    (equality : left.toList = right.toList) :
    left = right := by
  cases left
  cases right
  cases equality
  rfl

instance [DecidableEq α] : DecidableEq (OrderedSet α) := fun left right =>
  decidable_of_iff (left.toList = right.toList)
    ⟨OrderedSet.ext, fun equality => equality ▸ rfl⟩

/-- The set without members. -/
def empty : OrderedSet α :=
  ⟨[], List.nodup_nil⟩

instance : EmptyCollection (OrderedSet α) :=
  ⟨empty⟩

instance : Membership α (OrderedSet α) :=
  ⟨fun members member => member ∈ members.toList⟩

instance
    [DecidableEq α]
    (member : α)
    (members : OrderedSet α) :
    Decidable (member ∈ members) :=
  inferInstanceAs (Decidable (member ∈ members.toList))

theorem mem_iff
    {member : α}
    {members : OrderedSet α} :
    member ∈ members ↔ member ∈ members.toList :=
  Iff.rfl

@[simp]
theorem toList_empty : (∅ : OrderedSet α).toList = [] :=
  rfl

@[simp]
theorem not_mem_empty (member : α) : ¬ member ∈ (∅ : OrderedSet α) := by
  simp [mem_iff]

/-- The number of members. -/
def size (members : OrderedSet α) : Nat :=
  members.toList.length

variable [DecidableEq α]

/-- Put a member at the end, unless it is there already. -/
def insert (members : OrderedSet α) (member : α) : OrderedSet α :=
  if absent : member ∈ members.toList then
    members
  else
    ⟨members.toList ++ [member], by
      rw [List.nodup_append]
      refine ⟨members.nodup, by simp, ?_⟩
      intro old oldMember new newMember
      rw [List.mem_singleton] at newMember
      subst newMember
      intro equality
      exact absent (equality ▸ oldMember)⟩

theorem toList_insert
    (members : OrderedSet α)
    (member : α) :
    (members.insert member).toList =
      if member ∈ members then members.toList
      else members.toList ++ [member] := by
  by_cases present : member ∈ members.toList
  · simp [insert, mem_iff, present]
  · simp [insert, mem_iff, present]

@[simp]
theorem mem_insert
    {members : OrderedSet α}
    {inserted member : α} :
    member ∈ members.insert inserted ↔
      member ∈ members ∨ member = inserted := by
  simp only [mem_iff, toList_insert]
  split
  · constructor
    · exact Or.inl
    · rintro (old | rfl)
      · exact old
      · assumption
  · simp

/-- Insert the new members one after another. -/
def append (members : OrderedSet α) (newMembers : List α) : OrderedSet α :=
  newMembers.foldl insert members

@[simp]
theorem mem_append
    {members : OrderedSet α}
    {newMembers : List α}
    {member : α} :
    member ∈ members.append newMembers ↔
      member ∈ members ∨ member ∈ newMembers := by
  induction newMembers generalizing members with
  | nil => simp [append]
  | cons first rest ih =>
      have step :
          members.append (first :: rest) =
            (members.insert first).append rest :=
        rfl
      rw [step, ih, mem_insert, List.mem_cons, or_assoc]

/-- The set of the listed members, first occurrences deciding the order. -/
def ofList (members : List α) : OrderedSet α :=
  (∅ : OrderedSet α).append members

@[simp]
theorem mem_ofList
    {members : List α}
    {member : α} :
    member ∈ ofList members ↔ member ∈ members := by
  simp [ofList]

/-- The position of a member, if it is one. -/
def indexOf? (members : OrderedSet α) (member : α) : Option Nat :=
  members.toList.idxOf? member

end OrderedSet

end Configurator.Collection
