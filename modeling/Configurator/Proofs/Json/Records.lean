import Configurator.Json.Record

/-!
# Records that are written in full

The members of a record that is written in full have the names of its
fields, in their order.  Every field then has the value of its member.
-/

namespace Configurator.Json

/-- A member with a name of its own is the value of this name. -/
theorem member?_of_mem
    {members : List (String × Value)}
    {name : String}
    {value : Value}
    (nodup : (members.map Prod.fst).Nodup)
    (member : (name, value) ∈ members) :
    member? members name = some (some value) := by
  have single :
      members.filter (fun entry => entry.1 = name) = [(name, value)] := by
    induction members with
    | nil => cases member
    | cons entry rest ih =>
        rw [List.map_cons, List.nodup_cons] at nodup
        rcases List.mem_cons.1 member with rfl | later
        · have others : ∀ other ∈ rest, ¬ other.1 = name := by
            intro other otherMember same
            have repeated : other.1 ∈ rest.map Prod.fst :=
              List.mem_map_of_mem otherMember
            exact nodup.1 (same ▸ repeated)
          simpa [List.filter_cons, List.filter_eq_nil_iff] using others
        · have different : ¬ entry.1 = name := by
            intro same
            have repeated : name ∈ rest.map Prod.fst :=
              List.mem_map_of_mem later
            exact nodup.1 (same ▸ repeated)
          rw [List.filter_cons_of_neg (by simpa using different)]
          exact ih nodup.2 later
  rw [member?, single]

/--
Every field of a record that is written in full has the value of its member.
-/
theorem slots?_object
    {fields : List Field}
    {members : List (String × Value)}
    (named : members.map Prod.fst = fields.map Field.name)
    (nodup : (fields.map Field.name).Nodup) :
    slots? fields (.object members) =
      some (members.map fun member => some member.2) := by
  have distinct : (members.map Prod.fst).Nodup := named ▸ nodup
  have steps :
      ∀ (fields : List Field) (written : List (String × Value)),
        (∀ member ∈ written, member ∈ members) →
        written.map Prod.fst = fields.map Field.name →
        fields.mapM (slotOfMembers members) =
          some (written.map fun member => some member.2) := by
    intro fields
    induction fields with
    | nil =>
        intro written _ named
        rw [List.map_eq_nil_iff.1 named]
        rfl
    | cons field rest ih =>
        intro written listed named
        cases written with
        | nil => cases named
        | cons member others =>
            rw [List.forall_mem_cons] at listed
            rw [List.map_cons, List.map_cons, List.cons.injEq] at named
            have found :
                member? members field.name = some (some member.2) :=
              named.1 ▸ member?_of_mem distinct listed.1
            have slot :
                slotOfMembers members field = some (some member.2) := by
              simp only [slotOfMembers, found]
            rw [List.mapM_cons, slot, ih others listed.2 named.2]
            rfl
  exact steps fields members (fun _ member => member) named

/--
The values of required fields are those of the members that are written for
them.
-/
theorem required?_object
    {names : List String}
    {members : List (String × Value)}
    (named : members.map Prod.fst = names)
    (nodup : names.Nodup) :
    required? names (.object members) = some (members.map Prod.snd) := by
  have fields :
      (names.map fun name => Field.mk name .required).map Field.name =
        names := by
    rw [List.map_map]
    exact List.map_id _
  have slots :=
    slots?_object (named.trans fields.symm) (fields.symm ▸ nodup)
  have present : (members.map fun member => some member.2).mapM id =
      some (members.map Prod.snd) := by
    clear named slots
    induction members with
    | nil => rfl
    | cons member others ih =>
        rw [List.map_cons, List.mapM_cons, ih]
        rfl
  rw [required?, slots]
  exact present

end Configurator.Json
