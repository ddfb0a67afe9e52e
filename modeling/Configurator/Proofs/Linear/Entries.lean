import Configurator.Linear.Coefficients

/-!
# Forms by their entries

A form is made of any list of pairs, a later pair replacing the coefficient
of its id.  Every entry comes from one of the pairs, and a list of pairs
whose ids ascend is the list of entries of the form that is made of it.
-/

namespace Configurator.Linear.Coefficients

/-- An id behind all others gets the last entry. -/
private theorem put_last
    {id : String}
    {value : Int}
    {entries : List (String × Int)}
    (below : ∀ entry ∈ entries, entry.1 < id) :
    put id value entries = entries ++ [(id, value)] := by
  induction entries with
  | nil => rfl
  | cons entry rest ih =>
      rw [List.forall_mem_cons] at below
      have notLess : ¬ id < entry.1 := fun less => String.lt_irrefl _
        (String.lt_trans less below.1)
      have different : ¬ id = entry.1 := by
        intro same
        rw [same] at below
        exact String.lt_irrefl _ below.1
      rw [put, if_neg notLess, if_neg different, ih below.2]
      rfl

private theorem mem_put
    {id : String}
    {value : Int}
    {entries : List (String × Int)}
    {entry : String × Int}
    (member : entry ∈ put id value entries) :
    entry = (id, value) ∨ entry ∈ entries := by
  induction entries with
  | nil => exact Or.inl (List.mem_singleton.1 member)
  | cons first rest ih =>
      unfold put at member
      split at member
      · exact List.mem_cons.1 member
      · split at member
        · rcases List.mem_cons.1 member with rfl | later
          · exact Or.inl rfl
          · exact Or.inr (List.mem_cons_of_mem _ later)
        · rcases List.mem_cons.1 member with rfl | later
          · exact Or.inr List.mem_cons_self
          · rcases ih later with here | old
            · exact Or.inl here
            · exact Or.inr (List.mem_cons_of_mem _ old)

/-- Inserting a coefficient adds at most this value. -/
theorem mem_values_insert
    {form : Coefficients}
    {id : String}
    {value weight : Int}
    (member : weight ∈ (form.insert id value).values) :
    weight = value ∨ weight ∈ form.values := by
  rcases List.mem_map.1 member with ⟨entry, entryMember, rfl⟩
  rcases mem_put entryMember with rfl | old
  · exact Or.inl rfl
  · exact Or.inr (List.mem_map_of_mem old)

/-- Every entry of the form of a list is in the list. -/
theorem mem_of_mem_ofList
    {pairs : List (String × Int)}
    {entry : String × Int}
    (member : entry ∈ (ofList pairs).entries) :
    entry ∈ pairs := by
  have steps :
      ∀ (pairs : List (String × Int)) (start : Coefficients),
        entry ∈
          (pairs.foldl (fun grown pair => grown.insert pair.1 pair.2)
            start).entries →
        entry ∈ start.entries ∨ entry ∈ pairs := by
    intro pairs
    induction pairs with
    | nil => exact fun _ member => Or.inl member
    | cons pair rest ih =>
        intro start member
        rcases ih _ member with early | late
        · rcases mem_put early with rfl | old
          · exact Or.inr List.mem_cons_self
          · exact Or.inl old
        · exact Or.inr (List.mem_cons_of_mem _ late)
  exact (steps pairs ∅ member).resolve_left List.not_mem_nil

/-- A form is the form of its entries in their order. -/
theorem ofList_entries
    (form : Coefficients) :
    ofList form.entries = form := by
  have steps :
      ∀ (added : List (String × Int)) (start : Coefficients),
        ((start.entries ++ added).map Prod.fst).Pairwise (· < ·) →
        (added.foldl (fun grown entry => grown.insert entry.1 entry.2)
          start).entries =
          start.entries ++ added := by
    intro added
    induction added with
    | nil => exact fun start _ => (List.append_nil _).symm
    | cons entry rest ih =>
        intro start ascending
        have below : ∀ old ∈ start.entries, old.1 < entry.1 := by
          rw [List.map_append, List.pairwise_append] at ascending
          intro old member
          exact ascending.2.2 _ (List.mem_map_of_mem member) _
            List.mem_cons_self
        have inserted :
            (start.insert entry.1 entry.2).entries =
              start.entries ++ [entry] :=
          put_last below
        rw [List.foldl_cons, ih, inserted, List.append_assoc]
        · rfl
        · rw [inserted, List.append_assoc]
          exact ascending
  exact ext (steps form.entries ∅ form.ascending)

end Configurator.Linear.Coefficients
