/-!
# Coefficients

The coefficients of a linear form by variable id, in the ascending order of
the ids.  Ids are compared by their code points.  A coefficient may be zero;
an id without an entry also counts as zero.
-/

namespace Configurator.Linear

/-- Coefficients by variable id, in ascending order of the ids. -/
structure Coefficients where
  /-- The ids with their coefficients, in order. -/
  entries : List (String × Int)
  /-- The ids ascend strictly. -/
  ascending : (entries.map Prod.fst).Pairwise (· < ·)
  deriving DecidableEq

namespace Coefficients

@[ext]
theorem ext
    {left right : Coefficients}
    (equality : left.entries = right.entries) :
    left = right := by
  cases left
  cases right
  cases equality
  rfl

/-- The form without variables. -/
def empty : Coefficients :=
  ⟨[], List.Pairwise.nil⟩

instance : EmptyCollection Coefficients :=
  ⟨empty⟩

/-- The ids in order. -/
def ids (coefficients : Coefficients) : List String :=
  coefficients.entries.map Prod.fst

/-- The coefficients in the order of their ids. -/
def values (coefficients : Coefficients) : List Int :=
  coefficients.entries.map Prod.snd

/-- The coefficient of an id, if it has an entry. -/
def get? (coefficients : Coefficients) (id : String) : Option Int :=
  coefficients.entries.lookup id

/-- Ascending entries with the entry of `id` set to `value`. -/
def put
    (id : String)
    (value : Int) :
    List (String × Int) → List (String × Int)
  | [] => [(id, value)]
  | entry :: rest =>
      if id < entry.1 then (id, value) :: entry :: rest
      else if id = entry.1 then (id, value) :: rest
      else entry :: put id value rest

theorem mem_fst_put
    {id other : String}
    {value : Int}
    {entries : List (String × Int)} :
    other ∈ (put id value entries).map Prod.fst ↔
      other = id ∨ other ∈ entries.map Prod.fst := by
  induction entries with
  | nil => simp [put]
  | cons entry rest ih =>
      unfold put
      split
      · simp
      · split
        · rename_i same
          simp [same]
        · simp only [List.map_cons, List.mem_cons, ih]
          constructor
          · rintro (here | rfl | there)
            · exact Or.inr (Or.inl here)
            · exact Or.inl rfl
            · exact Or.inr (Or.inr there)
          · rintro (rfl | here | there)
            · exact Or.inr (Or.inl rfl)
            · exact Or.inl here
            · exact Or.inr (Or.inr there)

theorem ascending_put
    {id : String}
    {value : Int}
    {entries : List (String × Int)}
    (ascending : (entries.map Prod.fst).Pairwise (· < ·)) :
    ((put id value entries).map Prod.fst).Pairwise (· < ·) := by
  induction entries with
  | nil => simp [put]
  | cons entry rest ih =>
      rw [List.map_cons, List.pairwise_cons] at ascending
      obtain ⟨below, restAscending⟩ := ascending
      unfold put
      split
      · rename_i less
        rw [List.map_cons, List.map_cons, List.pairwise_cons,
          List.pairwise_cons]
        refine ⟨?_, below, restAscending⟩
        intro other member
        rcases List.mem_cons.1 member with rfl | member
        · exact less
        · exact String.lt_trans less (below other member)
      · split
        · rename_i same
          rw [List.map_cons, List.pairwise_cons]
          exact ⟨fun other member => same ▸ below other member,
            restAscending⟩
        · rename_i notLess different
          have greater : entry.1 < id := by grind
          rw [List.map_cons, List.pairwise_cons]
          refine ⟨?_, ih restAscending⟩
          intro other member
          rcases mem_fst_put.1 member with rfl | member
          · exact greater
          · exact below other member

/-- The coefficients with the coefficient of `id` set to `value`. -/
def insert
    (coefficients : Coefficients)
    (id : String)
    (value : Int) :
    Coefficients :=
  ⟨put id value coefficients.entries, ascending_put coefficients.ascending⟩

/--
Insert the pairs one after another; a later pair replaces the value of its
id.
-/
def ofList (pairs : List (String × Int)) : Coefficients :=
  pairs.foldl (fun coefficients pair => coefficients.insert pair.1 pair.2) ∅

/-- The same ids with the values that `change` gives their entries. -/
def map
    (coefficients : Coefficients)
    (change : String → Int → Int) :
    Coefficients :=
  ⟨coefficients.entries.map fun entry => (entry.1, change entry.1 entry.2),
    by
      rw [List.map_map]
      exact coefficients.ascending⟩

/-- The entries whose coefficient is not zero. -/
def dropZeros (coefficients : Coefficients) : Coefficients :=
  ⟨coefficients.entries.filter (fun entry => entry.2 ≠ 0),
    coefficients.ascending.sublist (List.filter_sublist.map Prod.fst)⟩

/-- Each of the ids with the coefficient `value`. -/
def uniform (ids : List String) (value : Int) : Coefficients :=
  ofList (ids.map fun id => (id, value))

end Coefficients

end Configurator.Linear
