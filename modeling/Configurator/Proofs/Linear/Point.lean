import Configurator.Collection.OrderedSet
import Configurator.Proofs.Arithmetic.Exact

/-!
# Points by the names of their columns

The members of an ordered set name the columns of a point.  A point with one
entry for each name is the same as an assignment of whole numbers to the
names; a `Vertex` is such a point whose entries are zeros and ones.
-/

namespace Configurator.Linear

open Configurator.Arithmetic Configurator.Collection

/--
The entry of a point in the column of an id, which is zero without a column.
-/
def entryOf
    (ids : OrderedSet String)
    (point : List Int)
    (id : String) :
    Int :=
  ((ids.indexOf? id).bind fun column => point[column]?).getD 0

/-- The column of a member is the position at which it is listed. -/
theorem indexOf?_of_mem
    {ids : OrderedSet String}
    {id : String}
    (member : id ∈ ids) :
    ∃ column,
      ids.indexOf? id = some column ∧ ids.toList[column]? = some id := by
  have found : (ids.toList.idxOf? id).isSome := List.isSome_idxOf?.2 member
  rcases Option.isSome_iff_exists.1 found with ⟨column, position⟩
  refine ⟨column, position, ?_⟩
  rcases List.idxOf?_eq_some_iff.1 position with ⟨inside, here, _⟩
  rw [List.getElem?_eq_getElem inside, here]

theorem indexOf?_getElem
    {ids : OrderedSet String}
    {column : Nat}
    (inside : column < ids.toList.length) :
    ids.indexOf? ids.toList[column] = some column := by
  apply List.idxOf?_eq_some_iff.2
  refine ⟨inside, rfl, ?_⟩
  intro earlier before same
  have equal : earlier = column := (List.getElem_inj ids.nodup).1 same
  omega

theorem entryOf_map
    {ids : OrderedSet String}
    {id : String}
    (member : id ∈ ids)
    (value : String → Int) :
    entryOf ids (ids.toList.map value) id = value id := by
  rcases indexOf?_of_mem member with ⟨column, position, here⟩
  simp [entryOf, position, here]

/-- A point lists its entries by the ids of their columns. -/
theorem map_entryOf
    {ids : OrderedSet String}
    {point : List Int}
    (width : point.length = ids.size) :
    ids.toList.map (entryOf ids point) = point := by
  have sameLength :
      (ids.toList.map (entryOf ids point)).length = point.length := by
    rw [List.length_map, width, OrderedSet.size]
  apply List.ext_getElem sameLength
  intro column left right
  have inside : column < ids.toList.length := by simpa using left
  simp [entryOf, indexOf?_getElem inside, List.getElem?_eq_getElem right]

theorem entryOf_of_notMem
    {ids : OrderedSet String}
    {id : String}
    (absent : id ∉ ids)
    (point : List Int) :
    entryOf ids point id = 0 := by
  have missing : ids.indexOf? id = none := List.idxOf?_eq_none_iff.2 absent
  simp [entryOf, missing]

/-- A point with an entry of zero or one for each of the ids. -/
structure Vertex (ids : OrderedSet String) where
  /-- The entries in the order of the ids. -/
  entries : List Int
  /-- There is one entry for each id. -/
  length_eq : entries.length = ids.size
  /-- Every entry is zero or one. -/
  binary : IsBinary entries

namespace Vertex

variable {ids : OrderedSet String}

/-- The entry of an id. -/
def value (vertex : Vertex ids) (id : String) : Int :=
  entryOf ids vertex.entries id

theorem entries_eq
    (vertex : Vertex ids) :
    vertex.entries = ids.toList.map vertex.value :=
  (map_entryOf vertex.length_eq).symm

theorem value_binary
    (vertex : Vertex ids)
    (id : String) :
    vertex.value id = 0 ∨ vertex.value id = 1 := by
  by_cases member : id ∈ ids
  · have listed : vertex.value id ∈ vertex.entries := by
      rw [entries_eq]
      exact List.mem_map_of_mem member
    exact vertex.binary _ listed
  · exact Or.inl (entryOf_of_notMem member _)

/-- Vertices with the same value at every id are the same. -/
theorem ext_value
    {left right : Vertex ids}
    (agree : ∀ id ∈ ids, left.value id = right.value id) :
    left = right := by
  have same : left.entries = right.entries := by
    rw [left.entries_eq, right.entries_eq]
    exact List.map_congr_left agree
  cases left
  cases right
  cases same
  rfl

/-- The vertex whose ones are the true ids. -/
def ofTruth
    (ids : OrderedSet String)
    (truth : String → Bool) :
    Vertex ids where
  entries := ids.toList.map fun id => (truth id).toInt
  length_eq := List.length_map _
  binary := by
    intro entry member
    rcases List.mem_map.1 member with ⟨id, _, rfl⟩
    cases truth id
    · exact Or.inl rfl
    · exact Or.inr rfl

theorem value_ofTruth
    {id : String}
    (member : id ∈ ids)
    (truth : String → Bool) :
    (ofTruth ids truth).value id = (truth id).toInt :=
  entryOf_map member fun id => (truth id).toInt

/-- Zeros and ones for the ids are the values of a vertex. -/
theorem exists_of_binary
    {value : String → Int}
    (binary : ∀ id ∈ ids, value id = 0 ∨ value id = 1) :
    ∃ vertex : Vertex ids, ∀ id ∈ ids, vertex.value id = value id := by
  refine ⟨ofTruth ids fun id => decide (value id = 1), ?_⟩
  intro id member
  rw [value_ofTruth member]
  rcases binary id member with zero | one
  · rw [zero]
    rfl
  · rw [one]
    rfl

/-- The vertex that keeps the entries of some of the ids. -/
def restrict
    (fewer : OrderedSet String)
    (vertex : Vertex ids) :
    Vertex fewer where
  entries := fewer.toList.map vertex.value
  length_eq := List.length_map _
  binary := by
    intro entry member
    rcases List.mem_map.1 member with ⟨id, _, rfl⟩
    exact vertex.value_binary id

theorem value_restrict
    {fewer : OrderedSet String}
    {id : String}
    (member : id ∈ fewer)
    (vertex : Vertex ids) :
    (vertex.restrict fewer).value id = vertex.value id :=
  entryOf_map member vertex.value

end Vertex

end Configurator.Linear
