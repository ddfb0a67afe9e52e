/-!
# Maps that remember the order of insertion

An `OrderedMap` lists its entries in the order in which their keys were
first inserted.  Giving a key a new value leaves the key at its place.
-/

namespace Configurator.Collection

/--
Entries with distinct keys, in the order of the first insertion of each key.
-/
structure OrderedMap (κ : Type u) (ν : Type v) where
  /-- The entries in order. -/
  entries : List (κ × ν)
  /-- No key occurs twice. -/
  nodup : (entries.map Prod.fst).Nodup

namespace OrderedMap

variable {κ : Type u} {ν : Type v}

@[ext]
theorem ext
    {left right : OrderedMap κ ν}
    (equality : left.entries = right.entries) :
    left = right := by
  cases left
  cases right
  cases equality
  rfl

instance [DecidableEq κ] [DecidableEq ν] : DecidableEq (OrderedMap κ ν) :=
  fun left right =>
    decidable_of_iff (left.entries = right.entries)
      ⟨OrderedMap.ext, fun equality => equality ▸ rfl⟩

/-- The map without entries. -/
def empty : OrderedMap κ ν :=
  ⟨[], List.nodup_nil⟩

instance : EmptyCollection (OrderedMap κ ν) :=
  ⟨empty⟩

/-- The keys in order. -/
def keys (map : OrderedMap κ ν) : List κ :=
  map.entries.map Prod.fst

/-- The values in the order of their keys. -/
def values (map : OrderedMap κ ν) : List ν :=
  map.entries.map Prod.snd

variable [DecidableEq κ]

/-- The value of a key, if it has one. -/
def get? (map : OrderedMap κ ν) (key : κ) : Option ν :=
  map.entries.lookup key

/-- Whether a key has a value. -/
def contains (map : OrderedMap κ ν) (key : κ) : Bool :=
  key ∈ map.keys

/--
Entries in which `key` has the value `value`: changed in place or added
last.
-/
def put (key : κ) (value : ν) : List (κ × ν) → List (κ × ν)
  | [] => [(key, value)]
  | entry :: rest =>
      if entry.1 = key then (key, value) :: rest
      else entry :: put key value rest

theorem map_fst_put
    (key : κ)
    (value : ν)
    (entries : List (κ × ν)) :
    (put key value entries).map Prod.fst =
      if key ∈ entries.map Prod.fst then entries.map Prod.fst
      else entries.map Prod.fst ++ [key] := by
  induction entries with
  | nil => simp [put]
  | cons entry rest ih =>
      by_cases same : entry.1 = key
      · simp [put, same]
      · have different : ¬ key = entry.1 :=
          fun equality => same equality.symm
        simp only [put, same, if_false, List.map_cons, ih, List.mem_cons,
          different, false_or]
        split <;> simp

theorem nodup_put
    {key : κ}
    {value : ν}
    {entries : List (κ × ν)}
    (nodup : (entries.map Prod.fst).Nodup) :
    ((put key value entries).map Prod.fst).Nodup := by
  rw [map_fst_put]
  split
  · exact nodup
  · rename_i absent
    rw [List.nodup_append]
    refine ⟨nodup, by simp, ?_⟩
    intro old oldMember new newMember
    rw [List.mem_singleton] at newMember
    subst newMember
    intro equality
    exact absent (equality ▸ oldMember)

/-- Give `key` the value `value`. -/
def insert (map : OrderedMap κ ν) (key : κ) (value : ν) : OrderedMap κ ν :=
  ⟨put key value map.entries, nodup_put map.nodup⟩

/--
Insert the pairs one after another; a later pair replaces the value of its
key.
-/
def ofList (pairs : List (κ × ν)) : OrderedMap κ ν :=
  pairs.foldl (fun map pair => map.insert pair.1 pair.2) ∅

end OrderedMap

end Configurator.Collection
