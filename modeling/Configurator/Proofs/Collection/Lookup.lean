import Configurator.Collection.OrderedMap

/-!
# Looking up values in ordered maps

The value of a key is the one that was inserted last, and the entries of a
map are its keys with their values.
-/

namespace Configurator.Collection

variable {κ : Type} {ν : Type} [DecidableEq κ] {key other : κ} {value : ν}

theorem lookup_cons_eq
    (entry : κ × ν)
    (rest : List (κ × ν))
    (other : κ) :
    (entry :: rest).lookup other =
      if other = entry.1 then some entry.2 else rest.lookup other := by
  rw [List.lookup_cons]
  by_cases here : other = entry.1
  · simp [here]
  · have different : (other == entry.1) = false := by simpa using here
    rw [different, if_neg here]

theorem lookup_eq_none
    {entries : List (κ × ν)}
    (absent : key ∉ entries.map Prod.fst) :
    entries.lookup key = none := by
  induction entries with
  | nil => rfl
  | cons entry rest ih =>
      rw [List.map_cons, List.mem_cons, not_or] at absent
      rw [lookup_cons_eq, if_neg absent.1, ih absent.2]

/--
Among entries with distinct keys, looking up a key finds its only entry.
-/
theorem mem_iff_lookup
    {entries : List (κ × ν)}
    (nodup : (entries.map Prod.fst).Nodup) :
    (key, value) ∈ entries ↔ entries.lookup key = some value := by
  induction entries with
  | nil => simp
  | cons entry rest ih =>
      rw [List.map_cons, List.nodup_cons] at nodup
      rw [lookup_cons_eq, List.mem_cons]
      by_cases here : key = entry.1
      · rw [if_pos here, Option.some.injEq]
        constructor
        · rintro (first | later)
          · rw [← first]
          · exact absurd (List.mem_map_of_mem later) (here ▸ nodup.1)
        · intro same
          left
          rw [here, ← same]
      · rw [if_neg here, ← ih nodup.2]
        constructor
        · rintro (first | later)
          · exact absurd (congrArg Prod.fst first) here
          · exact later
        · exact Or.inr

namespace OrderedMap

variable {map : OrderedMap κ ν}

private theorem lookup_put
    (entries : List (κ × ν)) :
    (put key value entries).lookup other =
      if other = key then some value else entries.lookup other := by
  induction entries with
  | nil =>
      show List.lookup other [(key, value)] = _
      rw [lookup_cons_eq]
  | cons entry rest ih =>
      simp only [put]
      by_cases same : entry.1 = key
      · rw [if_pos same, lookup_cons_eq, lookup_cons_eq, same]
        by_cases here : other = key
        · rw [if_pos here, if_pos here]
        · rw [if_neg here, if_neg here, if_neg here]
      · rw [if_neg same, lookup_cons_eq, lookup_cons_eq, ih]
        by_cases here : other = key
        · subst here
          rw [if_neg (fun equality => same equality.symm), if_pos rfl,
            if_pos rfl]
        · rw [if_neg here, if_neg here]

private theorem put_append
    {left right : List (κ × ν)}
    (absent : key ∉ left.map Prod.fst) :
    put key value (left ++ right) = left ++ put key value right := by
  induction left with
  | nil => rfl
  | cons first rest ih =>
      rw [List.map_cons, List.mem_cons, not_or] at absent
      simp only [List.cons_append, put]
      rw [if_neg fun same => absent.1 same.symm, ih absent.2]

private theorem mem_put
    {entry : κ × ν}
    {entries : List (κ × ν)}
    (member : entry ∈ put key value entries) :
    entry = (key, value) ∨ entry ∈ entries := by
  induction entries with
  | nil => exact Or.inl (List.mem_singleton.1 member)
  | cons first rest ih =>
      simp only [put] at member
      split at member
      · rcases List.mem_cons.1 member with here | later
        · exact Or.inl here
        · exact Or.inr (List.mem_cons_of_mem _ later)
      · rcases List.mem_cons.1 member with here | later
        · exact Or.inr (here ▸ List.mem_cons_self)
        · exact (ih later).imp_right (List.mem_cons_of_mem _)

theorem get?_insert
    (map : OrderedMap κ ν)
    (key : κ)
    (value : ν)
    (other : κ) :
    (map.insert key value).get? other =
      if other = key then some value else map.get? other :=
  lookup_put map.entries

@[simp]
theorem get?_empty (key : κ) : (∅ : OrderedMap κ ν).get? key = none :=
  rfl

/-- The entries are the keys with their values. -/
theorem mem_entries :
    (key, value) ∈ map.entries ↔ map.get? key = some value :=
  mem_iff_lookup map.nodup

/-! ## Maps of listed pairs -/

private theorem foldl_insert_append
    {pairs left : List (κ × ν)}
    {start tail : OrderedMap κ ν}
    (absent : ∀ pair ∈ pairs, pair.1 ∉ left.map Prod.fst)
    (split : start.entries = left ++ tail.entries) :
    (pairs.foldl (fun map pair => map.insert pair.1 pair.2) start).entries =
      left ++
        (pairs.foldl (fun map pair => map.insert pair.1 pair.2)
          tail).entries := by
  induction pairs generalizing start tail with
  | nil => exact split
  | cons pair rest ih =>
      rcases List.forall_mem_cons.1 absent with ⟨here, later⟩
      have inserted : (start.insert pair.1 pair.2).entries =
          left ++ (tail.insert pair.1 pair.2).entries := by
        show put pair.1 pair.2 start.entries =
          left ++ put pair.1 pair.2 tail.entries
        rw [split, put_append here]
      exact ih later inserted

private theorem mem_foldl_insert
    {entry : κ × ν}
    {pairs : List (κ × ν)}
    {start : OrderedMap κ ν}
    (member :
      entry ∈
        (pairs.foldl (fun map pair => map.insert pair.1 pair.2)
          start).entries) :
    entry ∈ start.entries ∨ entry ∈ pairs := by
  induction pairs generalizing start with
  | nil => exact Or.inl member
  | cons pair rest ih =>
      rcases ih member with early | late
      · rcases mem_put early with here | old
        · exact Or.inr (here ▸ List.mem_cons_self)
        · exact Or.inl old
      · exact Or.inr (List.mem_cons_of_mem _ late)

/-- Every entry is one of the pairs. -/
theorem mem_of_mem_entries_ofList
    {entry : κ × ν}
    {pairs : List (κ × ν)}
    (member : entry ∈ (ofList pairs).entries) :
    entry ∈ pairs :=
  (mem_foldl_insert member).resolve_left List.not_mem_nil

/-- Pairs with keys of their own become the last entries. -/
theorem entries_ofList_append
    {left right : List (κ × ν)}
    (absent : ∀ pair ∈ right, pair.1 ∉ left.map Prod.fst) :
    (ofList (left ++ right)).entries =
      (ofList left).entries ++ (ofList right).entries := by
  rw [ofList, List.foldl_append]
  refine foldl_insert_append ?_ (List.append_nil _).symm
  intro pair member present
  rcases List.mem_map.1 present with ⟨entry, entryMember, same⟩
  exact absent pair member
    (same ▸ List.mem_map_of_mem (mem_of_mem_entries_ofList entryMember))

/-- Pairs with distinct keys become the entries of a map as they are. -/
theorem entries_ofList
    {pairs : List (κ × ν)}
    (nodup : (pairs.map Prod.fst).Nodup) :
    (ofList pairs).entries = pairs := by
  induction pairs with
  | nil => rfl
  | cons pair rest ih =>
      rw [List.map_cons, List.nodup_cons] at nodup
      have apart : ∀ later ∈ rest, later.1 ∉ [pair].map Prod.fst := by
        intro later member present
        exact nodup.1
          (List.mem_singleton.1 present ▸ List.mem_map_of_mem member)
      show (ofList ([pair] ++ rest)).entries = _
      rw [entries_ofList_append apart, ih nodup.2]
      rfl

private theorem get?_foldl_insert
    {pairs : List (κ × ν)}
    (absent : key ∉ pairs.map Prod.fst)
    (start : OrderedMap κ ν) :
    (pairs.foldl (fun map pair => map.insert pair.1 pair.2) start).get?
        key =
      start.get? key := by
  induction pairs generalizing start with
  | nil => rfl
  | cons pair rest ih =>
      rw [List.map_cons, List.mem_cons, not_or] at absent
      rw [List.foldl_cons, ih absent.2, get?_insert, if_neg absent.1]

/-- A pair whose key no later pair has decides the value of the key. -/
theorem get?_ofList_append_cons
    {before after : List (κ × ν)}
    (absent : key ∉ after.map Prod.fst) :
    (ofList (before ++ (key, value) :: after)).get? key = some value := by
  rw [ofList, List.foldl_append, List.foldl_cons, get?_foldl_insert absent,
    get?_insert, if_pos rfl]

end OrderedMap

end Configurator.Collection
