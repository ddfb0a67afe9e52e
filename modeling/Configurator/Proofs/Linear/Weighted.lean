import Configurator.Proofs.Arithmetic.Exact
import Configurator.Proofs.Collection.Lookup
import Mathlib.Algebra.Order.BigOperators.Group.List
import Mathlib.Tactic.Ring

/-!
# Weighted sums

A list of ids with weights has a sum at every assignment of whole numbers to
ids.  The same sum runs over any list of ids that looks the weights up, if
the values of all other ids are taken as zero.  The load of the list is the
sum of the magnitudes of its terms, which bounds every partial sum.
-/

namespace Configurator.Linear

open Configurator.Arithmetic Configurator.Collection

/-- The sum of the weights times the values of their ids. -/
def weighted (entries : List (String × Int)) (value : String → Int) : Int :=
  (entries.map fun entry => entry.2 * value entry.1).sum

/-- Values that are zero outside of some ids. -/
def masked (ids : List String) (value : String → Int) (id : String) : Int :=
  if id ∈ ids then value id else 0

variable {entries rest : List (String × Int)} {value other : String → Int}

@[simp]
theorem weighted_nil (value : String → Int) : weighted [] value = 0 :=
  rfl

@[simp]
theorem weighted_cons
    (entry : String × Int)
    (rest : List (String × Int))
    (value : String → Int) :
    weighted (entry :: rest) value =
      entry.2 * value entry.1 + weighted rest value :=
  rfl

theorem weighted_append
    (left right : List (String × Int))
    (value : String → Int) :
    weighted (left ++ right) value =
      weighted left value + weighted right value := by
  simp only [weighted]
  rw [List.map_append, List.sum_append]

theorem weighted_perm
    {left right : List (String × Int)}
    (permuted : left.Perm right)
    (value : String → Int) :
    weighted left value = weighted right value := by
  simp only [weighted]
  exact (permuted.map _).sum_eq

/-- Only the values of ids with a weight other than zero matter. -/
theorem weighted_congr
    (agree :
      ∀ entry ∈ entries, entry.2 ≠ 0 → value entry.1 = other entry.1) :
    weighted entries value = weighted entries other := by
  simp only [weighted]
  congr 1
  apply List.map_congr_left
  intro entry member
  by_cases weightless : entry.2 = 0
  · rw [weightless, Int.zero_mul, Int.zero_mul]
  · rw [agree entry member weightless]

theorem weighted_eq_zero
    (zeros : ∀ entry ∈ entries, value entry.1 = 0) :
    weighted entries value = 0 := by
  induction entries with
  | nil => rfl
  | cons entry rest ih =>
      rw [weighted_cons, zeros entry List.mem_cons_self,
        ih fun later member => zeros later (List.mem_cons_of_mem _ member)]
      simp

theorem masked_of_mem
    {ids : List String}
    {id : String}
    (member : id ∈ ids)
    (value : String → Int) :
    masked ids value id = value id :=
  if_pos member

theorem masked_of_notMem
    {ids : List String}
    {id : String}
    (absent : id ∉ ids)
    (value : String → Int) :
    masked ids value id = 0 :=
  if_neg absent

theorem masked_congr
    {ids : List String}
    (agree : ∀ id ∈ ids, value id = other id) :
    masked ids value = masked ids other := by
  funext id
  simp only [masked]
  split
  · rename_i member
    exact agree id member
  · rfl

private theorem sum_single
    {ids : List String}
    (nodup : ids.Nodup)
    (id : String)
    (weight : Int)
    (value : String → Int) :
    (ids.map fun other =>
      (if other = id then weight else 0) * value other).sum =
      weight * masked ids value id := by
  induction ids with
  | nil => simp [masked]
  | cons first rest ih =>
      rw [List.nodup_cons] at nodup
      rw [List.map_cons, List.sum_cons, ih nodup.2]
      by_cases here : first = id
      · subst here
        rw [if_pos rfl, masked_of_notMem nodup.1,
          masked_of_mem List.mem_cons_self]
        ring
      · have same :
            masked (first :: rest) value id = masked rest value id := by
          simp only [masked]
          simp only [List.mem_cons, Ne.symm here, false_or]
        rw [if_neg here, same]
        ring

/--
Looking up the weights of distinct ids gives the weighted sum of their
values.
-/
theorem sum_lookup
    {ids : List String}
    (idsNodup : ids.Nodup)
    (nodup : (entries.map Prod.fst).Nodup)
    (value : String → Int) :
    (ids.map fun id => (entries.lookup id).getD 0 * value id).sum =
      weighted entries (masked ids value) := by
  induction entries with
  | nil => simp
  | cons entry rest ih =>
      rw [List.map_cons, List.nodup_cons] at nodup
      have absent : rest.lookup entry.1 = none := lookup_eq_none nodup.1
      have split :
          (ids.map fun id =>
            ((entry :: rest).lookup id).getD 0 * value id) =
            ids.map fun id =>
              (if id = entry.1 then entry.2 else 0) * value id +
                (rest.lookup id).getD 0 * value id := by
        apply List.map_congr_left
        intro id _
        rw [lookup_cons_eq]
        by_cases here : id = entry.1
        · subst here
          simp [absent]
        · simp [here]
      rw [split, List.sum_map_add, sum_single idsNodup, ih nodup.2,
        weighted_cons]

/--
Terms for all ids are terms for those that are kept and terms for the
others.
-/
theorem sum_filter_add
    (keep : String → Bool)
    (ids : List String)
    (term : String → Int) :
    ((ids.filter keep).map term).sum +
        ((ids.filter (!keep ·)).map term).sum =
      (ids.map term).sum := by
  have parted := ((List.filter_append_perm keep ids).map term).sum_eq
  rwa [List.map_append, List.sum_append] at parted

/-! ## Loads -/

/--
The magnitudes of the weights times the values of their ids, added up.
-/
def load (entries : List (String × Int)) (value : String → Int) : Nat :=
  magnitude (entries.map fun entry => entry.2 * value entry.1)

@[simp]
theorem load_nil (value : String → Int) : load [] value = 0 :=
  rfl

@[simp]
theorem load_cons
    (entry : String × Int)
    (rest : List (String × Int))
    (value : String → Int) :
    load (entry :: rest) value =
      (entry.2 * value entry.1).natAbs + load rest value :=
  magnitude_cons _ _

theorem load_append
    (left right : List (String × Int))
    (value : String → Int) :
    load (left ++ right) value = load left value + load right value := by
  induction left with
  | nil => simp
  | cons entry rest ih =>
      rw [List.cons_append, load_cons, load_cons, ih, Nat.add_assoc]

/-- Where no term is positive, the load is the opposite of the sum. -/
theorem load_of_nonpositive
    (weights : ∀ entry ∈ entries, entry.2 ≤ 0)
    (values : ∀ id, 0 ≤ value id) :
    (load entries value : Int) = -weighted entries value := by
  induction entries with
  | nil => rfl
  | cons entry rest ih =>
      have term : entry.2 * value entry.1 ≤ 0 :=
        Int.mul_nonpos_of_nonpos_of_nonneg
          (weights entry List.mem_cons_self) (values entry.1)
      have others :=
        ih fun later member => weights later (List.mem_cons_of_mem _ member)
      rw [load_cons, weighted_cons, Nat.cast_add, others]
      omega

private theorem load_put_le
    (id : String)
    (weight : Int)
    (entries : List (String × Int))
    (value : String → Int) :
    load (OrderedMap.put id weight entries) value ≤
      load entries value + (weight * value id).natAbs := by
  induction entries with
  | nil => simp [OrderedMap.put]
  | cons entry rest ih =>
      simp only [OrderedMap.put]
      split
      · rename_i here
        subst here
        rw [load_cons, load_cons]
        dsimp only
        omega
      · rw [load_cons, load_cons]
        omega

private theorem load_foldl_insert_le
    (pairs : List (String × Int))
    (value : String → Int)
    (start : OrderedMap String Int) :
    load
        (pairs.foldl (fun map pair => map.insert pair.1 pair.2)
          start).entries value ≤
      load start.entries value + load pairs value := by
  induction pairs generalizing start with
  | nil => exact Nat.le_refl _
  | cons pair rest ih =>
      have here : load (start.insert pair.1 pair.2).entries value ≤
          load start.entries value + (pair.2 * value pair.1).natAbs :=
        load_put_le pair.1 pair.2 start.entries value
      have later := ih (start.insert pair.1 pair.2)
      rw [List.foldl_cons, load_cons]
      omega

/--
Later pairs replace earlier ones, so a map has no greater load than its
pairs.
-/
theorem load_ofList_le
    (pairs : List (String × Int))
    (value : String → Int) :
    load (OrderedMap.ofList pairs).entries value ≤ load pairs value := by
  have whole := load_foldl_insert_le pairs value ∅
  rwa [show load (∅ : OrderedMap String Int).entries value = 0 from rfl,
    Nat.zero_add] at whole

private theorem weighted_le_load
    (bounded : ∀ id, (other id).natAbs ≤ (value id).natAbs) :
    weighted entries other ≤ (load entries value : Nat) := by
  induction entries with
  | nil => exact Int.le_refl 0
  | cons entry rest ih =>
      have factor :
          (entry.2 * other entry.1).natAbs ≤
            (entry.2 * value entry.1).natAbs := by
        rw [Int.natAbs_mul, Int.natAbs_mul]
        exact Nat.mul_le_mul_left _ (bounded entry.1)
      have term :
          entry.2 * other entry.1 ≤ (entry.2 * value entry.1).natAbs := by
        omega
      rw [weighted_cons, load_cons, Nat.cast_add]
      exact Int.add_le_add term ih

/-- The terms of the ids that are looked up weigh no more than all terms. -/
theorem magnitude_lookup_le
    {ids : List String}
    (idsNodup : ids.Nodup)
    (nodup : (entries.map Prod.fst).Nodup)
    (value : String → Int) :
    magnitude (ids.map fun id => (entries.lookup id).getD 0 * value id) ≤
      load entries value := by
  -- a magnitude is the number times its sign, so the ids' terms add up at
  -- signed values
  have signed := sum_lookup idsNodup nodup
    fun id => value id * ((entries.lookup id).getD 0 * value id).sign
  have idSum :
      (magnitude
          (ids.map fun id => (entries.lookup id).getD 0 * value id) : Int) =
        (ids.map fun id =>
          (entries.lookup id).getD 0 * (value id *
            ((entries.lookup id).getD 0 * value id).sign)).sum := by
    clear signed idsNodup
    induction ids with
    | nil => rfl
    | cons id rest ih =>
        rw [List.map_cons, magnitude_cons, Nat.cast_add, ih, List.map_cons,
          List.sum_cons, ← Int.mul_assoc, Int.mul_sign_self]
  have entrySum :
      weighted entries
          (masked ids fun id =>
            value id * ((entries.lookup id).getD 0 * value id).sign) ≤
        (load entries value : Nat) := by
    apply weighted_le_load
    intro id
    have unit :
        ((entries.lookup id).getD 0 * value id).sign.natAbs ≤ 1 := by
      rw [Int.natAbs_sign]
      split
      · exact Nat.zero_le 1
      · exact Nat.le_refl 1
    simp only [masked]
    split
    · rw [Int.natAbs_mul]
      exact (Nat.mul_le_mul_left _ unit).trans_eq (Nat.mul_one _)
    · exact Nat.zero_le _
  have together :
      (magnitude
          (ids.map fun id => (entries.lookup id).getD 0 * value id) : Int) ≤
        (load entries value : Nat) := by
    rw [idSum]
    exact signed.le.trans entrySum
  exact_mod_cast together

end Configurator.Linear
