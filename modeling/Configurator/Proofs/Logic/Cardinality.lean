import Configurator.Proofs.Logic.Linking
import Mathlib.Algebra.BigOperators.Ring.List

/-!
# Cardinality constraints by their operands

`Constraint.cardinality` accepts a list of distinct ids and a bound between
zero and its length.  The constraint that it makes has the given ids as its
operands, and it holds exactly if the values of the ids add up to at least,
or at most, the bound.
-/

namespace Configurator.Linear.Coefficients

open Configurator.Arithmetic

private theorem entries_foldl_perm
    {ids : List String}
    (weight : Int)
    (nodup : ids.Nodup)
    (start : Coefficients)
    (absent : ∀ id ∈ ids, id ∉ start.ids) :
    ((ids.map fun id => (id, weight)).foldl
      (fun coefficients pair => coefficients.insert pair.1 pair.2)
      start).entries.Perm
      (start.entries ++ ids.map fun id => (id, weight)) := by
  induction ids generalizing start with
  | nil => simp
  | cons id rest ih =>
      rw [List.nodup_cons] at nodup
      have here :
          (start.insert id weight).entries.Perm
            ((id, weight) :: start.entries) :=
        put_perm (absent id List.mem_cons_self)
      have later :
          ∀ other ∈ rest, other ∉ (start.insert id weight).ids := by
        intro other member inserted
        rcases mem_ids_insert.1 inserted with rfl | old
        · exact nodup.1 member
        · exact absent other (List.mem_cons_of_mem _ member) old
      rw [List.map_cons, List.foldl_cons]
      refine (ih nodup.2 _ later).trans ?_
      refine (here.append_right _).trans ?_
      exact List.perm_middle.symm

/-- A uniform form lists each of the distinct ids with the weight. -/
theorem uniform_perm
    {ids : List String}
    (nodup : ids.Nodup)
    (weight : Int) :
    (uniform ids weight).entries.Perm (ids.map fun id => (id, weight)) := by
  have listed :=
    entries_foldl_perm weight nodup ∅ fun id _ => List.not_mem_nil
  exact listed

theorem uniform_ids_perm
    {ids : List String}
    (nodup : ids.Nodup)
    (weight : Int) :
    (uniform ids weight).ids.Perm ids := by
  have listed := (uniform_perm nodup weight).map Prod.fst
  have firsts : (ids.map fun id => (id, weight)).map Prod.fst = ids := by
    simp [Function.comp_def]
  rwa [firsts] at listed

theorem uniform_values
    {ids : List String}
    (nodup : ids.Nodup)
    (weight : Int) :
    ∀ value ∈ (uniform ids weight).values, value = weight := by
  intro value member
  have listed := ((uniform_perm nodup weight).map Prod.snd).mem_iff.1 member
  simp only [List.map_map, List.mem_map, Function.comp_apply] at listed
  rcases listed with ⟨_, _, rfl⟩
  rfl

/-- A uniform form is the weight times the sum of the values. -/
theorem form_uniform
    {ids : List String}
    (nodup : ids.Nodup)
    (weight : Int)
    (value : String → Int) :
    (uniform ids weight).form value = weight * (ids.map value).sum := by
  have terms : weighted (ids.map fun id => (id, weight)) value =
      (ids.map fun id => weight * value id).sum := by
    rw [weighted, List.map_map]
    rfl
  rw [form, weighted_perm (uniform_perm nodup weight), terms,
    List.sum_map_mul_left]

theorem dropZeros_uniform
    {ids : List String}
    (nodup : ids.Nodup)
    {weight : Int}
    (nonzero : weight ≠ 0) :
    (uniform ids weight).dropZeros = uniform ids weight := by
  apply Coefficients.ext
  unfold dropZeros
  dsimp only
  rw [List.filter_eq_self]
  intro entry member
  have value :=
    uniform_values nodup weight entry.2 (List.mem_map_of_mem member)
  simpa [value] using nonzero

end Configurator.Linear.Coefficients

namespace Configurator.Logic

theorem Limit.weight_ne_zero (limit : Limit) : limit.weight ≠ 0 := by
  cases limit with
  | least => decide
  | greatest => decide

namespace Constraint

open Configurator.Linear

theorem firstRepeated?_eq_none_iff
    {seen ids : List String} :
    firstRepeated? seen ids = none ↔
      (∀ id ∈ ids, id ∉ seen) ∧ ids.Nodup := by
  induction ids generalizing seen with
  | nil => simp [firstRepeated?]
  | cons id rest ih =>
      simp only [firstRepeated?]
      by_cases known : id ∈ seen
      · simp [known]
      · rw [if_neg known, ih, List.nodup_cons]
        simp only [List.mem_cons, not_or]
        constructor
        · rintro ⟨separate, nodup⟩
          refine ⟨?_, fun member => (separate id member).1 rfl, nodup⟩
          rintro other (rfl | member)
          · exact known
          · exact (separate other member).2
        · rintro ⟨separate, absent, nodup⟩
          refine ⟨fun other member => ⟨?_, separate other (Or.inr member)⟩,
            nodup⟩
          intro same
          exact absent (same ▸ member)

/--
The operands of a cardinality constraint are distinct, and the count lies
among them.
-/
theorem checkCardinality_eq_ok_iff
    {ids : List String}
    {bound : Int} :
    checkCardinality ids bound = .ok () ↔
      ids ≠ [] ∧ ids.Nodup ∧ 0 ≤ bound ∧ bound ≤ ids.length := by
  simp only [checkCardinality]
  constructor
  · intro checked
    split at checked
    · cases checked
    · rename_i some
      split at checked
      · cases checked
      · rename_i inside
        split at checked
        · cases checked
        · rename_i unrepeated
          have nodup := (firstRepeated?_eq_none_iff.1 unrepeated).2
          refine ⟨?_, nodup, ?_, ?_⟩
          · simpa using some
          · omega
          · omega
  · rintro ⟨nonempty, nodup, least, greatest⟩
    have unrepeated : firstRepeated? [] ids = none :=
      firstRepeated?_eq_none_iff.2 ⟨fun _ _ => List.not_mem_nil, nodup⟩
    rw [if_neg (by simpa using nonempty), if_neg (by omega), unrepeated]

/-- The constraint that so many of the ids hold, by its form and bias. -/
def uniform (ids : List String) (weight bias : Int) : Constraint :=
  let form := Coefficients.uniform ids weight
  ⟨contentId form bias, ⟨form, bias⟩⟩

theorem ofForm_uniform
    {ids : List String}
    (nodup : ids.Nodup)
    {weight : Int}
    (nonzero : weight ≠ 0)
    (bias : Int) :
    ofForm (Coefficients.uniform ids weight) bias =
      uniform ids weight bias := by
  simp only [ofForm, uniform]
  rw [Coefficients.dropZeros_uniform nodup nonzero]

theorem cardinality_eq_ok_iff
    {limit : Limit}
    {ids : List String}
    {bound : Int}
    {constraint : Constraint} :
    cardinality limit ids bound = .ok constraint ↔
      ids ≠ [] ∧
      ids.Nodup ∧
      0 ≤ bound ∧
      bound ≤ ids.length ∧
      constraint = uniform ids limit.weight (limit.bias bound) := by
  have nonzero := limit.weight_ne_zero
  simp only [cardinality, bind_eq_ok_iff]
  constructor
  · rintro ⟨_, checked, finished⟩
    obtain ⟨nonempty, nodup, least, greatest⟩ :=
      checkCardinality_eq_ok_iff.1 checked
    cases finished
    exact ⟨nonempty, nodup, least, greatest, ofForm_uniform nodup nonzero _⟩
  · rintro ⟨nonempty, nodup, least, greatest, rfl⟩
    refine ⟨(),
      checkCardinality_eq_ok_iff.2 ⟨nonempty, nodup, least, greatest⟩, ?_⟩
    rw [ofForm_uniform nodup nonzero]
    rfl

theorem mem_operands_uniform
    {ids : List String}
    (nodup : ids.Nodup)
    (weight bias : Int)
    {id : String} :
    id ∈ (uniform ids weight bias).operands ↔ id ∈ ids :=
  (Coefficients.uniform_ids_perm nodup weight).mem_iff

theorem holds_uniform
    {ids : List String}
    (nodup : ids.Nodup)
    (weight bias : Int)
    (value : String → Int) :
    (uniform ids weight bias).row.Holds value ↔
      0 ≤ weight * (ids.map value).sum + bias := by
  simp only [Inequality.Holds, uniform]
  rw [Coefficients.form_uniform nodup]

private theorem uniform_nonempty
    {ids : List String}
    (nonempty : ids ≠ [])
    (nodup : ids.Nodup)
    (weight : Int) :
    (Coefficients.uniform ids weight).ids ≠ [] := by
  intro empty
  have permuted := Coefficients.uniform_ids_perm nodup weight
  rw [empty] at permuted
  exact nonempty permuted.nil_eq.symm

/--
That at least, or at most, so many of the ids hold are the two kinds of such
constraints.
-/
theorem cardinality_of_made
    {ids : List String}
    {bound : Int}
    {constraint : Constraint}
    (made :
      atLeast ids bound = .ok constraint ∨
      atMost ids bound = .ok constraint) :
    ∃ limit, cardinality limit ids bound = .ok constraint := by
  rcases made with enough | few
  · exact ⟨.least, enough⟩
  · exact ⟨.greatest, few⟩

/--
How many of the ids hold makes a cardinality constraint with a bound that
they can reach.
-/
theorem isCardinality_uniform
    (limit : Limit)
    {ids : List String}
    {bound : Int}
    (nonempty : ids ≠ [])
    (nodup : ids.Nodup)
    (least : 0 ≤ bound)
    (greatest : bound ≤ ids.length) :
    (uniform ids limit.weight (limit.bias bound)).IsCardinality := by
  have count := (Coefficients.uniform_ids_perm nodup limit.weight).length_eq
  have values := Coefficients.uniform_values nodup limit.weight
  refine ⟨uniform_nonempty nonempty nodup limit.weight, ?_⟩
  simp only [uniform, count]
  cases limit with
  | least =>
      exact Or.inl
        ⟨values, Int.neg_le_neg greatest, Int.neg_nonpos_of_nonneg least⟩
  | greatest => exact Or.inr ⟨values, least, greatest⟩

theorem isCardinality_of_made
    {limit : Limit}
    {ids : List String}
    {bound : Int}
    {constraint : Constraint}
    (made : cardinality limit ids bound = .ok constraint) :
    constraint.IsCardinality := by
  obtain ⟨nonempty, nodup, least, greatest, rfl⟩ :=
    cardinality_eq_ok_iff.1 made
  exact isCardinality_uniform limit nonempty nodup least greatest

end Constraint

end Configurator.Logic
