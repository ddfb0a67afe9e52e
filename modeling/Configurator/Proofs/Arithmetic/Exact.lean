import Configurator.Arithmetic.Word
import Configurator.Proofs.Outcome
import Mathlib.Algebra.BigOperators.Group.List.Basic
import Mathlib.Algebra.Order.BigOperators.Group.List
import Mathlib.Algebra.Order.Group.Unbundled.Int
import Mathlib.Tactic.Ring

/-!
# Exact sums and inner products

Sums and inner products of words fault as soon as a partial result leaves
the range of a word.  This module relates them to exact sums of whole
numbers in both directions: a result that is returned is the exact one, and
a result is returned whenever the magnitudes of all terms add up to a word.
A fault of a sum is always an overflow.
-/

namespace Configurator

namespace Arithmetic

/-- The sum of the magnitudes of the terms. -/
def magnitude (terms : List Int) : Nat :=
  (terms.map Int.natAbs).sum

/-- The exact inner product of two lists, up to the shorter one. -/
def inner (lefts rights : List Int) : Int :=
  (List.zipWith (· * ·) lefts rights).sum

@[simp]
theorem magnitude_nil : magnitude [] = 0 :=
  rfl

@[simp]
theorem magnitude_cons
    (term : Int)
    (rest : List Int) :
    magnitude (term :: rest) = term.natAbs + magnitude rest := by
  simp [magnitude]

/-- The check of a number faults exactly if it is not a word. -/
theorem word_eq_error_iff
    {number : Int}
    {fault : Fault} :
    word number = .error fault ↔ ¬ IsWord number ∧ fault = .overflow := by
  by_cases inRange : IsWord number
  · simp [word, inRange]
  · simp [word, inRange, eq_comm]

theorem isWord_of_natAbs_le
    {number : Int}
    (small : number.natAbs ≤ 9223372036854775807) :
    IsWord number := by
  simp only [IsWord, leastWord, greatestWord]
  omega

theorem word_of_natAbs_le
    {number : Int}
    (small : number.natAbs ≤ 9223372036854775807) :
    word number = .ok number :=
  word_eq_ok_iff.2 ⟨isWord_of_natAbs_le small, rfl⟩

private theorem sum_of_steps
    {terms : List Int}
    {start sum : Int}
    (computed :
      terms.foldlM (fun partialSum term => word (partialSum + term)) start =
        .ok sum) :
    sum = start + terms.sum := by
  induction terms generalizing start with
  | nil =>
      rw [List.foldlM_nil] at computed
      cases computed
      simp
  | cons term rest ih =>
      rw [List.foldlM_cons, bind_eq_ok_iff] at computed
      rcases computed with ⟨next, step, others⟩
      rcases word_eq_ok_iff.1 step with ⟨_, rfl⟩
      rw [ih others, List.sum_cons, Int.add_assoc]

private theorem steps_of_small
    {terms : List Int}
    {start : Int}
    (small : start.natAbs + magnitude terms ≤ 9223372036854775807) :
    terms.foldlM (fun partialSum term => word (partialSum + term)) start =
      .ok (start + terms.sum) := by
  induction terms generalizing start with
  | nil => simp [pure, Except.pure]
  | cons term rest ih =>
      rw [magnitude_cons] at small
      have grown : (start + term).natAbs ≤ start.natAbs + term.natAbs :=
        Int.natAbs_add_le start term
      have step : word (start + term) = .ok (start + term) :=
        word_of_natAbs_le (by omega)
      rw [List.foldlM_cons, bind_eq_ok_iff]
      refine ⟨start + term, step, ?_⟩
      rw [ih (by omega), List.sum_cons, Int.add_assoc]

/-- A sum that is returned is exact. -/
theorem total_eq_ok
    {terms : List Int}
    {sum : Int}
    (computed : total terms = .ok sum) :
    sum = terms.sum := by
  have exact := sum_of_steps computed
  rwa [Int.zero_add] at exact

/-- A sum is returned if the magnitudes of the terms add up to a word. -/
theorem total_of_small
    {terms : List Int}
    (small : magnitude terms ≤ 9223372036854775807) :
    total terms = .ok terms.sum := by
  have steps := @steps_of_small terms 0 (by simpa using small)
  rwa [Int.zero_add] at steps

/-- A sum that is returned is a word. -/
theorem isWord_of_total
    {terms : List Int}
    {sum : Int}
    (computed : total terms = .ok sum) :
    IsWord sum := by
  refine invariant_of_foldlM IsWord (by decide) ?_ computed
  intro term _ partialSum next _ step
  rcases word_eq_ok_iff.1 step with ⟨small, rfl⟩
  exact small

/-- Terms that are not negative have their sum as their magnitude. -/
theorem magnitude_of_nonneg
    {terms : List Int}
    (nonneg : ∀ term ∈ terms, 0 ≤ term) :
    (magnitude terms : Int) = terms.sum := by
  induction terms with
  | nil => rfl
  | cons term rest ih =>
      have others :=
        ih fun other member => nonneg other (List.mem_cons_of_mem _ member)
      have here := nonneg term List.mem_cons_self
      rw [magnitude_cons, List.sum_cons]
      omega

/--
Terms that are not positive have their opposite sum as their magnitude.
-/
theorem magnitude_of_nonpos
    {terms : List Int}
    (nonpos : ∀ term ∈ terms, term ≤ 0) :
    (magnitude terms : Int) = -terms.sum := by
  induction terms with
  | nil => rfl
  | cons term rest ih =>
      have others :=
        ih fun other member => nonpos other (List.mem_cons_of_mem _ member)
      have here := nonpos term List.mem_cons_self
      rw [magnitude_cons, List.sum_cons]
      omega

theorem natAbs_le_magnitude
    {terms : List Int}
    {term : Int}
    (member : term ∈ terms) :
    term.natAbs ≤ magnitude terms :=
  List.single_le_sum (fun _ _ => Nat.zero_le _) _
    (List.mem_map_of_mem member)

/-- Products that are returned are exact. -/
theorem products_eq_ok
    {lefts rights results : List Int}
    (computed : products lefts rights = .ok results) :
    results = List.zipWith (· * ·) lefts rights := by
  induction lefts generalizing rights results with
  | nil =>
      cases computed
      rfl
  | cons left lefts ih =>
      cases rights with
      | nil =>
          cases computed
          rfl
      | cons right rights =>
          simp only [products, bind_eq_ok_iff, word_eq_ok_iff] at computed
          rcases computed with ⟨_, ⟨_, rfl⟩, rest, others, finished⟩
          cases finished
          rw [List.zipWith_cons_cons, ih others]

/-- An inner product that is returned is exact. -/
theorem dot_eq_ok
    {lefts rights : List Int}
    {value : Int}
    (computed : dot lefts rights = .ok value) :
    value = inner lefts rights := by
  simp only [dot, bind_eq_ok_iff] at computed
  rcases computed with ⟨terms, multiplied, summed⟩
  rw [total_eq_ok summed, products_eq_ok multiplied, inner]

/-- All entries are zero or one. -/
def IsBinary (point : List Int) : Prop :=
  ∀ entry ∈ point, entry = 0 ∨ entry = 1

instance (point : List Int) : Decidable (IsBinary point) :=
  inferInstanceAs (Decidable (∀ entry ∈ point, entry = 0 ∨ entry = 1))

private theorem products_of_small
    {lefts rights : List Int}
    (small :
      magnitude (List.zipWith (· * ·) lefts rights) ≤ 9223372036854775807) :
    products lefts rights = .ok (List.zipWith (· * ·) lefts rights) := by
  induction lefts generalizing rights with
  | nil => rfl
  | cons left lefts ih =>
      cases rights with
      | nil => rfl
      | cons right rights =>
          rw [List.zipWith_cons_cons, magnitude_cons] at small
          simp only [products, bind_eq_ok_iff, List.zipWith_cons_cons]
          exact ⟨left * right, word_of_natAbs_le (by omega), _,
            ih (by omega), rfl⟩

/--
The inner product is returned if the magnitudes of all products add up to a
word.
-/
theorem dot_of_small
    {lefts rights : List Int}
    (small :
      magnitude (List.zipWith (· * ·) lefts rights) ≤ 9223372036854775807) :
    dot lefts rights = .ok (inner lefts rights) := by
  simp only [dot, bind_eq_ok_iff]
  exact ⟨_, products_of_small small, total_of_small small⟩

private theorem magnitude_products_le
    {lefts rights : List Int}
    (binary : IsBinary rights) :
    magnitude (List.zipWith (· * ·) lefts rights) ≤ magnitude lefts := by
  induction lefts generalizing rights with
  | nil => exact Nat.le_refl _
  | cons left lefts ih =>
      cases rights with
      | nil => exact Nat.zero_le _
      | cons right rights =>
          have rest := ih fun entry member =>
            binary entry (List.mem_cons_of_mem _ member)
          have shrunk : (left * right).natAbs ≤ left.natAbs := by
            rcases binary right List.mem_cons_self with rfl | rfl
            · simp
            · simp
          rw [List.zipWith_cons_cons, magnitude_cons, magnitude_cons]
          exact Nat.add_le_add shrunk rest

/--
The inner product with a binary point is returned if the magnitudes add up
to a word.
-/
theorem dot_of_binary
    {lefts rights : List Int}
    (binary : IsBinary rights)
    (small : magnitude lefts ≤ 9223372036854775807) :
    dot lefts rights = .ok (inner lefts rights) :=
  dot_of_small (Nat.le_trans (magnitude_products_le binary) small)

/-! ## Overflow is the only fault -/

theorem total_eq_error
    {terms : List Int}
    {fault : Fault}
    (failed : total terms = .error fault) :
    fault = .overflow := by
  obtain ⟨term, _, partialSum, step⟩ := exists_of_foldlM_eq_error failed
  exact (word_eq_error_iff.1 step).2

theorem products_eq_error
    {lefts rights : List Int}
    {fault : Fault}
    (failed : products lefts rights = .error fault) :
    fault = .overflow := by
  induction lefts generalizing rights with
  | nil => cases failed
  | cons left lefts ih =>
      cases rights with
      | nil => cases failed
      | cons right rights =>
          simp only [products, bind_eq_error_iff] at failed
          rcases failed with here | ⟨_, _, later | ⟨_, _, finished⟩⟩
          · exact (word_eq_error_iff.1 here).2
          · exact ih later
          · cases finished

theorem dot_eq_error
    {lefts rights : List Int}
    {fault : Fault}
    (failed : dot lefts rights = .error fault) :
    fault = .overflow := by
  simp only [dot, bind_eq_error_iff] at failed
  rcases failed with multiplied | ⟨_, _, summed⟩
  · exact products_eq_error multiplied
  · exact total_eq_error summed

end Arithmetic

end Configurator
