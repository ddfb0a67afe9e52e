import Configurator.Proofs.Objective.Ranking

/-!
# The limits of derived weights

A derivation ends in one of three ways: with weights that are all words,
with the report of a weight, or, only where one of two particular numbers
leaves the range, with a fault.  With the default constants the weights have
a simple closed form, and the number of selections that still fit depends on
the other columns through one threshold.
-/

namespace Configurator.Objective

open Configurator.Arithmetic Configurator.Collection Configurator.Request

variable {config : WeightConfig}

/-! ## Overflow -/

/--
Overflow is reported as an error, two computations apart.  A derivation
faults exactly if the sum of the penalties is the least word, or the step
between periods is no word and nothing is reported before it.  It returns
exactly if all numbers that it computes are words, and then so are its
weights.  Otherwise it is refused with the report of a weight.
-/
theorem derive_reports_overflow
    (inputs : WeightInputs)
    (config : WeightConfig) :
    ((∃ fault, Weights.derive inputs config = .error (.fault fault)) ↔
      config.notSelected * inputs.uncovered.length = leastWord ∨
      IsWord (config.notSelected * inputs.uncovered.length) ∧
      IsWord
        (inputs.preferredWeight config * inputs.preferred.toList.length) ∧
      ¬ IsWord (config.notSelected * config.periodFactor)) ∧
    ((∃ weights, Weights.derive inputs config = .ok weights) ↔
      inputs.Representable config) ∧
    ((∃ fault, Weights.derive inputs config = .error (.fault fault)) ∨
      (∃ weights,
        Weights.derive inputs config = .ok weights ∧
        ∀ entry ∈ weights.values.entries, IsWord entry.2) ∨
      ∃ id weight,
        Weights.derive inputs config =
          .error
            (.error
              (.weightSaturated id weight
                config.saturationThreshold))) := by
  refine ⟨?_, exists_derive_iff, ?_⟩
  · constructor
    · rintro ⟨fault, faulty⟩
      exact (derive_eq_fault_iff.1 faulty).1
    · intro outside
      exact ⟨.overflow, derive_eq_fault_iff.2 ⟨outside, rfl⟩⟩
  · rcases derive_cases inputs config with
      ⟨fits, weights, derived⟩ | ⟨_, faulty⟩ |
        ⟨_, ⟨id, weight, rfl⟩, refused⟩
    · refine Or.inr (Or.inl ⟨weights, derived, fun entry member => ?_⟩)
      rw [(derive_eq_ok_iff.1 derived).2.1] at member
      exact fits.isWord entry (OrderedMap.mem_of_mem_entries_ofList member)
    · exact Or.inl ⟨.overflow, faulty⟩
    · exact Or.inr (Or.inr ⟨id, weight, refused⟩)

/--
With the least word as a penalty, and with a step of two large words, a
derivation faults.
-/
theorem derive_faults_unreported :
    (∀ number ∈ [leastWord, 0, 4611686018427387904, 2, 36028797018963968],
      IsWord number) ∧
    Weights.derive ⟨OrderedSet.ofList ["a"], ∅, ∅, [], []⟩
        { notSelected := leastWord, periodFactor := 0 } =
      .error (.fault .overflow) ∧
    Weights.derive ⟨∅, ∅, ∅, ["period_0"], []⟩
        { notSelected := 4611686018427387904, periodFactor := 2 } =
      .error (.fault .overflow) := by
  decide

/-! ## The closed form of the default weights -/

namespace WeightInputs

/--
The sum of the magnitudes of all default weights of preferred supports.
-/
def preferenceLoad (inputs : WeightInputs) : Nat :=
  if 0 < inputs.uncovered.length then
    inputs.preferred.size * (2 * inputs.uncovered.length + 1)
  else 0

/-- The magnitude of the default weight of the last period. -/
def periodLoad (inputs : WeightInputs) : Nat :=
  if 0 < inputs.periods.length then 12 * (inputs.periods.length - 1) else 0

/--
What the columns below the targets can take away together, with the default
constants.
-/
def defaultThreshold (inputs : WeightInputs) : Nat :=
  2 * inputs.uncovered.length + inputs.preferenceLoad + inputs.periodLoad

variable {inputs : WeightInputs}

theorem preferredWeight_default
    (inputs : WeightInputs) :
    inputs.preferredWeight {} =
      if 0 < inputs.uncovered.length then
        -(2 * (inputs.uncovered.length : Int) + 1)
      else 0 := by
  simp only [preferredWeight]
  split
  · split
    · omega
    · rfl
  · split
    · omega
    · omega

theorem preferences_default
    (inputs : WeightInputs) :
    inputs.preferredWeight {} * inputs.preferred.toList.length =
      -inputs.preferenceLoad := by
  rw [preferredWeight_default, preferenceLoad, OrderedSet.size]
  split
  · push_cast
    ring
  · simp

theorem lastWeight_default
    (inputs : WeightInputs) :
    lastWeight (-12) inputs.periods = -inputs.periodLoad := by
  rw [lastWeight_eq, periodLoad]
  split
  · omega
  · omega

theorem threshold_default
    (inputs : WeightInputs) :
    inputs.threshold {} = inputs.defaultThreshold := by
  have step :
      ({} : WeightConfig).notSelected * ({} : WeightConfig).periodFactor =
        -12 :=
    rfl
  rw [threshold, preferences_default, step, lastWeight_default,
    defaultThreshold]
  dsimp only
  omega

/--
While what is below the targets fits, a derivation with the default
constants has weights exactly if all targets fit.
-/
theorem representable_default_iff
    (small : inputs.defaultThreshold ≤ 9223372036854775807) :
    inputs.Representable {} ↔
      (inputs.defaultThreshold + 1) * 2 ^ inputs.targets.length ≤
        2 ^ 63 := by
  have greatest :
      IsWord ((inputs.threshold {} + 1) * 2 ^ inputs.targets.length - 1) ↔
        (inputs.defaultThreshold + 1) * 2 ^ inputs.targets.length ≤
          2 ^ 63 := by
    rw [threshold_default, IsWord, leastWord, greatestWord]
    have cast :
        ((inputs.defaultThreshold : Int) + 1) * 2 ^ inputs.targets.length =
          ((inputs.defaultThreshold + 1) * 2 ^ inputs.targets.length :
            Nat) := by
      push_cast
      rfl
    rw [cast]
    omega
  constructor
  · intro fits
    exact greatest.1 fits.targets
  · intro fits
    have step :
        ({} : WeightConfig).notSelected * ({} : WeightConfig).periodFactor =
          -12 :=
      rfl
    have penalties :
        ({} : WeightConfig).notSelected * (inputs.uncovered.length : Int) =
          -(2 * inputs.uncovered.length) :=
      Int.neg_mul 2 _
    have preferred := inputs.preferredWeight_default
    have preferences := inputs.preferences_default
    have lastPeriod := inputs.lastWeight_default
    have threshold := inputs.threshold_default
    rw [defaultThreshold] at small threshold
    constructor
    case preferred =>
      apply isWord_of_natAbs_le
      split at preferred
      · omega
      · omega
    case step => decide
    case lastPeriod =>
      rw [step, lastPeriod]
      exact isWord_of_natAbs_le (by omega)
    case targets => exact greatest.2 fits
    all_goals exact isWord_of_natAbs_le (by omega)

theorem not_leavesRange_default
    (small : inputs.defaultThreshold ≤ 9223372036854775807) :
    ¬ inputs.LeavesRange {} := by
  rw [defaultThreshold] at small
  rintro (least | ⟨_, _, step⟩)
  · simp only [leastWord] at least
    omega
  · exact step (by decide)

end WeightInputs

/--
A saturated weight is reported exactly if some magnitude exceeds the
threshold.
-/
theorem firstSaturated?_isSome_iff
    {values : OrderedMap String Int} :
    (firstSaturated? config values).isSome ↔
      ∃ id weight,
        values.get? id = some weight ∧
        config.saturationThreshold.natAbs < weight.natAbs := by
  simp only [firstSaturated?, List.isSome_findSome?]
  rw [List.any_eq_true]
  constructor
  · rintro ⟨⟨id, weight⟩, member, reported⟩
    refine ⟨id, weight, OrderedMap.mem_entries.1 member, ?_⟩
    by_contra small
    simp [small] at reported
  · rintro ⟨id, weight, found, large⟩
    exact ⟨(id, weight), OrderedMap.mem_entries.2 found, by simp [large]⟩

/-- If all columns are different, each has the weight of its entry. -/
theorem entries_of_distinct
    {inputs : WeightInputs}
    {weights : Weights}
    (derived : Weights.derive inputs config = .ok weights)
    (distinct : inputs.columns.Nodup) :
    weights.values.entries = inputs.entries config := by
  rw [(derive_eq_ok_iff.1 derived).2.1]
  apply OrderedMap.entries_ofList
  rwa [inputs.map_fst_entries]

/--
With the default constants the weights are exact, and so is their limit.
While what is below the targets fits into a word, a derivation returns
weights exactly if the threshold above all targets does, and is refused with
the report of a weight otherwise.  If all columns are different, each has
the weight of its level, and a weight is reported as saturated exactly if
some magnitude exceeds the default threshold.
-/
theorem derive_default
    (inputs : WeightInputs)
    (small : (inputs.defaultThreshold : Int) ≤ greatestWord) :
    ((∃ weights, Weights.derive inputs {} = .ok weights) ↔
      (inputs.defaultThreshold + 1) * 2 ^ inputs.targets.length ≤ 2 ^ 63) ∧
    (¬ (inputs.defaultThreshold + 1) * 2 ^ inputs.targets.length ≤ 2 ^ 63 →
      ∃ id weight,
        Weights.derive inputs {} =
          .error (.error (.weightSaturated id weight (2 ^ 55)))) ∧
    ∀ weights,
      Weights.derive inputs {} = .ok weights →
      (inputs.columns.Nodup →
        weights.values.keys = inputs.columns ∧
        (∀ id ∈ inputs.uncovered, weights.values.get? id = some (-2)) ∧
        (∀ id ∈ inputs.preferred,
          weights.values.get? id =
            some
              (if 0 < inputs.uncovered.length then
                -(2 * (inputs.uncovered.length : Int) + 1)
              else 0)) ∧
        (∀ (index : Nat) (id : String),
          inputs.periods[index]? = some id →
          weights.values.get? id = some (-12 * (index : Int))) ∧
        ∀ (index : Nat) (target : Target),
          inputs.targets[index]? = some target →
          weights.values.get? target.column =
            some
              (if target.action = .add then
                ((inputs.defaultThreshold : Int) + 1) * 2 ^ index
              else -(((inputs.defaultThreshold : Int) + 1) * 2 ^ index))) ∧
      (weights.saturated.isSome ↔
        ∃ id weight,
          weights.values.get? id = some weight ∧
          2 ^ 55 < weight.natAbs) := by
  have fits : inputs.defaultThreshold ≤ 9223372036854775807 := by
    rw [greatestWord] at small
    exact_mod_cast small
  have limit := WeightInputs.representable_default_iff fits
  refine ⟨?_, ?_, fun weights derived => ⟨fun distinct => ?_, ?_⟩⟩
  · exact exists_derive_iff.trans limit
  · intro exceeded
    rcases derive_cases inputs {} with
      ⟨representable, _⟩ | ⟨outside, _⟩ | ⟨_, ⟨id, weight, rfl⟩, refused⟩
    · exact absurd (limit.1 representable) exceeded
    · exact absurd outside (WeightInputs.not_leavesRange_default fits)
    · exact ⟨id, weight, refused⟩
  · have listed := entries_of_distinct derived distinct
    have weighs :
        ∀ entry ∈ inputs.entries {},
          weights.values.get? entry.1 = some entry.2 :=
      fun entry member => OrderedMap.mem_entries.1 (listed ▸ member)
    simp only [WeightInputs.entries, lowerEntries, List.mem_append]
      at weighs
    refine ⟨?_, ?_, ?_, ?_, ?_⟩
    · rw [OrderedMap.keys, listed, inputs.map_fst_entries]
    · intro id uncovered
      exact weighs (id, -2)
        (Or.inl (Or.inl (Or.inl (List.mem_map_of_mem uncovered))))
    · intro id preferred
      rw [← inputs.preferredWeight_default]
      exact weighs (id, inputs.preferredWeight {})
        (Or.inl (Or.inl (Or.inr (List.mem_map_of_mem preferred))))
    · intro index id found
      have period := List.mem_map_of_mem (f := fun indexed : String × Nat =>
        (indexed.1, (indexed.2 : Int) * -12))
          (List.mk_mem_zipIdx_iff_getElem?.2 found)
      rw [Int.mul_comm]
      exact weighs _ (Or.inl (Or.inr period))
    · intro index target found
      have entry := List.mem_map_of_mem (f := fun indexed : Target × Nat =>
        (indexed.1.column,
          indexed.1.weightAbove (inputs.threshold {}) indexed.2))
        (List.mk_mem_zipIdx_iff_getElem?.2 found)
      rw [weighs _ (Or.inr entry), Target.weightAbove,
        WeightInputs.threshold_default, Int.mul_comm]
      cases target.action with
      | add => rfl
      | remove => rfl
  · rw [(derive_eq_ok_iff.1 derived).2.2]
    exact firstSaturated?_isSome_iff

/--
Above a threshold of 17 there is room for 58 selections, and not for one
more.
-/
theorem derive_default_mixed :
    (∃ weights,
      Weights.derive mixedInputs {} = .ok weights ∧
      weights.values.get? "c" = some (-2) ∧
      weights.values.get? "n" = some (-3) ∧
      weights.values.get? "period_1" = some (-12) ∧
      weights.values.get? "a" = some 18 ∧
      weights.values.get? "b" = some (-36)) ∧
    (∃ weights,
      Weights.derive
          { mixedInputs with targets := List.replicate 58 ⟨"a", .add⟩ } {} =
        .ok weights) ∧
    ∃ id weight,
      Weights.derive
          { mixedInputs with targets := List.replicate 59 ⟨"a", .add⟩ } {} =
        .error (.error (.weightSaturated id weight (2 ^ 55))) := by
  refine ⟨?_, ?_, ?_⟩
  · obtain ⟨returned, _, exactly⟩ := derive_default mixedInputs (by decide)
    obtain ⟨weights, derived⟩ := returned.2 (by decide)
    obtain ⟨columns, _⟩ := exactly weights derived
    obtain ⟨_, uncovered, preferred, periods, targets⟩ :=
      columns (by decide)
    exact ⟨weights, derived, uncovered "c" (by decide),
      preferred "n" (by decide), periods 1 "period_1" rfl,
      targets 0 ⟨"a", .add⟩ rfl, targets 1 ⟨"b", .remove⟩ rfl⟩
  · exact (derive_default
            { mixedInputs with targets := List.replicate 58 ⟨"a", .add⟩ }
            (by decide)).1.2 (by decide)
  · exact (derive_default
            { mixedInputs with targets := List.replicate 59 ⟨"a", .add⟩ }
            (by decide)).2.1 (by decide)

end Configurator.Objective
