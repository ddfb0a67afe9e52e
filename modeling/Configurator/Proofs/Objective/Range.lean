import Configurator.Proofs.Objective.Dominance

/-!
# Objectives fit into words

Deriving weights checks that the threshold below the targets and the sums
above each of them are words.  With that the magnitudes of all weights that
count at an assignment add up to a word, as long as at most one period is
active, so the objective of such an assignment can be computed.
-/

namespace Configurator.Objective

open Configurator.Arithmetic Configurator.Collection Configurator.Linear
  Configurator.Request

variable {config : WeightConfig} {value : String → Int}

/-- No weight below the targets is positive. -/
theorem lowerEntries_nonpositive
    {inputs : WeightInputs}
    {preferredWeight : Int}
    (weightNonpositive : preferredWeight ≤ 0)
    (nonpositive : config.notSelected ≤ 0)
    (factor : 0 ≤ config.periodFactor) :
    ∀ entry ∈ lowerEntries inputs config preferredWeight, entry.2 ≤ 0 := by
  have step := config.step_nonpositive nonpositive factor
  intro entry member
  simp only [lowerEntries, List.mem_append, List.mem_map] at member
  rcases member with (⟨_, _, rfl⟩ | ⟨_, _, rfl⟩) | period
  · exact nonpositive
  · exact weightNonpositive
  · exact ((stepped_bounded step inputs.periods).2 entry period).2

/-- A column that belongs to no target has no positive weight. -/
theorem weight_nonpositive
    {inputs : WeightInputs}
    {weights : Weights}
    (derived : Weights.derive inputs config = .ok weights)
    (nonpositive : config.notSelected ≤ 0)
    (factor : 0 ≤ config.periodFactor)
    {id : String}
    (untargeted : ∀ target ∈ inputs.targets, target.column ≠ id) :
    (weights.values.get? id).getD 0 ≤ 0 := by
  rcases derive_eq_ok_iff.1 derived with ⟨_, valuesEq, _⟩
  cases found : weights.values.get? id with
  | none => exact Int.le_refl 0
  | some weight =>
      rw [← OrderedMap.mem_entries, valuesEq] at found
      rcases List.mem_append.1
          (OrderedMap.mem_of_mem_entries_ofList found) with
        lower | target
      · exact lowerEntries_nonpositive
          (inputs.preferredWeight_nonpositive nonpositive) nonpositive
          factor _ lower
      · rcases exists_target_of_mem_weighedTargets target with
          ⟨other, otherMember, same⟩
        exact absurd same (untargeted other otherMember)

/-- Every target doubles what is below it. -/
theorem load_weighedTargets_le
    (binary : ∀ id, value id = 0 ∨ value id = 1)
    {below : Int}
    (nonnegative : 0 ≤ below)
    (targets : List Target) :
    below + load (weighedTargets below targets) value ≤
      (below + 1) * 2 ^ targets.length - 1 := by
  induction targets generalizing below with
  | nil =>
      rw [weighedTargets, List.zipIdx_nil, List.map_nil, load_nil]
      simp
  | cons target rest ih =>
      have above := @ih (below + (below + 1)) (by omega)
      have here :
          ((if target.action.isAdd then below + 1 else -(below + 1)) *
            value target.column).natAbs ≤
            (below + 1).natAbs := by
        have size :
            (if target.action.isAdd then below + 1
              else -(below + 1)).natAbs =
              (below + 1).natAbs := by
          split
          · rfl
          · exact Int.natAbs_neg _
        rcases binary target.column with zero | one
        · rw [zero, Int.mul_zero]
          exact Nat.zero_le _
        · rw [one, Int.mul_one, size]
      rw [weighedTargets_cons, load_cons, Nat.cast_add, doubled_cons]
      dsimp only
      omega

/-- The weights that count at an assignment add up to a word. -/
theorem load_weights_le
    {inputs : WeightInputs}
    {weights : Weights}
    (derived : Weights.derive inputs config = .ok weights)
    (nonpositive : config.notSelected ≤ 0)
    (factor : 0 ≤ config.periodFactor)
    (nodup : inputs.periods.Nodup)
    (binary : ∀ id, value id = 0 ∨ value id = 1)
    (single : AtMostOne value inputs.periods) :
    load weights.values.entries value ≤ 9223372036854775807 := by
  rcases derive_eq_ok_iff.1 derived with ⟨representable, valuesEq, _⟩
  have bounds := levelEntries_bounds binary nonpositive factor single
  rw [← WeightInputs.lowerEntries_eq nodup] at bounds
  have lower :
      (load (lowerEntries inputs config (inputs.preferredWeight config))
        value :
        Int) =
        -weighted
          (lowerEntries inputs config (inputs.preferredWeight config))
          value := by
    apply load_of_nonpositive (lowerEntries_nonpositive
      (inputs.preferredWeight_nonpositive nonpositive) nonpositive factor)
    intro id
    rcases binary id with zero | one
    · exact zero.ge
    · rw [one]
      exact Int.one_nonneg
  have nonnegative := inputs.threshold_nonnegative nonpositive factor
  have upper := load_weighedTargets_le binary nonnegative inputs.targets
  have greatest := representable.targets.2
  have whole := load_ofList_le (inputs.entries config) value
  rw [← valuesEq, WeightInputs.entries, load_append] at whole
  simp only [greatestWord] at greatest
  omega

end Configurator.Objective
