import Configurator.Proofs.Linear.Weighted
import Configurator.Proofs.Objective.Derivation

/-!
# Weights dominate what is below them

The weights below the targets add up to something between a lower bound and
zero, whatever the values are, as long as at most one period is active.
Every target weighs more than the distance between these bounds, which its
weight widens for the targets above it.  So among two assignments that agree
on the later targets, the one that honours a target has the greater score.
-/

namespace Configurator.Objective

open Configurator.Arithmetic Configurator.Collection Configurator.Linear
  Configurator.Request

/-- The column of the target has the value that the target asks for. -/
def Target.Honours (target : Target) (value : String → Int) : Prop :=
  value target.column = if target.action.isAdd then 1 else 0

instance
    (target : Target)
    (value : String → Int) :
    Decidable (target.Honours value) :=
  inferInstanceAs
    (Decidable (value target.column = if target.action.isAdd then 1 else 0))

/--
Zeros and ones that both honour a target, or both do not, are the same.
-/
theorem Target.column_eq_of_honours_iff
    {target : Target}
    {value other : String → Int}
    (valueBinary : value target.column = 0 ∨ value target.column = 1)
    (otherBinary : other target.column = 0 ∨ other target.column = 1)
    (same : target.Honours value ↔ target.Honours other) :
    value target.column = other target.column := by
  simp only [Honours] at same
  cases target.action with
  | add =>
      simp only [Action.isAdd] at same
      omega
  | remove =>
      simp only [Action.isAdd] at same
      omega

/-- No two of the ids have the value one. -/
def AtMostOne (value : String → Int) (ids : List String) : Prop :=
  ∀ left ∈ ids, ∀ right ∈ ids,
    value left = 1 → value right = 1 → left = right

instance
    (value : String → Int)
    (ids : List String) :
    Decidable (AtMostOne value ids) :=
  inferInstanceAs
    (Decidable
      (∀ left ∈ ids, ∀ right ∈ ids,
        value left = 1 → value right = 1 → left = right))

/-- The number of ids that have the value one. -/
def onesAmong (value : String → Int) (ids : List String) : Nat :=
  ids.countP fun id => value id = 1

theorem onesAmong_le
    (value : String → Int)
    (ids : List String) :
    onesAmong value ids ≤ ids.length :=
  List.countP_le_length

variable {config : WeightConfig} {value other : String → Int}

/-! ## Levels -/

namespace WeightInputs

/--
The periods with their weights; a period that is listed twice keeps the
later weight.
-/
def periodEntries
    (inputs : WeightInputs)
    (config : WeightConfig) :
    List (String × Int) :=
  (OrderedMap.ofList
    (stepped (config.notSelected * config.periodFactor)
      inputs.periods)).entries

/-- The entries of the columns below the targets. -/
def levelEntries
    (inputs : WeightInputs)
    (config : WeightConfig) :
    List (String × Int) :=
  inputs.uncovered.map (fun id => (id, config.notSelected)) ++
    inputs.preferred.toList.map
      (fun id => (id, inputs.preferredWeight config)) ++
    inputs.periodEntries config

/-- No column belongs to two levels. -/
structure LevelsApart (inputs : WeightInputs) : Prop where
  /-- Preferred supports are no uncovered ids. -/
  preferred : ∀ id ∈ inputs.preferred, id ∉ inputs.uncovered
  /-- Periods are none of these. -/
  periods :
    ∀ id ∈ inputs.periods, id ∉ inputs.uncovered ∧ id ∉ inputs.preferred
  /-- The columns of the targets are none of all these. -/
  targets : ∀ target ∈ inputs.targets, target.column ∉ inputs.uncovered ∧
    target.column ∉ inputs.preferred ∧ target.column ∉ inputs.periods

end WeightInputs

namespace WeightInputs

variable {inputs : WeightInputs}

theorem mem_periodEntries
    {entry : String × Int}
    (member : entry ∈ inputs.periodEntries config) :
    entry ∈
      stepped (config.notSelected * config.periodFactor) inputs.periods :=
  OrderedMap.mem_of_mem_entries_ofList member

theorem mem_periods_of_mem_periodEntries
    {entry : String × Int}
    (member : entry ∈ inputs.periodEntries config) :
    entry.1 ∈ inputs.periods :=
  mem_periods_of_mem_stepped (mem_periodEntries member)

/-- Periods that are all different have their weights in steps. -/
theorem periodEntries_eq
    (nodup : inputs.periods.Nodup) :
    inputs.periodEntries config =
      stepped (config.notSelected * config.periodFactor) inputs.periods :=
  OrderedMap.entries_ofList (by rwa [map_fst_stepped])

theorem lowerEntries_eq
    (nodup : inputs.periods.Nodup) :
    lowerEntries inputs config (inputs.preferredWeight config) =
      inputs.levelEntries config := by
  rw [lowerEntries, levelEntries, periodEntries_eq nodup]

end WeightInputs

/-! ## Bounds below the targets -/

section Bounds

variable (binary : ∀ id, value id = 0 ∨ value id = 1)

include binary

/-- Equal weights are counted once for each id that has the value one. -/
theorem weighted_uniform
    (weight : Int)
    (ids : List String) :
    weighted (ids.map fun id => (id, weight)) value =
      weight * onesAmong value ids := by
  induction ids with
  | nil => simp [onesAmong]
  | cons id rest ih =>
      simp only [onesAmong] at ih ⊢
      rw [List.map_cons, weighted_cons, ih, List.countP_cons]
      rcases binary id with zero | one
      · simp [zero]
      · simp [one]
        ring

theorem uniform_bounds
    {weight : Int}
    (nonpositive : weight ≤ 0)
    (ids : List String) :
    weight * ids.length ≤ weighted (ids.map fun id => (id, weight)) value ∧
    weighted (ids.map fun id => (id, weight)) value ≤ 0 := by
  have most : (onesAmong value ids : Int) ≤ ids.length := by
    exact_mod_cast onesAmong_le value ids
  rw [weighted_uniform binary]
  exact ⟨Int.mul_le_mul_of_nonpos_left nonpositive most,
    Int.mul_nonpos_of_nonpos_of_nonneg nonpositive (Int.natCast_nonneg _)⟩

/--
If at most one id has the value one, the score is zero or the weight of that
id.
-/
theorem single_bounds
    {entries : List (String × Int)}
    {lower : Int}
    (nonpositive : lower ≤ 0)
    (bounded : ∀ entry ∈ entries, lower ≤ entry.2 ∧ entry.2 ≤ 0)
    (nodup : (entries.map Prod.fst).Nodup)
    (single : AtMostOne value (entries.map Prod.fst)) :
    lower ≤ weighted entries value ∧ weighted entries value ≤ 0 := by
  induction entries with
  | nil => exact ⟨nonpositive, Int.le_refl 0⟩
  | cons entry rest ih =>
      rw [List.map_cons, List.nodup_cons] at nodup
      rw [weighted_cons]
      rcases binary entry.1 with zero | one
      · rw [zero, Int.mul_zero, Int.zero_add]
        apply ih
          (fun later member =>
            bounded later (List.mem_cons_of_mem _ member)) nodup.2
        intro left leftMember right rightMember
        exact single left (List.mem_cons_of_mem _ leftMember) right
          (List.mem_cons_of_mem _ rightMember)
      · have others : weighted rest value = 0 := by
          apply weighted_eq_zero
          intro later member
          rcases binary later.1 with zero | otherOne
          · exact zero
          · have same :=
              single entry.1 List.mem_cons_self later.1
                (List.mem_cons_of_mem _ (List.mem_map_of_mem member)) one
                otherOne
            exact absurd (List.mem_map_of_mem member) (same ▸ nodup.1)
        rw [one, others, Int.mul_one, Int.add_zero]
        exact bounded entry List.mem_cons_self

omit binary in
/-- In steps that are not positive the last period has the least weight. -/
theorem stepped_bounded
    {step : Int}
    (nonpositive : step ≤ 0)
    (periods : List String) :
    lastWeight step periods ≤ 0 ∧
    ∀ entry ∈ stepped step periods,
      lastWeight step periods ≤ entry.2 ∧ entry.2 ≤ 0 := by
  have last : lastWeight step periods ≤ 0 := by
    rw [lastWeight_eq]
    exact Int.mul_nonpos_of_nonneg_of_nonpos (Int.natCast_nonneg _)
      nonpositive
  refine ⟨last, fun entry member => ?_⟩
  have between := stepped_between member
  omega

omit binary in
theorem WeightInputs.preferredWeight_nonpositive
    (inputs : WeightInputs)
    (nonpositive : config.notSelected ≤ 0) :
    inputs.preferredWeight config ≤ 0 := by
  have penalized :
      config.notSelected * (inputs.uncovered.length : Int) ≤ 0 :=
    Int.mul_nonpos_of_nonpos_of_nonneg nonpositive (Int.natCast_nonneg _)
  rw [WeightInputs.preferredWeight]
  split
  · exact Int.le_refl 0
  · omega

omit binary in
theorem WeightConfig.step_nonpositive
    (nonpositive : config.notSelected ≤ 0)
    (factor : 0 ≤ config.periodFactor) :
    config.notSelected * config.periodFactor ≤ 0 :=
  Int.mul_nonpos_of_nonpos_of_nonneg nonpositive factor

/--
The entries below the targets add up to something between the threshold and
zero.
-/
theorem levelEntries_bounds
    {inputs : WeightInputs}
    (nonpositive : config.notSelected ≤ 0)
    (factor : 0 ≤ config.periodFactor)
    (single : AtMostOne value inputs.periods) :
    -inputs.threshold config ≤ weighted (inputs.levelEntries config) value ∧
    weighted (inputs.levelEntries config) value ≤ 0 := by
  have uncovered := uniform_bounds binary nonpositive inputs.uncovered
  have preferred :=
    uniform_bounds binary (inputs.preferredWeight_nonpositive nonpositive)
      inputs.preferred.toList
  rcases stepped_bounded (config.step_nonpositive nonpositive factor)
      inputs.periods with
    ⟨lastNonpositive, bounded⟩
  have known :
      ∀ id ∈ (inputs.periodEntries config).map Prod.fst,
        id ∈ inputs.periods :=
    List.forall_mem_map.2 fun _ member =>
      WeightInputs.mem_periods_of_mem_periodEntries member
  have periods :=
    single_bounds binary lastNonpositive
      (fun entry member =>
        bounded entry (WeightInputs.mem_periodEntries member))
      (OrderedMap.nodup _) fun left leftMember right rightMember =>
        single left (known left leftMember) right (known right rightMember)
  simp only [WeightInputs.threshold, WeightInputs.levelEntries]
  rw [weighted_append, weighted_append]
  omega

omit binary in
theorem WeightInputs.threshold_nonnegative
    (inputs : WeightInputs)
    (nonpositive : config.notSelected ≤ 0)
    (factor : 0 ≤ config.periodFactor) :
    0 ≤ inputs.threshold config := by
  have inactive : AtMostOne (fun _ => 0) inputs.periods :=
    fun _ _ _ _ one _ => nomatch one
  have bounds :=
    levelEntries_bounds (fun _ => Or.inl rfl) nonpositive factor inactive
  omega

end Bounds

/-! ## Dominance of the targets -/

/--
Values that agree on the columns of the targets agree on those of their
weights.
-/
theorem agree_of_mem_weighedTargets
    {below : Int}
    {targets : List Target}
    (agree : ∀ target ∈ targets, value target.column = other target.column)
    {entry : String × Int}
    (member : entry ∈ weighedTargets below targets) :
    value entry.1 = other entry.1 := by
  rcases exists_target_of_mem_weighedTargets member with
    ⟨target, targetMember, same⟩
  rw [← same]
  exact agree target targetMember

/--
A target makes up for everything below it: the score of an assignment that
honours it exceeds the score of one that does not, if they agree on the
later targets and what is below all targets differs by no more than is
expected.
-/
theorem targets_dominate
    {earlier later : List Target}
    {target : Target}
    {below difference : Int}
    (nonnegative : 0 ≤ below)
    (valueBinary : ∀ id, value id = 0 ∨ value id = 1)
    (otherBinary : ∀ id, other id = 0 ∨ other id = 1)
    (agree : ∀ target ∈ later, value target.column = other target.column)
    (honours : target.Honours value)
    (fails : ¬ target.Honours other)
    (gap : -below ≤ difference) :
    0 <
      difference +
        (weighted (weighedTargets below (earlier ++ target :: later))
          value -
          weighted (weighedTargets below (earlier ++ target :: later))
            other) := by
  induction earlier generalizing below difference with
  | nil =>
      have same :
          weighted (weighedTargets (below + (below + 1)) later) value =
            weighted (weighedTargets (below + (below + 1)) later) other :=
        weighted_congr fun entry member _ =>
          agree_of_mem_weighedTargets agree member
      simp only [Target.Honours] at honours fails
      rw [List.nil_append, weighedTargets_cons, weighted_cons,
        weighted_cons, same]
      have binary := otherBinary target.column
      cases added : target.action.isAdd with
      | true =>
          rw [added, if_pos rfl] at honours fails
          have zero : other target.column = 0 := binary.resolve_right fails
          rw [if_pos rfl, honours, zero]
          omega
      | false =>
          rw [added, if_neg Bool.false_ne_true] at honours fails
          have one : other target.column = 1 := binary.resolve_left fails
          rw [if_neg Bool.false_ne_true, honours, one]
          omega
  | cons first rest ih =>
      rw [List.cons_append, weighedTargets_cons, weighted_cons,
        weighted_cons]
      dsimp only
      generalize signedEq :
        (if first.action.isAdd = true then below + 1 else -(below + 1)) =
        signed
      have bounds : -(below + 1) ≤ signed ∧ signed ≤ below + 1 := by
        rw [← signedEq]
        split
        · omega
        · omega
      have wider :
          -(below + (below + 1)) ≤
            difference +
              (signed * value first.column -
                signed * other first.column) := by
        rcases valueBinary first.column with zero | one
        · rcases otherBinary first.column with otherZero | otherOne
          · rw [zero, otherZero]
            omega
          · rw [zero, otherOne]
            omega
        · rcases otherBinary first.column with otherZero | otherOne
          · rw [one, otherZero]
            omega
          · rw [one, otherOne]
            omega
      have whole := ih (by omega) wider
      omega

/--
If no column belongs to two levels, the entries are those of the levels and
the targets.
-/
theorem entries_of_derived
    {inputs : WeightInputs}
    {weights : Weights}
    (derived : Weights.derive inputs config = .ok weights)
    (apart : inputs.LevelsApart) :
    weights.values.entries =
      inputs.levelEntries config ++
        (OrderedMap.ofList (weighedTargets (inputs.threshold config)
          inputs.targets)).entries := by
  rcases derive_eq_ok_iff.1 derived with ⟨_, valuesEq, _⟩
  have levels :
      (OrderedMap.ofList
        (lowerEntries inputs config
          (inputs.preferredWeight config))).entries =
        inputs.levelEntries config := by
    have plain :
        (inputs.uncovered.map (fun id => (id, config.notSelected)) ++
          inputs.preferred.toList.map
            (fun id => (id, inputs.preferredWeight config))).map Prod.fst =
          inputs.uncovered ++ inputs.preferred.toList := by
      simp only [List.map_append, List.map_map, Function.comp_def,
        List.map_id']
    have nodup : (inputs.uncovered ++ inputs.preferred.toList).Nodup := by
      refine List.nodup_append.2
        ⟨inputs.selectable.nodup.sublist List.filter_sublist,
          inputs.preferred.nodup, ?_⟩
      rintro id uncovered _ preferred rfl
      exact apart.preferred id preferred uncovered
    rw [lowerEntries, OrderedMap.entries_ofList_append,
      OrderedMap.entries_ofList]
    · rfl
    · rwa [plain]
    · intro entry member
      rw [plain, List.mem_append, not_or]
      exact apart.periods entry.1 (mem_periods_of_mem_stepped member)
  rw [valuesEq, WeightInputs.entries, OrderedMap.entries_ofList_append,
    levels]
  intro entry member
  rcases exists_target_of_mem_weighedTargets member with
    ⟨target, targetMember, same⟩
  rw [map_fst_lowerEntries, ← same, List.mem_append, List.mem_append,
    not_or, not_or]
  rcases apart.targets target targetMember with
    ⟨uncovered, preferred, period⟩
  exact ⟨⟨uncovered, preferred⟩, period⟩

/-- A column has the weight of the last target that it belongs to. -/
theorem get?_of_derived
    {inputs : WeightInputs}
    {weights : Weights}
    (derived : Weights.derive inputs config = .ok weights)
    {earlier later : List Target}
    {target : Target}
    (listed : inputs.targets = earlier ++ target :: later)
    (last : ∀ other ∈ later, other.column ≠ target.column) :
    weights.values.get? target.column =
      some
        (target.weightAbove (inputs.threshold config) earlier.length) := by
  rcases derive_eq_ok_iff.1 derived with ⟨_, valuesEq, _⟩
  obtain ⟨after, split, columns⟩ :=
    weighedTargets_append_cons (inputs.threshold config) earlier later
      target
  rw [valuesEq, WeightInputs.entries, listed, split, ← List.append_assoc]
  apply OrderedMap.get?_ofList_append_cons
  rw [columns]
  intro present
  rcases List.mem_map.1 present with ⟨other, member, same⟩
  exact last other member same

/--
Of two assignments with at most one active period that agree on the targets
after a target, the one that honours this target has the greater score.
-/
theorem derive_dominates
    {inputs : WeightInputs}
    {weights : Weights}
    (derived : Weights.derive inputs config = .ok weights)
    (nonpositive : config.notSelected ≤ 0)
    (factor : 0 ≤ config.periodFactor)
    (distinct : (inputs.targets.map Target.column).Nodup)
    (apart : inputs.LevelsApart)
    (valueBinary : ∀ id, value id = 0 ∨ value id = 1)
    (otherBinary : ∀ id, other id = 0 ∨ other id = 1)
    (valueSingle : AtMostOne value inputs.periods)
    (otherSingle : AtMostOne other inputs.periods)
    {earlier later : List Target}
    {target : Target}
    (listed : inputs.targets = earlier ++ target :: later)
    (agree : ∀ target ∈ later, value target.column = other target.column)
    (honours : target.Honours value)
    (fails : ¬ target.Honours other) :
    weighted weights.values.entries other <
      weighted weights.values.entries value := by
  have entries : (OrderedMap.ofList
      (weighedTargets (inputs.threshold config) inputs.targets)).entries =
        weighedTargets (inputs.threshold config) inputs.targets :=
    OrderedMap.entries_ofList (by rwa [map_fst_weighedTargets])
  have valueBounds :=
    levelEntries_bounds valueBinary nonpositive factor valueSingle
  have otherBounds :=
    levelEntries_bounds otherBinary nonpositive factor otherSingle
  have gap :
      -inputs.threshold config ≤
        weighted (inputs.levelEntries config) value -
          weighted (inputs.levelEntries config) other := by
    omega
  have greater :
      0 <
        weighted (inputs.levelEntries config) value -
          weighted (inputs.levelEntries config) other +
          (weighted
            (weighedTargets (inputs.threshold config)
              (earlier ++ target :: later)) value -
            weighted
              (weighedTargets (inputs.threshold config)
                (earlier ++ target :: later)) other) :=
    targets_dominate (by omega) valueBinary otherBinary agree honours fails
      gap
  rw [← listed] at greater
  rw [entries_of_derived derived apart, entries, weighted_append,
    weighted_append]
  omega

end Configurator.Objective
