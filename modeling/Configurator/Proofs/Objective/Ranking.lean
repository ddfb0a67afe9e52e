import Configurator.Proofs.Objective.Dominance

/-!
# The ranking of the levels

A target outweighs everything below it, and among assignments with the same
targets and the same period one preference outweighs all penalties.  Below
the targets the score is a sum over three counts: the preferred supports
that hold, the uncovered ids that are selected, and the steps up to the
active period.  With the default constants a step weighs as much as six
penalties, so preferences and penalties decide as long as the steps between
the periods do not make up for them.
-/

namespace Configurator.Objective

open Configurator.Arithmetic Configurator.Collection Configurator.Linear
  Configurator.Request

variable {config : WeightConfig} {inputs : WeightInputs} {weights : Weights}
  {value other : String → Int}

/-! ## Scores of the levels -/

theorem weighted_levelEntries
    (binary : ∀ id, value id = 0 ∨ value id = 1) :
    weighted (inputs.levelEntries config) value =
      config.notSelected * onesAmong value inputs.uncovered +
        inputs.preferredWeight config *
          onesAmong value inputs.preferred.toList +
        weighted (inputs.periodEntries config) value := by
  rw [WeightInputs.levelEntries, weighted_append, weighted_append,
    weighted_uniform binary, weighted_uniform binary]

/--
Assignments with the same targets differ by what they have on the levels
below.
-/
theorem score_difference
    (derived : Weights.derive inputs config = .ok weights)
    (apart : inputs.LevelsApart)
    (valueBinary : ∀ id, value id = 0 ∨ value id = 1)
    (otherBinary : ∀ id, other id = 0 ∨ other id = 1)
    (agree :
      ∀ target ∈ inputs.targets,
        value target.column = other target.column) :
    weighted weights.values.entries value -
        weighted weights.values.entries other =
      (config.notSelected * onesAmong value inputs.uncovered -
        config.notSelected * onesAmong other inputs.uncovered) +
        (inputs.preferredWeight config *
          onesAmong value inputs.preferred.toList -
          inputs.preferredWeight config *
            onesAmong other inputs.preferred.toList) +
        (weighted (inputs.periodEntries config) value -
          weighted (inputs.periodEntries config) other) := by
  generalize entriesEq : weighedTargets (inputs.threshold config)
    inputs.targets = targets
  have same : weighted (OrderedMap.ofList targets).entries value =
      weighted (OrderedMap.ofList targets).entries other := by
    rw [← entriesEq]
    exact weighted_congr fun entry member _ =>
      agree_of_mem_weighedTargets agree
        (OrderedMap.mem_of_mem_entries_ofList member)
  rw [entries_of_derived derived apart, entriesEq, weighted_append,
    weighted_append, weighted_levelEntries valueBinary,
    weighted_levelEntries otherBinary, same]
  ring

theorem WeightInputs.preferredWeight_of_uncovered
    (some : inputs.uncovered ≠ [])
    (negative : config.notSelected < 0) :
    inputs.preferredWeight config =
      config.notSelected * inputs.uncovered.length - 1 := by
  have count : (0 : Int) < inputs.uncovered.length := by
    exact_mod_cast List.length_pos_of_ne_nil some
  rw [preferredWeight, if_neg (Int.mul_neg_of_neg_of_pos negative count).ne]

/-- One preference makes up for the penalties of all uncovered ids. -/
theorem preference_outweighs
    (some : inputs.uncovered ≠ [])
    (negative : config.notSelected < 0)
    (fewer :
      onesAmong value inputs.preferred.toList <
        onesAmong other inputs.preferred.toList) :
    0 <
      (config.notSelected * onesAmong value inputs.uncovered -
        config.notSelected * onesAmong other inputs.uncovered) +
        (inputs.preferredWeight config *
          onesAmong value inputs.preferred.toList -
          inputs.preferredWeight config *
            onesAmong other inputs.preferred.toList) := by
  have weight := inputs.preferredWeight_nonpositive negative.le
  have most :
      (onesAmong value inputs.uncovered : Int) ≤
        inputs.uncovered.length := by
    exact_mod_cast onesAmong_le value inputs.uncovered
  have step : (onesAmong value inputs.preferred.toList : Int) + 1 ≤
      onesAmong other inputs.preferred.toList := by
    exact_mod_cast fewer
  have penalties := Int.mul_le_mul_of_nonpos_left negative.le most
  have spared :
      config.notSelected * (onesAmong other inputs.uncovered : Int) ≤ 0 :=
    Int.mul_nonpos_of_nonpos_of_nonneg negative.le (Int.natCast_nonneg _)
  have preferences := Int.mul_le_mul_of_nonpos_left weight step
  rw [Int.mul_add, Int.mul_one] at preferences
  have weightEq := WeightInputs.preferredWeight_of_uncovered some negative
  omega

/--
The place of the first active period, or the number of periods if none is
active.
-/
def WeightInputs.activeIndex
    (inputs : WeightInputs)
    (value : String → Int) :
    Nat :=
  inputs.periods.findIdx fun id => value id = 1

/--
The only active period is counted with as many steps as there are periods
before it.
-/
theorem weighted_periodEntries
    (binary : ∀ id, value id = 0 ∨ value id = 1)
    (nodup : inputs.periods.Nodup)
    (single : inputs.periods ≠ [] → onesAmong value inputs.periods = 1) :
    weighted (inputs.periodEntries config) value =
      config.notSelected * config.periodFactor *
        inputs.activeIndex value := by
  rw [WeightInputs.periodEntries_eq nodup, WeightInputs.activeIndex]
  generalize config.notSelected * config.periodFactor = step
  by_cases none : inputs.periods = []
  · rw [none]
    simp [stepped]
  · have counted := single none
    obtain ⟨active, member, decided⟩ :=
      List.countP_pos_iff.1
        (counted.symm ▸ Nat.one_pos : 0 < onesAmong value inputs.periods)
    have one : value active = 1 := of_decide_eq_true decided
    obtain ⟨before, after, listed⟩ := List.append_of_mem member
    rw [listed] at counted ⊢
    simp only [onesAmong, List.countP_append, List.countP_cons, one,
      decide_true, if_true] at counted
    have zero :
        ∀ ids : List String,
          ids.countP (fun id => decide (value id = 1)) = 0 →
          ∀ id ∈ ids, value id = 0 :=
      fun ids none id known =>
      (binary id).resolve_right fun alsoOne =>
        List.countP_eq_zero.1 none id known (decide_eq_true alsoOne)
    have early := zero before (by omega)
    have late := zero after (by omega)
    have index :
        (before ++ active :: after).findIdx
            (fun id => decide (value id = 1)) =
          before.length := by
      have passed :
          before.findIdx (fun id => decide (value id = 1)) =
            before.length :=
        List.findIdx_eq_length.2 fun id known => by simp [early id known]
      rw [List.findIdx_append, passed, if_neg (Nat.lt_irrefl _),
        List.findIdx_cons]
      simp [one]
    have earlyZero : weighted (stepped step before) value = 0 := by
      apply weighted_eq_zero
      intro entry known
      exact early entry.1 (mem_periods_of_mem_stepped known)
    have lateZero : weighted ((after.zipIdx (before.length + 1)).map
        fun indexed => (indexed.1, indexed.2 * step)) value = 0 := by
      apply weighted_eq_zero
      refine List.forall_mem_map.2 fun indexed known => ?_
      exact late indexed.1 (List.fst_mem_of_mem_zipIdx known)
    have split :
        stepped step (before ++ active :: after) =
          stepped step before ++
            (active, (before.length : Int) * step) ::
              (after.zipIdx (before.length + 1)).map fun indexed =>
                (indexed.1, indexed.2 * step) := by
      simp [stepped, List.zipIdx_append]
    rw [split, index, weighted_append, weighted_cons, earlyZero, lateZero,
      one]
    ring

/-! ## Weights dominate what is below them -/

/--
A weight dominates everything below it.  Of two assignments with at most one
active period that agree on the columns of all targets after a target, the
one that honours this target has the greater score.  If they agree on all
targets and periods and something is uncovered, the one with fewer preferred
supports has the greater score, whatever the uncovered ids are.
-/
theorem derive_outweighs_below
    (inputs : WeightInputs)
    (config : WeightConfig)
    (weights : Weights)
    (derived : Weights.derive inputs config = .ok weights)
    (nonpositive : config.notSelected ≤ 0)
    (factor : 0 ≤ config.periodFactor)
    (distinct : (inputs.targets.map Target.column).Nodup)
    (apart : inputs.LevelsApart)
    (value other : String → Int)
    (valueBinary : ∀ id, value id = 0 ∨ value id = 1)
    (otherBinary : ∀ id, other id = 0 ∨ other id = 1)
    (valueSingle : AtMostOne value inputs.periods)
    (otherSingle : AtMostOne other inputs.periods) :
    (∀ earlier target later,
      inputs.targets = earlier ++ target :: later →
      (∀ above ∈ later, value above.column = other above.column) →
      target.Honours value →
      ¬ target.Honours other →
      weighted weights.values.entries other <
        weighted weights.values.entries value) ∧
    (inputs.uncovered ≠ [] →
      config.notSelected < 0 →
      (∀ target ∈ inputs.targets,
        value target.column = other target.column) →
      (∀ id ∈ inputs.periods, value id = other id) →
      onesAmong value inputs.preferred.toList <
        onesAmong other inputs.preferred.toList →
      weighted weights.values.entries other <
        weighted weights.values.entries value) := by
  constructor
  · intro earlier target later listed agree honours fails
    exact derive_dominates derived nonpositive factor distinct apart
      valueBinary otherBinary valueSingle otherSingle listed agree honours
      fails
  · intro some negative agree periods fewer
    have difference :=
      score_difference derived apart valueBinary otherBinary agree
    have outweighed := preference_outweighs some negative fewer
    have same : weighted (inputs.periodEntries config) value =
        weighted (inputs.periodEntries config) other :=
      weighted_congr fun entry member _ =>
        periods entry.1
          (WeightInputs.mem_periods_of_mem_periodEntries member)
    omega

/-- The values of some ids are one and those of all others zero. -/
def indicator (ids : List String) (id : String) : Int :=
  if id ∈ ids then 1 else 0

theorem indicator_binary
    (ids : List String)
    (id : String) :
    indicator ids id = 0 ∨ indicator ids id = 1 := by
  rw [indicator]
  split
  · exact Or.inr rfl
  · exact Or.inl rfl

/-- An uncovered id, a preferred support, two periods and two targets. -/
def mixedInputs : WeightInputs where
  selectable := OrderedSet.ofList ["a", "b", "c"]
  covered := OrderedSet.ofList ["a", "b"]
  preferred := OrderedSet.ofList ["n"]
  periods := ["period_0", "period_1"]
  targets := [⟨"a", .add⟩, ⟨"b", .remove⟩]

/-- The earlier target is honoured at the cost of everything below it. -/
theorem derive_outweighs_below_mixed :
    ∃ weights,
      Weights.derive mixedInputs {} = .ok weights ∧
      weighted weights.values.entries (indicator ["period_0"]) <
        weighted weights.values.entries
          (indicator ["a", "c", "n", "period_1"]) ∧
      weighted weights.values.entries (indicator ["n", "period_1"]) <
        weighted weights.values.entries (indicator ["c", "period_1"]) := by
  have computed :
      (Weights.derive mixedInputs {}).toOption.isSome = true := by
    decide +kernel
  simp only [Option.isSome_iff_exists, toOption_eq_some_iff] at computed
  obtain ⟨weights, derived⟩ := computed
  have apart : mixedInputs.LevelsApart := ⟨by decide, by decide, by decide⟩
  have dominated := fun value other valueSingle otherSingle =>
    derive_outweighs_below mixedInputs {} weights derived (by decide)
      (by decide) (by decide) apart (indicator value) (indicator other)
      (indicator_binary value) (indicator_binary other) valueSingle
      otherSingle
  refine ⟨weights, derived, ?_, ?_⟩
  · exact (dominated ["a", "c", "n", "period_1"] ["period_0"] (by decide)
            (by decide)).1 [] ⟨"a", .add⟩ [⟨"b", .remove⟩] rfl (by decide)
      (by decide) (by decide)
  · exact (dominated ["c", "period_1"] ["n", "period_1"] (by decide)
            (by decide)).2 (by decide) (by decide) (by decide) (by decide)
      (by decide)

/-! ## The ranking with the default constants -/

/--
What the preferred supports and the uncovered ids put between the scores of
two assignments with the default constants: an uncovered id costs two, a
preferred support one more than all uncovered ids together.
-/
def WeightInputs.lead
    (inputs : WeightInputs)
    (value other : String → Int) :
    Int :=
  (2 * inputs.uncovered.length + 1) *
      ((onesAmong other inputs.preferred.toList : Int) -
        onesAmong value inputs.preferred.toList) +
    2 * ((onesAmong other inputs.uncovered : Int) -
      onesAmong value inputs.uncovered)

/--
Fewer preferred supports lead, and with as many of them fewer uncovered ids.
-/
theorem WeightInputs.lead_pos
    (some : inputs.uncovered ≠ [])
    (better :
      onesAmong value inputs.preferred.toList <
        onesAmong other inputs.preferred.toList ∨
      onesAmong value inputs.preferred.toList =
        onesAmong other inputs.preferred.toList ∧
      onesAmong value inputs.uncovered < onesAmong other inputs.uncovered) :
    0 < inputs.lead value other := by
  rcases better with fewer | ⟨tied, fewer⟩
  · have negative : ({} : WeightConfig).notSelected < 0 := by decide
    have outweighed := preference_outweighs some negative fewer
    have weight := preferredWeight_of_uncovered some negative
    have penalty : ({} : WeightConfig).notSelected = -2 := rfl
    rw [weight, penalty] at outweighed
    calc
      0 < _ := outweighed
      _ = inputs.lead value other := by
        rw [lead]
        ring
  · rw [lead, tied, sub_self, mul_zero]
    omega

/--
With the default constants a period costs twelve more than the one before
it.
-/
theorem default_difference
    (derived : Weights.derive inputs {} = .ok weights)
    (apart : inputs.LevelsApart)
    (chronological : inputs.periods.Nodup)
    (some : inputs.uncovered ≠ [])
    (valueBinary : ∀ id, value id = 0 ∨ value id = 1)
    (otherBinary : ∀ id, other id = 0 ∨ other id = 1)
    (agree :
      ∀ target ∈ inputs.targets, value target.column = other target.column)
    (valuePeriod : inputs.periods ≠ [] → onesAmong value inputs.periods = 1)
    (otherPeriod :
      inputs.periods ≠ [] → onesAmong other inputs.periods = 1) :
    weighted weights.values.entries value -
        weighted weights.values.entries other =
      inputs.lead value other +
        12 *
          ((inputs.activeIndex other : Int) -
            inputs.activeIndex value) := by
  have weight :
      inputs.preferredWeight {} = -2 * inputs.uncovered.length - 1 :=
    WeightInputs.preferredWeight_of_uncovered some (by decide)
  have penalty : ({} : WeightConfig).notSelected = -2 := rfl
  have step :
      ({} : WeightConfig).notSelected * ({} : WeightConfig).periodFactor =
        -12 :=
    rfl
  rw [score_difference derived apart valueBinary otherBinary agree,
    weighted_periodEntries valueBinary chronological valuePeriod,
    weighted_periodEntries otherBinary chronological otherPeriod,
    step, weight, penalty, WeightInputs.lead]
  ring

/--
The ranking with the default constants.  Of two assignments with the same
targets and one active period each, the one with fewer preferred supports
leads, and with equally many of them the one with fewer uncovered ids.  Its
score is the greater one exactly if its period is not later by so many steps
of twelve that these make up for the lead, so in any case if its period is
no later.  If both counts tie, the earlier period decides.
-/
theorem default_ranking
    (inputs : WeightInputs)
    (weights : Weights)
    (derived : Weights.derive inputs {} = .ok weights)
    (apart : inputs.LevelsApart)
    (chronological : inputs.periods.Nodup)
    (some : inputs.uncovered ≠ [])
    (value other : String → Int)
    (valueBinary : ∀ id, value id = 0 ∨ value id = 1)
    (otherBinary : ∀ id, other id = 0 ∨ other id = 1)
    (agree :
      ∀ target ∈ inputs.targets, value target.column = other target.column)
    (valuePeriod : inputs.periods ≠ [] → onesAmong value inputs.periods = 1)
    (otherPeriod :
      inputs.periods ≠ [] → onesAmong other inputs.periods = 1) :
    weighted weights.values.entries value -
        weighted weights.values.entries other =
      inputs.lead value other +
        12 * ((inputs.activeIndex other : Int) - inputs.activeIndex value) ∧
    (onesAmong value inputs.preferred.toList <
      onesAmong other inputs.preferred.toList ∨
      onesAmong value inputs.preferred.toList =
        onesAmong other inputs.preferred.toList ∧
      onesAmong value inputs.uncovered < onesAmong other inputs.uncovered →
      0 < inputs.lead value other ∧
      (weighted weights.values.entries other <
          weighted weights.values.entries value ↔
        12 * ((inputs.activeIndex value : Int) - inputs.activeIndex other) <
          inputs.lead value other) ∧
      (inputs.activeIndex value ≤ inputs.activeIndex other →
        weighted weights.values.entries other <
          weighted weights.values.entries value)) ∧
    (onesAmong value inputs.preferred.toList =
      onesAmong other inputs.preferred.toList →
      onesAmong value inputs.uncovered = onesAmong other inputs.uncovered →
      (weighted weights.values.entries other <
          weighted weights.values.entries value ↔
        inputs.activeIndex value < inputs.activeIndex other)) := by
  have difference := default_difference derived apart chronological some
    valueBinary otherBinary agree valuePeriod otherPeriod
  refine ⟨difference, ?_, ?_⟩
  · intro better
    have leads := WeightInputs.lead_pos some better
    refine ⟨leads, ?_, ?_⟩
    · constructor
      · intro greater
        omega
      · intro near
        omega
    · intro early
      omega
  · intro preferences penalties
    have level : inputs.lead value other = 0 := by
      rw [WeightInputs.lead, preferences, penalties]
      ring
    omega

/--
In the earlier period a preference outweighs a penalty, and the period
decides ties.
-/
theorem default_ranking_mixed :
    ∃ weights,
      Weights.derive mixedInputs {} = .ok weights ∧
      weighted weights.values.entries (indicator ["n", "period_1"]) <
        weighted weights.values.entries (indicator ["c", "period_0"]) ∧
      weighted weights.values.entries (indicator ["c", "period_1"]) <
        weighted weights.values.entries (indicator ["c", "period_0"]) := by
  have computed :
      (Weights.derive mixedInputs {}).toOption.isSome = true := by
    decide +kernel
  simp only [Option.isSome_iff_exists, toOption_eq_some_iff] at computed
  obtain ⟨weights, derived⟩ := computed
  have apart : mixedInputs.LevelsApart :=
    ⟨by decide, by decide, by decide⟩
  have ranked := fun value other =>
    default_ranking mixedInputs weights derived apart (by decide)
      (by decide) (indicator value) (indicator other)
      (indicator_binary _) (indicator_binary _)
  obtain ⟨_, better, _⟩ := ranked ["c", "period_0"] ["n", "period_1"]
    (by decide) (by decide) (by decide)
  obtain ⟨_, _, level⟩ := ranked ["c", "period_0"] ["c", "period_1"]
    (by decide) (by decide) (by decide)
  refine ⟨weights, derived, ?_, ?_⟩
  · exact (better (by decide)).2.2 (by decide)
  · exact (level (by decide) (by decide)).2 (by decide)

/-- A later period outweighs a preference and the only penalty. -/
theorem default_ranking_yields_to_periods :
    ∃ weights,
      Weights.derive mixedInputs {} = .ok weights ∧
      mixedInputs.LevelsApart ∧
      mixedInputs.uncovered ≠ [] ∧
      (∀ ids ∈ [["period_1"], ["n", "period_0"], ["c", "period_0"]],
        onesAmong (indicator ids) mixedInputs.periods = 1 ∧
        ∀ target ∈ mixedInputs.targets, indicator ids target.column = 0) ∧
      (onesAmong (indicator ["period_1"]) mixedInputs.preferred.toList <
        onesAmong (indicator ["n", "period_0"])
          mixedInputs.preferred.toList ∧
        weighted weights.values.entries (indicator ["period_1"]) <
          weighted weights.values.entries (indicator ["n", "period_0"])) ∧
      onesAmong (indicator ["period_1"]) mixedInputs.preferred.toList =
        onesAmong (indicator ["c", "period_0"])
          mixedInputs.preferred.toList ∧
      onesAmong (indicator ["period_1"]) mixedInputs.uncovered <
        onesAmong (indicator ["c", "period_0"]) mixedInputs.uncovered ∧
      weighted weights.values.entries (indicator ["period_1"]) <
        weighted weights.values.entries (indicator ["c", "period_0"]) := by
  have computed :
      (Weights.derive mixedInputs {}).toOption.map
          (fun weights =>
            decide
              (weighted weights.values.entries (indicator ["period_1"]) <
                weighted weights.values.entries
                  (indicator ["n", "period_0"]) ∧
                weighted weights.values.entries (indicator ["period_1"]) <
                  weighted weights.values.entries
                    (indicator ["c", "period_0"]))) =
        some true := by
    decide +kernel
  simp only [Option.map_eq_some_iff, toOption_eq_some_iff,
    decide_eq_true_eq] at computed
  obtain ⟨weights, derived, preference, penalty⟩ := computed
  exact ⟨weights, derived, ⟨by decide, by decide, by decide⟩, by decide,
    by decide, ⟨by decide, preference⟩, by decide, by decide, penalty⟩

end Configurator.Objective
