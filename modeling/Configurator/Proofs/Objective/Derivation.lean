import Configurator.Objective.Weights
import Configurator.Proofs.Arithmetic.Exact
import Configurator.Proofs.Collection.Lookup

/-!
# What a derivation computes

Every step of a derivation has a closed form: equal weights add up to a
multiple, periods lie on multiples of a step, and each target doubles what
is below it.  A step is carried out exactly if the numbers of its closed
form are words, since partial results never leave the range between the
first and the last one.  So a derivation returns the weights of the closed
form, or it is refused with a report of a weight, or one of its two
unreported computations, the weight of a preference and the step between
periods, leaves the range.
-/

namespace Configurator.Objective

open Configurator.Arithmetic Configurator.Collection Configurator.Request

variable {config : WeightConfig}

/-! ## Reports of weights -/

/-- The error reports a weight, against the threshold of the constants. -/
def WeightConfig.Reports (config : WeightConfig) (cause : Error) : Prop :=
  ∃ id weight, cause = .weightSaturated id weight config.saturationThreshold

theorem weightOr_eq_ok_iff
    {id : String}
    {weight number result : Int} :
    weightOr config id weight number = .ok result ↔
      IsWord number ∧ result = number := by
  by_cases inRange : IsWord number
  · simp [weightOr, word?, inRange, eq_comm]
  · simp [weightOr, word?, inRange]

theorem reports_of_weightOr
    {id : String}
    {weight number : Int}
    {cause : Error}
    (refused : weightOr config id weight number = .error cause) :
    config.Reports cause := by
  simp only [weightOr] at refused
  split at refused
  · cases refused
  · cases refused
    exact ⟨id, weight, rfl⟩

/-! ## Equal weights -/

/-- What lies between two words is a word. -/
theorem isWord_of_between
    {first number last : Int}
    (firstWord : IsWord first)
    (lastWord : IsWord last)
    (between :
      (first ≤ number ∧ number ≤ last) ∨ (last ≤ number ∧ number ≤ first)) :
    IsWord number := by
  simp only [IsWord] at firstWord lastWord ⊢
  omega

private theorem foldlM_combined_eq_ok_iff
    {weight : Int}
    {ids : List String}
    {start sum : Int}
    (inRange : IsWord start) :
    ids.foldlM (m := Except Error)
          (fun sum id => weightOr config id sum (sum + weight)) start =
        .ok sum ↔
      IsWord (start + weight * ids.length) ∧
      sum = start + weight * ids.length := by
  induction ids generalizing start with
  | nil =>
      rw [List.foldlM_nil]
      simp [pure, Except.pure, inRange, eq_comm]
  | cons id rest ih =>
      have total : start + weight * ((id :: rest).length : Int) =
          start + weight + weight * rest.length := by
        rw [List.length_cons]
        push_cast
        ring
      rw [List.foldlM_cons, bind_eq_ok_iff, total]
      constructor
      · rintro ⟨next, step, others⟩
        rcases weightOr_eq_ok_iff.1 step with ⟨nextWord, rfl⟩
        exact (ih nextWord).1 others
      · rintro ⟨last, sumEq⟩
        -- all partial sums lie between the first and the last one
        have next : IsWord (start + weight) := by
          apply isWord_of_between inRange last
          rcases Int.le_total 0 weight with up | down
          · have := Int.mul_nonneg up (Int.natCast_nonneg rest.length)
            omega
          · have :=
              Int.mul_nonpos_of_nonpos_of_nonneg down
                (Int.natCast_nonneg rest.length)
            omega
        exact ⟨start + weight, weightOr_eq_ok_iff.2 ⟨next, rfl⟩,
          (ih next).2 ⟨last, sumEq⟩⟩

/-- Equal weights add up to their multiple, if that is a word. -/
theorem combined_eq_ok_iff
    {weight sum : Int}
    {ids : List String} :
    combined config weight ids = .ok sum ↔
      IsWord (weight * ids.length) ∧ sum = weight * ids.length := by
  have steps :=
    @foldlM_combined_eq_ok_iff config weight ids 0 sum (by decide)
  rwa [Int.zero_add] at steps

theorem reports_of_combined
    {weight : Int}
    {ids : List String}
    {cause : Error}
    (refused : combined config weight ids = .error cause) :
    config.Reports cause := by
  rcases exists_of_foldlM_eq_error refused with ⟨id, _, sum, step⟩
  exact reports_of_weightOr step

/-- The weight of a preference, by the sum of the penalties. -/
def preferenceWeight (penalties : Int) : Except Fault Int :=
  if penalties = 0 then .ok 0 else word (penalties - 1)

/-! ## Periods -/

/-- The periods with multiples of the step. -/
def stepped (step : Int) (periods : List String) : List (String × Int) :=
  periods.zipIdx.map fun indexed => (indexed.1, indexed.2 * step)

theorem map_fst_stepped
    (step : Int)
    (periods : List String) :
    (stepped step periods).map Prod.fst = periods := by
  simp only [stepped]
  rw [List.map_map]
  exact List.zipIdx_map_fst 0 periods

theorem mem_periods_of_mem_stepped
    {step : Int}
    {periods : List String}
    {entry : String × Int}
    (member : entry ∈ stepped step periods) :
    entry.1 ∈ periods := by
  have listed := List.mem_map_of_mem (f := Prod.fst) member
  rwa [map_fst_stepped] at listed

/-- The weight of the last period, which is zero without periods. -/
def lastWeight (step : Int) (periods : List String) : Int :=
  ((stepped step periods).getLast?.map Prod.snd).getD 0

theorem lastWeight_eq
    (step : Int)
    (periods : List String) :
    lastWeight step periods =
      ((periods.length - 1 : Nat) : Int) * step := by
  rcases List.eq_nil_or_concat periods with rfl | ⟨earlier, last, rfl⟩
  · simp [lastWeight, stepped]
  · simp [lastWeight, stepped, List.zipIdx_append]

/-- The weights of all periods lie between zero and that of the last one. -/
theorem stepped_between
    {step : Int}
    {periods : List String}
    {entry : String × Int}
    (member : entry ∈ stepped step periods) :
    (0 ≤ entry.2 ∧ entry.2 ≤ lastWeight step periods) ∨
    (lastWeight step periods ≤ entry.2 ∧ entry.2 ≤ 0) := by
  rcases List.mem_map.1 member with ⟨⟨id, index⟩, indexed, rfl⟩
  have inside : index < periods.length :=
    (List.getElem?_eq_some_iff.1
      (List.mk_mem_zipIdx_iff_getElem?.1 indexed)).1
  have below : (index : Int) ≤ (periods.length - 1 : Nat) := by
    omega
  rw [lastWeight_eq]
  rcases Int.le_total 0 step with up | down
  · exact Or.inl ⟨Int.mul_nonneg (Int.natCast_nonneg index) up,
      Int.mul_le_mul_of_nonneg_right below up⟩
  · exact Or.inr ⟨Int.mul_le_mul_of_nonpos_right below down,
      Int.mul_nonpos_of_nonneg_of_nonpos (Int.natCast_nonneg index) down⟩

/--
The periods have the multiples of the step as weights, if the last one is a
word.
-/
theorem periodWeights_eq_ok_iff
    {step : Int}
    {periods : List String}
    {entries : List (String × Int)} :
    periodWeights config step periods = .ok entries ↔
      IsWord (lastWeight step periods) ∧
      entries = stepped step periods := by
  have single : ∀ (id : String) (index : Nat) (entry : String × Int),
      (do return (id, ← weightOr config id step (index * step)) :
        Except Error (String × Int)) = .ok entry ↔
      IsWord (index * step) ∧ entry = (id, index * step) := by
    intro id index entry
    simp only [bind_eq_ok_iff, weightOr_eq_ok_iff]
    constructor
    · rintro ⟨weight, ⟨inRange, rfl⟩, finished⟩
      cases finished
      exact ⟨inRange, rfl⟩
    · rintro ⟨inRange, rfl⟩
      exact ⟨_, ⟨inRange, rfl⟩, rfl⟩
  constructor
  · intro computed
    refine ⟨?_,
      eq_map_of_mapM_eq_ok
        (fun indexed _ entry here =>
          ((single indexed.1 indexed.2 entry).1 here).2) computed⟩
    rw [lastWeight_eq]
    rcases List.eq_nil_or_concat periods with rfl | ⟨earlier, last, rfl⟩
    · rw [List.length_nil, Nat.zero_sub, Nat.cast_zero, Int.zero_mul]
      decide
    · have member :
          (last, earlier.length) ∈ (earlier.concat last).zipIdx := by
        simp [List.zipIdx_append]
      rcases exists_of_mapM_eq_ok computed _ member with ⟨entry, here⟩
      simpa using ((single last earlier.length entry).1 here).1
  · rintro ⟨inRange, rfl⟩
    apply mapM_eq_ok
    rintro ⟨id, index⟩ member
    exact (single id index _).2
      ⟨isWord_of_between (by decide : IsWord 0) inRange
        (stepped_between (List.mem_map_of_mem member)), rfl⟩

theorem reports_of_periodWeights
    {step : Int}
    {periods : List String}
    {cause : Error}
    (refused : periodWeights config step periods = .error cause) :
    config.Reports cause := by
  rcases exists_of_mapM_eq_error refused with ⟨⟨id, index⟩, _, here⟩
  simp only [bind_eq_error_iff] at here
  rcases here with weighed | ⟨_, _, finished⟩
  · exact reports_of_weightOr weighed
  · cases finished

/-! ## The threshold -/

theorem thresholdBelow_eq_ok_iff
    {penalties preferences lastPeriod below : Int} :
    thresholdBelow config penalties preferences lastPeriod = .ok below ↔
      IsWord (penalties + preferences) ∧
      IsWord (penalties + preferences + lastPeriod) ∧
      IsWord below ∧
      below = -(penalties + preferences + lastPeriod) := by
  unfold thresholdBelow
  dsimp only
  constructor
  · intro computed
    split at computed
    · rename_i threshold found
      cases computed
      simp only [Option.bind_eq_bind, Option.bind_eq_some_iff,
        word?_eq_some_iff] at found
      rcases found with
        ⟨both, ⟨bothWord, rfl⟩, all, ⟨allWord, rfl⟩, inRange, rfl⟩
      exact ⟨bothWord, allWord, inRange, rfl⟩
    · cases computed
  · rintro ⟨bothWord, allWord, inRange, rfl⟩
    simp [word?, bothWord, allWord, inRange, -neg_add_rev]

theorem reports_of_thresholdBelow
    {penalties preferences lastPeriod : Int}
    {cause : Error}
    (refused :
      thresholdBelow config penalties preferences lastPeriod =
        .error cause) :
    config.Reports cause := by
  unfold thresholdBelow at refused
  dsimp only at refused
  split at refused
  · cases refused
  · cases refused
    exact ⟨_, _, rfl⟩

/-! ## Targets -/

theorem targetWeights_cons_eq_ok_iff
    {below : Int}
    {target : Target}
    {rest : List Target}
    {entries : List (String × Int)} :
    targetWeights config below (target :: rest) = .ok entries ↔
      IsWord (below + 1) ∧
      IsWord (below + (below + 1)) ∧
      ∃ others,
        targetWeights config (below + (below + 1)) rest = .ok others ∧
        entries =
          (target.column,
            if target.action.isAdd then below + 1 else -(below + 1)) ::
            others := by
  simp only [targetWeights, bind_eq_ok_iff]
  constructor
  · rintro ⟨weight, weighed, above, summed, others, later, finished⟩
    cases finished
    rcases weightOr_eq_ok_iff.1 weighed with ⟨weightWord, rfl⟩
    rcases weightOr_eq_ok_iff.1 summed with ⟨inRange, rfl⟩
    exact ⟨weightWord, inRange, others, later, rfl⟩
  · rintro ⟨weightWord, inRange, others, later, rfl⟩
    exact ⟨_, weightOr_eq_ok_iff.2 ⟨weightWord, rfl⟩, _,
      weightOr_eq_ok_iff.2 ⟨inRange, rfl⟩, others, later, rfl⟩

/--
The weight of a target: one more than all below it, which doubles with every
target.
-/
def Target.weightAbove
    (target : Target)
    (below : Int)
    (count : Nat) :
    Int :=
  if target.action.isAdd then 2 ^ count * (below + 1)
  else -(2 ^ count * (below + 1))

theorem Target.weightAbove_succ
    (target : Target)
    (below : Int)
    (count : Nat) :
    target.weightAbove below (count + 1) =
      target.weightAbove (below + (below + 1)) count := by
  have doubled :
      2 ^ (count + 1) * (below + 1) =
        2 ^ count * (below + (below + 1) + 1) := by
    ring
  rw [weightAbove, weightAbove, doubled]

/-- The targets with their weights, lowest priority first. -/
def weighedTargets
    (below : Int)
    (targets : List Target) :
    List (String × Int) :=
  targets.zipIdx.map fun indexed =>
    (indexed.1.column, indexed.1.weightAbove below indexed.2)

theorem weighedTargets_cons
    (below : Int)
    (target : Target)
    (rest : List Target) :
    weighedTargets below (target :: rest) =
      (target.column,
        if target.action.isAdd then below + 1 else -(below + 1)) ::
        weighedTargets (below + (below + 1)) rest := by
  have later :
      ∀ indexed : Target × Nat,
        (indexed.1.column, indexed.1.weightAbove below (indexed.2 + 1)) =
          (indexed.1.column,
            indexed.1.weightAbove (below + (below + 1)) indexed.2) :=
    fun indexed => by rw [Target.weightAbove_succ]
  rw [weighedTargets, weighedTargets, List.zipIdx_cons, List.map_cons,
    List.zipIdx_succ, List.map_map]
  simp only [Function.comp_def, later]
  simp [Target.weightAbove]

theorem map_fst_weighedTargets
    (below : Int)
    (targets : List Target) :
    (weighedTargets below targets).map Prod.fst =
      targets.map Target.column := by
  rw [weighedTargets, List.map_map]
  show targets.zipIdx.map (Target.column ∘ Prod.fst) = _
  rw [← List.map_map, List.zipIdx_map_fst]

theorem exists_target_of_mem_weighedTargets
    {below : Int}
    {targets : List Target}
    {entry : String × Int}
    (member : entry ∈ weighedTargets below targets) :
    ∃ target ∈ targets, target.column = entry.1 := by
  have column := List.mem_map_of_mem (f := Prod.fst) member
  rw [map_fst_weighedTargets] at column
  exact List.mem_map.1 column

/--
The entry of a target with its weight, and the columns of the entries after
it.
-/
theorem weighedTargets_append_cons
    (below : Int)
    (earlier later : List Target)
    (target : Target) :
    ∃ after,
      weighedTargets below (earlier ++ target :: later) =
        weighedTargets below earlier ++
          (target.column, target.weightAbove below earlier.length) ::
            after ∧
      after.map Prod.fst = later.map Target.column := by
  induction earlier generalizing below with
  | nil =>
      refine ⟨weighedTargets (below + (below + 1)) later, ?_,
        map_fst_weighedTargets _ _⟩
      rw [List.nil_append, weighedTargets_cons]
      simp [weighedTargets, Target.weightAbove]
  | cons first rest ih =>
      obtain ⟨after, split, columns⟩ := ih (below + (below + 1))
      refine ⟨after, ?_, columns⟩
      rw [List.cons_append, weighedTargets_cons, weighedTargets_cons, split,
        List.length_cons, Target.weightAbove_succ, List.cons_append]

/--
The greatest sum of a target and the rest is that of the rest above the
target.
-/
theorem doubled_cons
    (below : Int)
    (target : Target)
    (rest : List Target) :
    (below + 1) * 2 ^ (target :: rest).length - 1 =
      (below + (below + 1) + 1) * 2 ^ rest.length - 1 := by
  rw [List.length_cons]
  ring

/-- What a target needs fits if what all targets together need does. -/
private theorem isWord_of_doubled
    {weight : Int}
    {count : Nat}
    (small : IsWord (weight - 1))
    (last : IsWord (weight * 2 ^ (count + 1) - 1)) :
    IsWord weight ∧ IsWord (weight - 1 + weight) := by
  have grown : (1 : Int) ≤ 2 ^ count := Int.pow_pos (by decide)
  have split : weight * 2 ^ (count + 1) = 2 * (weight * 2 ^ count) := by
    ring
  simp only [IsWord, leastWord, greatestWord] at small last ⊢
  rw [split] at last
  rcases Int.le_total 0 weight with up | down
  · have more := Int.mul_le_mul_of_nonneg_left grown up
    rw [Int.mul_one] at more
    omega
  · have less := Int.mul_le_mul_of_nonpos_left down grown
    rw [Int.mul_one] at less
    omega

/--
The targets are weighed if the greatest sum, which doubles with every target
and includes the last one, is a word.
-/
theorem targetWeights_eq_ok_iff
    {below : Int}
    {targets : List Target}
    {entries : List (String × Int)}
    (inRange : IsWord below) :
    targetWeights config below targets = .ok entries ↔
      IsWord ((below + 1) * 2 ^ targets.length - 1) ∧
      entries = weighedTargets below targets := by
  induction targets generalizing below entries with
  | nil =>
      have same :
          (below + 1) * 2 ^ ([] : List Target).length - 1 = below := by
        simp
      rw [same]
      simp [targetWeights, weighedTargets, inRange, eq_comm]
  | cons target rest ih =>
      have last := doubled_cons below target rest
      rw [targetWeights_cons_eq_ok_iff, weighedTargets_cons]
      constructor
      · rintro ⟨_, aboveWord, others, later, rfl⟩
        rcases (ih aboveWord).1 later with ⟨fits, rfl⟩
        exact ⟨last ▸ fits, rfl⟩
      · rintro ⟨fits, rfl⟩
        have small : IsWord (below + 1 - 1) := by
          rwa [Int.add_sub_cancel]
        rcases isWord_of_doubled small fits with ⟨weightWord, aboveWord⟩
        rw [Int.add_sub_cancel] at aboveWord
        exact ⟨weightWord, aboveWord, _,
          (ih aboveWord).2 ⟨last ▸ fits, rfl⟩, rfl⟩

/-- The weights of targets are words, also those of removals. -/
theorem isWord_of_mem_weighedTargets
    {below : Int}
    {targets : List Target}
    (inRange : IsWord below)
    (fits : IsWord ((below + 1) * 2 ^ targets.length - 1)) :
    ∀ entry ∈ weighedTargets below targets, IsWord entry.2 := by
  induction targets generalizing below with
  | nil => exact fun _ impossible => nomatch impossible
  | cons target rest ih =>
      rw [← Int.add_sub_cancel below 1] at inRange
      rcases isWord_of_doubled inRange fits with ⟨weightWord, aboveWord⟩
      rw [Int.add_sub_cancel] at inRange aboveWord
      rw [weighedTargets_cons, List.forall_mem_cons]
      constructor
      · dsimp only
        split
        · exact weightWord
        · simp only [IsWord, leastWord, greatestWord]
            at inRange weightWord ⊢
          omega
      · apply ih aboveWord
        rwa [doubled_cons] at fits

theorem reports_of_targetWeights
    {below : Int}
    {targets : List Target}
    {cause : Error}
    (refused : targetWeights config below targets = .error cause) :
    config.Reports cause := by
  induction targets generalizing below with
  | nil => cases refused
  | cons target rest ih =>
      simp only [targetWeights, bind_eq_error_iff] at refused
      rcases refused with
        weighed | ⟨_, _, summed | ⟨_, _, later | ⟨_, _, finished⟩⟩⟩
      · exact reports_of_weightOr weighed
      · exact reports_of_weightOr summed
      · exact ih later
      · cases finished

/-! ## All weights -/

/-- The entries below the targets, when preferences weigh so much. -/
def lowerEntries
    (inputs : WeightInputs)
    (config : WeightConfig)
    (preferredWeight : Int) :
    List (String × Int) :=
  inputs.uncovered.map (fun id => (id, config.notSelected)) ++
    inputs.preferred.toList.map (fun id => (id, preferredWeight)) ++
    stepped (config.notSelected * config.periodFactor) inputs.periods

theorem map_fst_lowerEntries
    (inputs : WeightInputs)
    (config : WeightConfig)
    (preferredWeight : Int) :
    (lowerEntries inputs config preferredWeight).map Prod.fst =
      inputs.uncovered ++ inputs.preferred.toList ++ inputs.periods := by
  simp only [lowerEntries, List.map_append, List.map_map, Function.comp_def,
    List.map_id', map_fst_stepped]

namespace WeightInputs

/--
The weight of a preferred support: less than all penalties together, if
there are any.
-/
def preferredWeight (inputs : WeightInputs) (config : WeightConfig) : Int :=
  if config.notSelected * inputs.uncovered.length = 0 then 0
  else config.notSelected * inputs.uncovered.length - 1

/-- What the columns below the targets can take away together. -/
def threshold (inputs : WeightInputs) (config : WeightConfig) : Int :=
  -(config.notSelected * inputs.uncovered.length +
    inputs.preferredWeight config * inputs.preferred.toList.length +
    lastWeight (config.notSelected * config.periodFactor) inputs.periods)

/-- The entries of all columns, lowest level first. -/
def entries
    (inputs : WeightInputs)
    (config : WeightConfig) :
    List (String × Int) :=
  lowerEntries inputs config (inputs.preferredWeight config) ++
    weighedTargets (inputs.threshold config) inputs.targets

/-- The columns of all levels, lowest level first. -/
def columns (inputs : WeightInputs) : List String :=
  inputs.uncovered ++ inputs.preferred.toList ++ inputs.periods ++
    inputs.targets.map Target.column

theorem map_fst_entries
    (inputs : WeightInputs)
    (config : WeightConfig) :
    (inputs.entries config).map Prod.fst = inputs.columns := by
  rw [entries, List.map_append, map_fst_lowerEntries,
    map_fst_weighedTargets]
  rfl

/-- All numbers that a derivation computes are words. -/
structure Representable
    (inputs : WeightInputs)
    (config : WeightConfig) :
    Prop where
  /-- The sum of all penalties. -/
  penalties : IsWord (config.notSelected * inputs.uncovered.length)
  /-- The weight of a preference. -/
  preferred : IsWord (inputs.preferredWeight config)
  /-- The sum of the weights of all preferences. -/
  preferences :
    IsWord (inputs.preferredWeight config * inputs.preferred.toList.length)
  /-- The step from one period to the next. -/
  step : IsWord (config.notSelected * config.periodFactor)
  /-- The weight of the last period. -/
  lastPeriod :
    IsWord
      (lastWeight (config.notSelected * config.periodFactor) inputs.periods)
  /-- The sum of all penalties and preferences. -/
  lower : IsWord (config.notSelected * inputs.uncovered.length +
    inputs.preferredWeight config * inputs.preferred.toList.length)
  /-- The sum of everything below the targets. -/
  below : IsWord (-inputs.threshold config)
  /-- Its opposite. -/
  threshold : IsWord (inputs.threshold config)
  /-- The threshold above the last target. -/
  targets :
    IsWord ((inputs.threshold config + 1) * 2 ^ inputs.targets.length - 1)

/--
One of the two computations without a report leaves the range: the weight of
a preference is one less than the least word, or the step between periods is
no word and nothing has been reported before it is computed.
-/
def LeavesRange (inputs : WeightInputs) (config : WeightConfig) : Prop :=
  config.notSelected * inputs.uncovered.length = leastWord ∨
  IsWord (config.notSelected * inputs.uncovered.length) ∧
  IsWord (inputs.preferredWeight config * inputs.preferred.toList.length) ∧
  ¬ IsWord (config.notSelected * config.periodFactor)

/--
Only the sum of the penalties that is the least word has no word below it.
-/
theorem isWord_preferredWeight_iff
    {inputs : WeightInputs}
    (penalties : IsWord (config.notSelected * inputs.uncovered.length)) :
    IsWord (inputs.preferredWeight config) ↔
      config.notSelected * inputs.uncovered.length ≠ leastWord := by
  simp only [preferredWeight]
  generalize config.notSelected * (inputs.uncovered.length : Int) = sum
    at penalties ⊢
  simp only [IsWord, leastWord, greatestWord] at penalties ⊢
  split
  · omega
  · omega

/--
Every weight of the closed form is a word, if all numbers on the way to it
are.
-/
theorem Representable.isWord
    {inputs : WeightInputs}
    (fits : inputs.Representable config) :
    ∀ entry ∈ inputs.entries config, IsWord entry.2 := by
  have zero : IsWord 0 := by decide
  intro entry member
  simp only [entries, lowerEntries, List.mem_append, List.mem_map] at member
  rcases member with
    ((⟨id, uncovered, rfl⟩ | ⟨id, preferred, rfl⟩) | period) | target
  · apply isWord_of_between zero fits.penalties
    have some : (1 : Int) ≤ inputs.uncovered.length := by
      exact_mod_cast List.length_pos_of_mem uncovered
    rcases Int.le_total 0 config.notSelected with up | down
    · have more := Int.mul_le_mul_of_nonneg_left some up
      rw [Int.mul_one] at more
      exact Or.inl ⟨up, more⟩
    · have less := Int.mul_le_mul_of_nonpos_left down some
      rw [Int.mul_one] at less
      exact Or.inr ⟨less, down⟩
  · exact fits.preferred
  · exact isWord_of_between zero fits.lastPeriod (stepped_between period)
  · exact isWord_of_mem_weighedTargets fits.threshold fits.targets entry
      target

end WeightInputs

theorem preferenceWeight_eq_ok_iff
    {inputs : WeightInputs}
    {weight : Int} :
    preferenceWeight (config.notSelected * inputs.uncovered.length) =
        .ok weight ↔
      IsWord (inputs.preferredWeight config) ∧
      weight = inputs.preferredWeight config := by
  simp only [preferenceWeight, WeightInputs.preferredWeight]
  split
  · have zero : IsWord 0 := by decide
    simp [zero, eq_comm]
  · rw [word_eq_ok_iff, @eq_comm _ _ weight]

theorem preferenceWeight_eq_error_iff
    {inputs : WeightInputs}
    {fault : Fault} :
    preferenceWeight (config.notSelected * inputs.uncovered.length) =
        .error fault ↔
      ¬ IsWord (inputs.preferredWeight config) ∧ fault = .overflow := by
  simp only [preferenceWeight, WeightInputs.preferredWeight]
  split
  · have zero : IsWord 0 := by decide
    simp [zero]
  · rw [word_eq_error_iff]

/-- The steps of a derivation, in their order. -/
private theorem derive_eq_steps
    (inputs : WeightInputs)
    (config : WeightConfig) :
    Weights.derive inputs config = (do
      let penalties ← combined config config.notSelected inputs.uncovered
      let preferredWeight ← preferenceWeight penalties
      let preferences ←
        combined config preferredWeight inputs.preferred.toList
      let step ← config.periodStep
      let periods ← periodWeights config step inputs.periods
      let lastPeriod := (periods.getLast?.map Prod.snd).getD 0
      let below ← thresholdBelow config penalties preferences lastPeriod
      let targets ← targetWeights config below inputs.targets
      let values := OrderedMap.ofList
        (inputs.uncovered.map (fun id => (id, config.notSelected)) ++
          inputs.preferred.toList.map (fun id => (id, preferredWeight)) ++
          periods ++ targets)
      return ⟨values, firstSaturated? config values⟩) := by
  rw [Weights.derive]
  congr 1
  funext penalties
  -- the conditional weight of a preference splits everything that comes
  -- after it
  dsimp only [preferenceWeight]
  split
  · rfl
  · rfl

/--
A derivation returns the weights in closed form, if all numbers on the way
are words.
-/
theorem derive_eq_ok_iff
    {inputs : WeightInputs}
    {weights : Weights} :
    Weights.derive inputs config = .ok weights ↔
      inputs.Representable config ∧
      weights.values = OrderedMap.ofList (inputs.entries config) ∧
      weights.saturated = firstSaturated? config weights.values := by
  rw [derive_eq_steps]
  simp only [bind_eq_ok_iff, refusable_eq_ok_iff, faulting_eq_ok_iff]
  constructor
  · rintro
      ⟨_, penalties, _, preferred, _, preferences, _, step, _, periods, _,
        below, _, targets, finished⟩
    rcases combined_eq_ok_iff.1 penalties with ⟨penaltiesWord, rfl⟩
    rcases preferenceWeight_eq_ok_iff.1 preferred with ⟨preferredWord, rfl⟩
    rcases combined_eq_ok_iff.1 preferences with ⟨preferencesWord, rfl⟩
    rcases word_eq_ok_iff.1 step with ⟨stepWord, rfl⟩
    rcases periodWeights_eq_ok_iff.1 periods with ⟨lastWord, rfl⟩
    rcases thresholdBelow_eq_ok_iff.1 below with
      ⟨lowerWord, belowWord, inRange, rfl⟩
    rcases (targetWeights_eq_ok_iff inRange).1 targets with ⟨fits, rfl⟩
    cases finished
    refine ⟨⟨penaltiesWord, preferredWord, preferencesWord, stepWord,
              lastWord, lowerWord, ?_, inRange, fits⟩, rfl, rfl⟩
    rw [WeightInputs.threshold, Int.neg_neg]
    exact belowWord
  · rintro ⟨fits, valuesEq, saturatedEq⟩
    refine ⟨_, combined_eq_ok_iff.2 ⟨fits.penalties, rfl⟩, _,
      preferenceWeight_eq_ok_iff.2 ⟨fits.preferred, rfl⟩, _,
      combined_eq_ok_iff.2 ⟨fits.preferences, rfl⟩, _,
      word_eq_ok_iff.2 ⟨fits.step, rfl⟩, _,
      periodWeights_eq_ok_iff.2 ⟨fits.lastPeriod, rfl⟩,
      inputs.threshold config,
      thresholdBelow_eq_ok_iff.2 ⟨fits.lower, ?_, fits.threshold, rfl⟩, _,
      (targetWeights_eq_ok_iff fits.threshold).2 ⟨fits.targets, rfl⟩, ?_⟩
    · have below := fits.below
      rwa [WeightInputs.threshold, Int.neg_neg] at below
    · rcases weights with ⟨values, saturated⟩
      dsimp only at valuesEq saturatedEq
      subst saturatedEq
      subst valuesEq
      rfl

/--
A derivation returns weights exactly if all numbers that it computes are
words.
-/
theorem exists_derive_iff
    {inputs : WeightInputs} :
    (∃ weights, Weights.derive inputs config = .ok weights) ↔
      inputs.Representable config := by
  constructor
  · rintro ⟨weights, derived⟩
    exact (derive_eq_ok_iff.1 derived).1
  · intro fits
    let values := OrderedMap.ofList (inputs.entries config)
    exact ⟨⟨values, firstSaturated? config values⟩,
      derive_eq_ok_iff.2 ⟨fits, rfl, rfl⟩⟩

/--
A derivation faults exactly if a computation without a report leaves the
range.
-/
theorem derive_eq_fault_iff
    {inputs : WeightInputs}
    {fault : Fault} :
    Weights.derive inputs config = .error (.fault fault) ↔
      inputs.LeavesRange config ∧ fault = .overflow := by
  rw [derive_eq_steps]
  simp only [bind_eq_error_iff, refusable_eq_error_iff,
    faulting_eq_error_iff, refusable_eq_ok_iff, faulting_eq_ok_iff]
  constructor
  · rintro (⟨_, _, impossible⟩ | ⟨_, penalties, afterPenalties⟩)
    · cases impossible
    rcases combined_eq_ok_iff.1 penalties with ⟨penaltiesWord, rfl⟩
    rcases afterPenalties with
      ⟨cause, preferred, same⟩ | ⟨_, preferred, afterPreferred⟩
    · cases same
      rcases preferenceWeight_eq_error_iff.1 preferred with ⟨outside, rfl⟩
      rw [WeightInputs.isWord_preferredWeight_iff penaltiesWord,
        Decidable.not_not] at outside
      exact ⟨Or.inl outside, rfl⟩
    rcases preferenceWeight_eq_ok_iff.1 preferred with ⟨preferredWord, rfl⟩
    rcases afterPreferred with
      ⟨_, _, impossible⟩ | ⟨_, preferences, afterPreferences⟩
    · cases impossible
    rcases combined_eq_ok_iff.1 preferences with ⟨preferencesWord, rfl⟩
    rcases afterPreferences with ⟨cause, step, same⟩ | ⟨_, _, later⟩
    · cases same
      rcases word_eq_error_iff.1 step with ⟨outside, rfl⟩
      exact ⟨Or.inr ⟨penaltiesWord, preferencesWord, outside⟩, rfl⟩
    -- whatever comes after the step between periods can only be refused
    rcases later with ⟨_, _, impossible⟩ | ⟨_, _, ⟨_, _, impossible⟩ |
      ⟨_, _, ⟨_, _, impossible⟩ | ⟨_, _, impossible⟩⟩⟩
    all_goals cases impossible
  · rintro ⟨outside, rfl⟩
    have penaltiesWord :
        IsWord (config.notSelected * inputs.uncovered.length) := by
      rcases outside with least | ⟨penaltiesWord, _⟩
      · rw [least]
        decide
      · exact penaltiesWord
    refine Or.inr ⟨_, combined_eq_ok_iff.2 ⟨penaltiesWord, rfl⟩, ?_⟩
    by_cases least :
        config.notSelected * inputs.uncovered.length = leastWord
    · refine Or.inl
        ⟨.overflow, preferenceWeight_eq_error_iff.2 ⟨?_, rfl⟩, rfl⟩
      rwa [WeightInputs.isWord_preferredWeight_iff penaltiesWord,
        Decidable.not_not]
    · rcases outside with impossible | ⟨_, preferencesWord, stepOutside⟩
      · exact absurd impossible least
      · have preferred :=
          preferenceWeight_eq_ok_iff.2
            ⟨(WeightInputs.isWord_preferredWeight_iff penaltiesWord).2
              least, rfl⟩
        exact Or.inr
          ⟨_, preferred,
            Or.inr
              ⟨_, combined_eq_ok_iff.2 ⟨preferencesWord, rfl⟩,
                Or.inl
                  ⟨.overflow, word_eq_error_iff.2 ⟨stepOutside, rfl⟩, rfl⟩⟩⟩

/-- A derivation is refused only with the report of a weight. -/
theorem reports_of_derive
    {inputs : WeightInputs}
    {cause : Error}
    (refused : Weights.derive inputs config = .error (.error cause)) :
    config.Reports cause := by
  rw [derive_eq_steps] at refused
  simp only [bind_eq_error_iff, refusable_eq_error_iff,
    faulting_eq_error_iff, Failure.error.injEq, reduceCtorEq, and_false,
    exists_false, false_or, exists_eq_right'] at refused
  rcases refused with
    penalties |
      ⟨_, _, _, _,
        preferences |
          ⟨_, _, _, _,
            periods | ⟨_, _, below | ⟨_, _, targets | ⟨_, _, finished⟩⟩⟩⟩⟩
  · exact reports_of_combined penalties
  · exact reports_of_combined preferences
  · exact reports_of_periodWeights periods
  · exact reports_of_thresholdBelow below
  · exact reports_of_targetWeights targets
  · cases finished

/--
A derivation returns, is refused with the report of a weight, or faults.
-/
theorem derive_cases
    (inputs : WeightInputs)
    (config : WeightConfig) :
    (inputs.Representable config ∧
      ∃ weights, Weights.derive inputs config = .ok weights) ∨
    (inputs.LeavesRange config ∧
      Weights.derive inputs config = .error (.fault .overflow)) ∨
    ∃ cause,
      config.Reports cause ∧
      Weights.derive inputs config = .error (.error cause) := by
  cases ended : Weights.derive inputs config with
  | ok weights => exact Or.inl ⟨(derive_eq_ok_iff.1 ended).1, weights, rfl⟩
  | error failure =>
      cases failure with
      | fault fault =>
          rcases derive_eq_fault_iff.1 ended with ⟨outside, rfl⟩
          exact Or.inr (Or.inl ⟨outside, rfl⟩)
      | error cause =>
          exact Or.inr (Or.inr ⟨cause, reports_of_derive ended, rfl⟩)

end Configurator.Objective
