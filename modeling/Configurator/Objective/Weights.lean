import Configurator.Arithmetic.Word
import Configurator.Collection.OrderedMap
import Configurator.Collection.OrderedSet
import Configurator.Request.Selection

/-!
# Lexicographic weights

One linear objective ranks configurations by several concerns: a later
selection before an earlier one, selections before preferences, preferences
before the penalty for what no selection mentions, and that before the order
of the periods.  Each selection's weight exceeds everything below it
together, so the weights of selections double from one priority to the next,
until they leave the range of a word.
-/

namespace Configurator.Objective

open Configurator.Arithmetic Configurator.Collection Configurator.Request

/-- The constants from which weights are derived. -/
structure WeightConfig where
  /-- The weight of a selectable variable that no selection mentions. -/
  notSelected : Int := -2
  /-- The step between periods as a multiple of that weight. -/
  periodFactor : Int := 6
  /-- The magnitude beyond which a weight is reported. -/
  saturationThreshold : Int := 36028797018963968
  deriving DecidableEq

/-- The step between the weights of consecutive periods. -/
def WeightConfig.periodStep (config : WeightConfig) : Except Fault Int :=
  word (config.notSelected * config.periodFactor)

/-- The column that decides a selection, and what the selection asks for. -/
structure Target where
  column : String
  action : Action
  deriving DecidableEq

/-- What weights are derived from, all by variable id. -/
structure WeightInputs where
  selectable : OrderedSet String
  /-- The ids that selections mention. -/
  covered : OrderedSet String
  /-- The supports that hold where a preference is not met. -/
  preferred : OrderedSet String
  /-- The period variables in chronological order. -/
  periods : List String
  /-- The selections, lowest priority first. -/
  targets : List Target

/--
The weights of the columns, and the first weight beyond the threshold.
-/
structure Weights where
  values : OrderedMap String Int
  saturated : Option Error
  deriving DecidableEq

namespace WeightInputs

/-- The selectable variables that no selection mentions. -/
def uncovered (inputs : WeightInputs) : List String :=
  inputs.selectable.toList.filter fun id => id ∉ inputs.covered

end WeightInputs

/-- The number if it is a word, else a report of the weight of `id`. -/
def weightOr
    (config : WeightConfig)
    (id : String)
    (weight number : Int) :
    Except Error Int :=
  match word? number with
  | some value => .ok value
  | none => .error (.weightSaturated id weight config.saturationThreshold)

/-- The weights of ids that all have the same one, added up. -/
def combined
    (config : WeightConfig)
    (weight : Int)
    (ids : List String) :
    Except Error Int :=
  ids.foldlM (fun sum id => weightOr config id sum (sum + weight)) 0

/-- The periods with their weights: from zero in equal steps. -/
def periodWeights
    (config : WeightConfig)
    (step : Int)
    (periods : List String) :
    Except Error (List (String × Int)) :=
  periods.zipIdx.mapM fun (id, index) => do
    return (id, ← weightOr config id step (index * step))

/--
The targets with their weights, where `below` is the greatest sum of all
weights of lower priority.
-/
def targetWeights
    (config : WeightConfig) :
    (below : Int) → List Target → Except Error (List (String × Int))
  | _, [] => .ok []
  | below, target :: rest => do
      let weight ← weightOr config target.column below (below + 1)
      let above ← weightOr config target.column weight (below + weight)
      let others ← targetWeights config above rest
      let signed := if target.action.isAdd then weight else -weight
      return (target.column, signed) :: others

/-- The first weight whose magnitude exceeds the threshold. -/
def firstSaturated?
    (config : WeightConfig)
    (values : OrderedMap String Int) :
    Option Error :=
  values.entries.findSome? fun (id, weight) =>
    if config.saturationThreshold.natAbs < weight.natAbs then
      some (.weightSaturated id weight config.saturationThreshold)
    else none

/-- The greatest sum of the weights below all targets. -/
def thresholdBelow
    (config : WeightConfig)
    (penalties preferences lastPeriod : Int) :
    Except Error Int :=
  let sum := do
    let both ← word? (penalties + preferences)
    let all ← word? (both + lastPeriod)
    word? (-all)
  match sum with
  | some threshold => .ok threshold
  | none =>
      .error
        (.weightSaturated "threshold" penalties config.saturationThreshold)

/-- The weights of all columns. -/
def Weights.derive
    (inputs : WeightInputs)
    (config : WeightConfig) :
    Except Failure Weights := do
  let penalties ← combined config config.notSelected inputs.uncovered
  let preferredWeight ←
    if penalties = 0 then pure 0 else word (penalties - 1)
  let preferences ← combined config preferredWeight inputs.preferred.toList
  let step ← config.periodStep
  let periods ← periodWeights config step inputs.periods
  let lastPeriod := (periods.getLast?.map Prod.snd).getD 0
  let below ← thresholdBelow config penalties preferences lastPeriod
  let targets ← targetWeights config below inputs.targets
  let values := OrderedMap.ofList
    (inputs.uncovered.map (fun id => (id, config.notSelected)) ++
      inputs.preferred.toList.map (fun id => (id, preferredWeight)) ++
      periods ++ targets)
  return ⟨values, firstSaturated? config values⟩

end Configurator.Objective
