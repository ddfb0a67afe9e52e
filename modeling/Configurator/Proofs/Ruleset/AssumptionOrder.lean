import Configurator.Proofs.Collection.Precedence
import Configurator.Proofs.Lockstep
import Configurator.Proofs.Logic.Rebuilding
import Configurator.Proofs.Ruleset.Lowering

/-!
# The order of assumptions

The assumptions of a model are listed in the order in which they were made,
and compiling goes through this list.  Until the last step, though, nothing
reads it: models that assume the same ids in another order stay alike, and
so do their builders.  The last step joins several assumptions in a
conjunction, which has the same plan for the same ids, so alike models
become equal there.
-/

namespace Configurator.Logic

open Configurator.Collection

/--
The conjunction of several ids does not depend on the order in which they
are listed.
-/
theorem Connective.lower_conjunction_congr
    {left right : OrderedSet String}
    (same : ∀ id, id ∈ left ↔ id ∈ right)
    (several : 2 ≤ left.size) :
    conjunction.lower left.toList = conjunction.lower right.toList := by
  have permuted : left.toList.Perm right.toList :=
    (List.perm_ext_iff_of_nodup left.nodup right.nodup).2 same
  have enough : ¬ left.toList.length < conjunction.leastOperands :=
    Nat.not_lt.2 several
  simp only [lower, Lowering.allOf, Lowering.withDistinct,
    OrderedSet.ofList_toList]
  rw [← permuted.length_eq, if_neg enough, if_neg enough,
    Constraint.atLeast, Constraint.atLeast,
    Constraint.cardinality_congr permuted left.nodup]

namespace Model

/-- The models differ at most in the order of their assumptions. -/
structure Alike (left right : Model) : Prop where
  /-- The variables are the same. -/
  ids_eq : left.ids = right.ids
  /-- The constraints are the same. -/
  constraints_eq : left.constraints = right.constraints
  /-- The same ids are assumed. -/
  assumed_iff : ∀ id, id ∈ left.assumed ↔ id ∈ right.assumed

/-- The results are the same, and they come with alike models. -/
def AlikeAfter {α : Type} (first second : α × Model) : Prop :=
  first.1 = second.1 ∧ first.2.Alike second.2

namespace Alike

variable {left right : Model}

theorem require
    (alike : left.Alike right)
    (ids : List String) :
    left.require ids = right.require ids := by
  induction ids with
  | nil => rfl
  | cons id rest ih => simp only [Model.require, alike.ids_eq, ih]

theorem introduce
    (alike : left.Alike right)
    (constraint : Constraint) :
    InStep Alike (left.introduce constraint)
      (right.introduce constraint) := by
  have sameSupport :
      left.isSupport constraint.id = right.isSupport constraint.id := by
    simp only [isSupport, alike.constraints_eq]
  simp only [Model.introduce, sameSupport, alike.ids_eq,
    alike.constraints_eq]
  by_cases supported : right.isSupport constraint.id = true
  · rw [if_pos supported, if_pos supported]
    exact alike
  · rw [if_neg supported, if_neg supported]
    by_cases taken : constraint.id ∈ right.ids
    · rw [if_pos taken, if_pos taken]
      rfl
    · rw [if_neg taken, if_neg taken]
      cases constraint.operands.find? (· ∉ right.ids) with
      | some missing => rfl
      | none => exact ⟨rfl, rfl, alike.assumed_iff⟩

/-- The same plan leads to the same outcome. -/
theorem carryOut
    (alike : left.Alike right)
    (plan : Lowering) :
    (left.carryOut plan).1 = (right.carryOut plan).1 ∧
    (left.carryOut plan).2.Alike (right.carryOut plan).2 := by
  induction plan generalizing left right with
  | done constraint =>
      simp only [Model.carryOut]
      rcases (alike.introduce constraint).cases with
        ⟨grown, grown', leftEnd, rightEnd, grownAlike⟩ |
          ⟨cause, leftEnd, rightEnd⟩
      · rw [leftEnd, rightEnd]
        exact ⟨rfl, grownAlike⟩
      · rw [leftEnd, rightEnd]
        exact ⟨rfl, alike⟩
  | refused cause => exact ⟨rfl, alike⟩
  | after helper rest ih =>
      simp only [Model.carryOut]
      rcases (alike.introduce helper).cases with
        ⟨grown, grown', leftEnd, rightEnd, grownAlike⟩ |
          ⟨cause, leftEnd, rightEnd⟩
      · rw [leftEnd, rightEnd]
        exact ih grownAlike
      · rw [leftEnd, rightEnd]
        exact ⟨rfl, alike⟩

theorem set
    (alike : left.Alike right)
    (connective : Connective)
    (operands : List String) :
    (left.set connective operands).1 = (right.set connective operands).1 ∧
    (left.set connective operands).2.Alike
      (right.set connective operands).2 := by
  simp only [Model.set, alike.require]
  split
  · exact ⟨rfl, alike⟩
  · exact alike.carryOut _

theorem extend
    (alike : left.Alike right)
    (connective : Connective)
    (operands : List String) :
    InStep AlikeAfter (left.extend connective operands)
      (right.extend connective operands) := by
  obtain ⟨sameEnd, alikeAfter⟩ := alike.set connective operands
  simp only [Model.extend]
  rcases leftEnd : left.set connective operands with ⟨leftResult, leftGrown⟩
  rcases rightEnd : right.set connective operands with
    ⟨rightResult, rightGrown⟩
  rw [leftEnd, rightEnd] at sameEnd alikeAfter
  obtain rfl : leftResult = rightResult := sameEnd
  cases leftResult with
  | ok support => exact ⟨rfl, alikeAfter⟩
  | error cause => rfl

theorem addPrimitives
    (alike : left.Alike right)
    (names : List String) :
    InStep Alike (left.addPrimitives names)
      (right.addPrimitives names) := by
  simp only [Model.addPrimitives, alike.ids_eq]
  cases names.foldlM declare right.ids with
  | ok ids => exact ⟨rfl, alike.constraints_eq, alike.assumed_iff⟩
  | error cause => rfl

theorem assume
    (alike : left.Alike right)
    (ids : List String) :
    InStep Alike (left.assume ids) (right.assume ids) := by
  simp only [Model.assume, alike.require]
  cases right.require ids with
  | ok _ =>
      refine ⟨alike.ids_eq, alike.constraints_eq, fun id => ?_⟩
      exact OrderedSet.mem_append.trans
        ((or_congr_left (alike.assumed_iff id)).trans
          OrderedSet.mem_append.symm)
  | error cause => rfl

theorem replaceAssumed_eq
    (alike : left.Alike right)
    (root : String) :
    left.replaceAssumed root = right.replaceAssumed root := by
  simp only [replaceAssumed, alike.ids_eq, alike.constraints_eq]

/-- A single assumption can be listed in one order only. -/
theorem eq_of_size_le_one
    (alike : left.Alike right)
    (few : left.assumed.size ≤ 1) :
    left = right := by
  have permuted : left.assumed.toList.Perm right.assumed.toList :=
    (List.perm_ext_iff_of_nodup left.assumed.nodup right.assumed.nodup).2
      alike.assumed_iff
  have listed : left.assumed.toList = right.assumed.toList := by
    match found : left.assumed.toList with
    | [] =>
        rw [found] at permuted
        exact permuted.nil_eq
    | [id] =>
        rw [found] at permuted
        exact (List.perm_singleton.1 permuted.symm).symm
    | first :: second :: rest =>
        rw [OrderedSet.size, found] at few
        exact absurd few (by simp)
  show (⟨left.ids, left.constraints, left.assumed⟩ : Model) = right
  rw [alike.ids_eq, alike.constraints_eq, OrderedSet.ext listed]

/-- The same request leads to alike models. -/
theorem apply
    (alike : left.Alike right)
    (step : Step) :
    (left.apply step).Alike (right.apply step) := by
  cases step with
  | addPrimitives names =>
      simp only [Model.apply]
      rcases (alike.addPrimitives names).cases with
        ⟨grown, grown', leftEnd, rightEnd, grownAlike⟩ |
          ⟨cause, leftEnd, rightEnd⟩
      · rw [leftEnd, rightEnd]
        exact grownAlike
      · rw [leftEnd, rightEnd]
        exact alike
  | set connective operands => exact (alike.set connective operands).2
  | assume ids =>
      simp only [Model.apply]
      rcases (alike.assume ids).cases with
        ⟨grown, grown', leftEnd, rightEnd, grownAlike⟩ |
          ⟨cause, leftEnd, rightEnd⟩
      · rw [leftEnd, rightEnd]
        exact grownAlike
      · rw [leftEnd, rightEnd]
        exact alike

end Alike

end Model

end Configurator.Logic

namespace Configurator

open Configurator.Collection Configurator.Logic Configurator.Schedule

namespace Builder

/-! ## Lowering alike models -/

section Lowering

variable {left right : Model}

theorem lowerPreferences_alike
    (alike : left.Alike right)
    (preferences : List String) :
    InStep Model.AlikeAfter (lowerPreferences left preferences)
      (lowerPreferences right preferences) := by
  refine InStep.foldlM ?_ ⟨rfl, alike⟩
  rintro id _ ⟨supports, grown⟩ ⟨_, grown'⟩ ⟨rfl, grownAlike⟩
  refine (Model.Alike.extend grownAlike .negation [id]).bind ?_
  rintro ⟨support, next⟩ ⟨_, next'⟩ _ _ ⟨rfl, nextAlike⟩
  exact ⟨rfl, nextAlike⟩

theorem joined_alike
    (alike : left.Alike right)
    (connective : Connective)
    (ids : List String) :
    InStep Model.AlikeAfter (joined connective left ids)
      (joined connective right ids) := by
  rcases ids with _ | ⟨first, _ | ⟨second, rest⟩⟩
  · exact alike.extend connective []
  · exact ⟨rfl, alike⟩
  · exact alike.extend connective (first :: second :: rest)

theorem lowerGroup_alike
    (alike : left.Alike right)
    (group : List String × List Nat) :
    InStep Model.Alike (lowerGroup left group)
      (lowerGroup right group) := by
  refine (joined_alike alike .disjunction _).bind ?_
  rintro ⟨during, first⟩ ⟨_, first'⟩ _ _ ⟨rfl, firstAlike⟩
  refine (joined_alike firstAlike .conjunction _).bind ?_
  rintro ⟨required, second⟩ ⟨_, second'⟩ _ _ ⟨rfl, secondAlike⟩
  refine
    (Model.Alike.extend secondAlike .implication [during, required]).bind ?_
  rintro ⟨rule, third⟩ ⟨_, third'⟩ _ _ ⟨rfl, thirdAlike⟩
  exact Model.Alike.assume thirdAlike [rule]

theorem assumeExactlyOne_alike
    (alike : left.Alike right)
    (names : List String) :
    InStep Model.Alike (assumeExactlyOne left names)
      (assumeExactlyOne right names) := by
  have several (names : List String) :
      InStep Model.Alike
        (left.extend .exactlyOne names >>=
          fun chosen => chosen.2.assume [chosen.1])
        (right.extend .exactlyOne names >>=
          fun chosen => chosen.2.assume [chosen.1]) := by
    refine (alike.extend .exactlyOne names).bind ?_
    rintro ⟨one, grown⟩ ⟨_, grown'⟩ _ _ ⟨rfl, grownAlike⟩
    exact Model.Alike.assume grownAlike [one]
  rcases names with _ | ⟨first, _ | ⟨second, rest⟩⟩
  · exact several []
  · exact alike.assume [first]
  · exact several (first :: second :: rest)

theorem lowerPeriods_alike
    {builder builder' : Builder}
    (alike : left.Alike right)
    (bounds : builder.bounds = builder'.bounds)
    (enabled : builder.enabledPeriod = builder'.enabledPeriod) :
    InStep Model.AlikeAfter (builder.lowerPeriods left)
      (builder'.lowerPeriods right) := by
  have span : builder.span = builder'.span := by
    rw [Builder.span, Builder.span, bounds, enabled]
  simp only [lowerPeriods, span, bounds]
  cases builder'.span with
  | none => exact ⟨rfl, alike⟩
  | some span =>
      refine (alike.addPrimitives _).bind
        fun declared declared' _ _ declaredAlike => ?_
      refine (assumeExactlyOne_alike declaredAlike _).bind
        fun one one' _ _ oneAlike => ?_
      refine (InStep.foldlM
               (fun group _ _ _ grownAlike =>
                 lowerGroup_alike grownAlike group) oneAlike).bind
        fun grouped grouped' _ _ groupedAlike => ?_
      exact ⟨rfl, groupedAlike⟩

/-- Joining their assumptions makes alike models equal. -/
theorem lowerAssumptions_alike
    (alike : left.Alike right)
    (leftFormed : left.WellFormed)
    (rightFormed : right.WellFormed) :
    lowerAssumptions left = lowerAssumptions right := by
  have permuted : left.assumed.toList.Perm right.assumed.toList :=
    (List.perm_ext_iff_of_nodup left.assumed.nodup right.assumed.nodup).2
      alike.assumed_iff
  have sameSize : left.assumed.size = right.assumed.size :=
    permuted.length_eq
  simp only [lowerAssumptions, ← sameSize]
  by_cases several : 2 ≤ left.assumed.size
  · rw [if_pos several, if_pos several]
    have rightKnown : right.require right.assumed.toList = .ok () :=
      Model.require_of_known rightFormed rightFormed.assumed_known
    have leftKnown : right.require left.assumed.toList = .ok () := by
      rw [← alike.require]
      exact Model.require_of_known leftFormed leftFormed.assumed_known
    have relisted : right.extend .conjunction right.assumed.toList =
        right.extend .conjunction left.assumed.toList := by
      simp only [Model.extend, Model.set, rightKnown, leftKnown,
        Connective.lower_conjunction_congr alike.assumed_iff several]
    rw [relisted]
    refine InStep.eq ((alike.extend .conjunction _).bind ?_)
    rintro ⟨root, rooted⟩ ⟨_, rooted'⟩ _ _ ⟨rfl, rootedAlike⟩
    exact Model.Alike.replaceAssumed_eq rootedAlike root
  · rw [if_neg several, if_neg several, alike.eq_of_size_le_one (by omega)]

end Lowering

/-! ## Builders that assume the same ids -/

/-- The builders differ at most in the order of their assumptions. -/
structure Alike (left right : Builder) : Prop where
  /-- The models differ at most in this order. -/
  model : left.model.Alike right.model
  /-- The same ids are preferred, in the same order. -/
  preferences_eq : left.preferences = right.preferences
  /-- The time bounds are the same. -/
  bounds_eq : left.bounds = right.bounds
  /-- The same period is enabled. -/
  enabledPeriod_eq : left.enabledPeriod = right.enabledPeriod

namespace Alike

variable {left right : Builder}

theorem orUnchanged
    (alike : left.Alike right)
    {attempt attempt' : Except Error Builder}
    (inStep : InStep Alike attempt attempt') :
    (left.orUnchanged attempt).Alike (right.orUnchanged attempt') := by
  rcases inStep.cases with
    ⟨changed, changed', rfl, rfl, changedAlike⟩ | ⟨cause, rfl, rfl⟩
  · exact changedAlike
  · exact alike

/-- The same request leads to alike builders. -/
theorem apply
    (alike : left.Alike right)
    (step : Step) :
    (left.apply step).Alike (right.apply step) := by
  cases step with
  | model request => exact { alike with model := alike.model.apply request }
  | prefer ids =>
      refine alike.orUnchanged ?_
      simp only [prefer, alike.model.require, alike.preferences_eq]
      cases right.model.require ids with
      | ok _ => exact { alike with preferences_eq := rfl }
      | error cause => rfl
  | assume ids =>
      refine alike.orUnchanged ?_
      refine (alike.model.assume ids).bind
        fun grown grown' _ _ grownAlike => ?_
      exact { alike with model := grownAlike }
  | assumeInPeriod id period =>
      refine alike.orUnchanged ?_
      simp only [assumeInPeriod, alike.model.require, alike.bounds_eq,
        alike.enabledPeriod_eq]
      cases right.model.require [id] with
      | error cause => rfl
      | ok _ =>
          cases right.enabledPeriod with
          | none =>
              exact { alike with bounds_eq := rfl, enabledPeriod_eq := rfl }
          | some enabled =>
              by_cases covered : enabled.Covers period
              · simp only [covered]
                exact
                  { alike with bounds_eq := rfl, enabledPeriod_eq := rfl }
              · simp only [covered]
                rfl
  | enablePeriod period =>
      refine alike.orUnchanged ?_
      simp only [enablePeriod, alike.bounds_eq]
      cases right.bounds.find? fun bound =>
        ¬ period.Covers bound.period with
      | some bound => rfl
      | none =>
          exact { alike with bounds_eq := rfl, enabledPeriod_eq := rfl }

/-- The same requests keep builders alike. -/
theorem run
    (alike : left.Alike right)
    (steps : List Step) :
    (left.run steps).Alike (right.run steps) := by
  induction steps generalizing left right with
  | nil => exact alike
  | cons step rest ih => exact ih (alike.apply step)

/--
Alike builders are lowered to the same model, or refused for the same cause.
-/
theorem lower_eq
    (alike : left.Alike right)
    (leftFormed : left.model.WellFormed)
    (rightFormed : right.model.WellFormed) :
    left.lower = right.lower := by
  simp only [lower, alike.preferences_eq]
  refine InStep.eq ((lowerPreferences_alike alike.model _).bind ?_)
  rintro ⟨supports, preferred⟩ ⟨_, preferred'⟩ leftPreferred rightPreferred
    ⟨rfl, preferredAlike⟩
  refine (lowerPeriods_alike preferredAlike alike.bounds_eq
           alike.enabledPeriod_eq).bind ?_
  rintro ⟨periods, timed⟩ ⟨_, timed'⟩ leftTimed rightTimed ⟨rfl, timedAlike⟩
  have timedFormed : timed.WellFormed := by
    rw [lowerPeriods_eq_run leftTimed,
      (lowerPreferences_eq_ok leftPreferred).1]
    exact (leftFormed.run _).run _
  have timedFormed' : timed'.WellFormed := by
    rw [lowerPeriods_eq_run rightTimed,
      (lowerPreferences_eq_ok rightPreferred).1]
    exact (rightFormed.run _).run _
  simp only [lowerAssumptions_alike timedAlike timedFormed timedFormed']
  cases lowerAssumptions timed' with
  | ok model => rfl
  | error cause => rfl

/--
Alike builders compile to the same rule set, or fail for the same cause.
-/
theorem build_eq
    (alike : left.Alike right)
    (leftFormed : left.model.WellFormed)
    (rightFormed : right.model.WellFormed) :
    left.build = right.build := by
  simp only [build, alike.lower_eq leftFormed rightFormed,
    alike.preferences_eq, alike.enabledPeriod_eq]

end Alike

/-! ## Assuming in several calls -/

/--
Known ids that are assumed in several calls are assumed in the order of the
calls.
-/
theorem run_assume
    {builder : Builder}
    (wellFormed : builder.model.WellFormed)
    {calls : List (List String)}
    (known : ∀ id ∈ calls.flatten, id ∈ builder.model.ids) :
    builder.run (calls.map .assume) =
      { builder with
          model :=
            { builder.model with
                assumed :=
                  builder.model.assumed.append calls.flatten } } := by
  induction calls generalizing builder with
  | nil => rfl
  | cons ids rest ih =>
      rw [List.flatten_cons, List.forall_mem_append] at known
      have granted : builder.assume ids = .ok { builder with
          model :=
            { builder.model with
                assumed := builder.model.assumed.append ids } } := by
        simp only [assume, Model.assume,
          Model.require_of_known wellFormed known.1]
        rfl
      have applied : builder.apply (.assume ids) = { builder with
          model :=
            { builder.model with
                assumed := builder.model.assumed.append ids } } := by
        simp only [apply, granted, orUnchanged]
      have keptFormed : (builder.apply (.assume ids)).model.WellFormed :=
        wellFormed_run wellFormed [.assume ids]
      show (builder.apply (.assume ids)).run (rest.map .assume) = _
      rw [ih keptFormed (by rw [applied]; exact known.2), applied]
      simp only [List.flatten_cons, OrderedSet.append, List.foldl_append]

/--
The order of assumptions is irrelevant.  Whatever was requested of a builder
before, two sequences of calls that assume the same known ids, in any order,
with repetitions and split in any way, leave builders that compile to the
same rule set or fail for the same cause, also after the same further
requests.
-/
theorem build_assume_order
    (before later : List Step)
    (left right : List (List String))
    (known :
      ∀ id ∈ left.flatten, id ∈ ((ofModel .empty).run before).model.ids)
    (same : ∀ id, id ∈ left.flatten ↔ id ∈ right.flatten) :
    let builder := (ofModel .empty).run before
    ((builder.run (left.map .assume)).run later).build =
      ((builder.run (right.map .assume)).run later).build := by
  intro builder
  have wellFormed : builder.model.WellFormed :=
    wellFormed_run Model.wellFormed_empty before
  have knownAgain : ∀ id ∈ right.flatten, id ∈ builder.model.ids :=
    fun id member => known id ((same id).2 member)
  have alike :
      (builder.run (left.map .assume)).Alike
        (builder.run (right.map .assume)) := by
    rw [run_assume wellFormed known, run_assume wellFormed knownAgain]
    refine ⟨⟨rfl, rfl, fun id => ?_⟩, rfl, rfl, rfl⟩
    exact OrderedSet.mem_append.trans
      ((or_congr_right (same id)).trans OrderedSet.mem_append.symm)
  refine (alike.run later).build_eq ?_ ?_
  · exact wellFormed_run (wellFormed_run wellFormed _) later
  · exact wellFormed_run (wellFormed_run wellFormed _) later

/-- Three ids are assumed in two calls, or the other way round in three. -/
theorem build_assume_order_reversed :
    let builder :=
      (ofModel .empty).run [.model (.addPrimitives ["a", "b", "c"])]
    ∃ ruleset,
      ((builder.run [.assume ["a", "b"], .assume ["c"]]).run
        [.prefer ["b"]]).build =
        .ok ruleset ∧
      ((builder.run
         [.assume ["c", "c"], .assume ["b"], .assume ["b", "a"]]).run
        [.prefer ["b"]]).build =
        .ok ruleset := by
  intro builder
  have ordered :=
    build_assume_order [.model (.addPrimitives ["a", "b", "c"])]
      [.prefer ["b"]] [["a", "b"], ["c"]] [["c", "c"], ["b"], ["b", "a"]]
      (by decide +kernel) (by
        intro id
        simp only [List.flatten_cons, List.flatten_nil, List.append_nil,
          List.mem_append, List.mem_cons, List.not_mem_nil, or_false]
        grind)
  have granted : ((builder.run [.assume ["a", "b"], .assume ["c"]]).run
      [.prefer ["b"]]).build.toOption.isSome = true := by
    decide +kernel
  obtain ⟨ruleset, built⟩ := Option.isSome_iff_exists.1 granted
  exact ⟨ruleset, toOption_eq_some_iff.1 built,
    ordered.symm.trans (toOption_eq_some_iff.1 built)⟩

end Builder

end Configurator
