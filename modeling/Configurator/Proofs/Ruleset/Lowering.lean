import Configurator.Proofs.Logic.Meaning
import Configurator.Proofs.Ruleset.Requests

/-!
# Lowering as requests to the model

What compiling does to the model of a builder is a run of requests that can
be listed beforehand: a negation for each preferred id, the period variables
of which exactly one is assumed, an implication for each group, and the
conjunction of all assumptions.
-/

namespace Configurator.Logic

open Configurator.Collection

/--
The id of the connective over the operands, if there is a plan for it.
-/
def Connective.supportId
    (connective : Connective)
    (operands : List String) :
    String :=
  ((connective.lower operands).last?.map Constraint.id).getD ""

namespace Model

/-- Extending a model is a request, and returns the id of the connective. -/
theorem extend_eq_ok
    {model grown : Model}
    {connective : Connective}
    {operands : List String}
    {support : String}
    (extended : model.extend connective operands = .ok (support, grown)) :
    model.set connective operands = (.ok support, grown) ∧
    grown = model.run [.set connective operands] ∧
    support = connective.supportId operands ∧
    grown.assumed = model.assumed := by
  have returned : model.set connective operands = (.ok support, grown) := by
    simp only [extend] at extended
    split at extended
    · rename_i id next computed
      cases extended
      exact computed
    · cases extended
  rcases set_eq_ok returned with ⟨_, carried⟩
  rcases carryOut_eq_ok carried with ⟨_, ⟨last, found, same⟩, _⟩
  refine ⟨returned, ?_, ?_, ?_⟩
  · show grown = (model.set connective operands).2
    rw [returned]
  · rw [Connective.supportId, found, ← same]
    rfl
  · have kept := assumed_carryOut model (connective.lower operands)
    rwa [carried] at kept

end Model

end Configurator.Logic

namespace Configurator

open Configurator.Calendar Configurator.Collection Configurator.Logic
  Configurator.Schedule

namespace Builder

/-! ## Requests of a lowering -/

/-- The id that says whether some or all of the ids hold. -/
def joinedId (connective : Connective) : List String → String
  | [id] => id
  | ids => connective.supportId ids

/-- The requests by which several ids are joined in one. -/
def joinedSteps (connective : Connective) : List String → List Model.Step
  | [_] => []
  | ids => [.set connective ids]

/-- The negations of preferred ids. -/
def preferenceSteps (preferences : List String) : List Model.Step :=
  preferences.map fun id => .set .negation [id]

/-- Some of the group's periods imply all of its ids. -/
def groupSteps (group : List String × List Nat) : List Model.Step :=
  let during := group.2.map periodName
  let sides := [joinedId .disjunction during, joinedId .conjunction group.1]
  joinedSteps .disjunction during ++
    (joinedSteps .conjunction group.1 ++
      [.set .implication sides,
        .assume [Connective.implication.supportId sides]])

/-- Exactly one of the names holds. -/
def exactlyOneSteps : List String → List Model.Step
  | [name] => [.assume [name]]
  | names =>
      [.set .exactlyOne names,
        .assume [Connective.exactlyOne.supportId names]]

/--
The period variables, exactly one of which holds, and the rules of the
groups.
-/
def periodSteps (builder : Builder) : List Model.Step :=
  match builder.span with
  | none => []
  | some span =>
      let atoms := atoms span builder.bounds
      let names := (List.range atoms.length).map periodName
      .addPrimitives names :: (exactlyOneSteps names ++
        (groupByActive atoms builder.bounds).entries.flatMap groupSteps)

/-- All assumptions hold, if there are several. -/
def rootSteps (assumed : OrderedSet String) : List Model.Step :=
  if 2 ≤ assumed.size then [.set .conjunction assumed.toList] else []

/-- The requests before the assumptions are joined. -/
def earlySteps (builder : Builder) : List Model.Step :=
  preferenceSteps builder.preferences.toList ++ builder.periodSteps

/-- All requests that compiling makes to the model. -/
def lowerSteps (builder : Builder) : List Model.Step :=
  builder.earlySteps ++
    rootSteps (builder.model.run builder.earlySteps).assumed

theorem joinedId_of_several
    {connective : Connective}
    {ids : List String}
    (several : ∀ id, ids ≠ [id]) :
    joinedId connective ids = connective.supportId ids := by
  unfold joinedId
  split
  · exact absurd rfl (several _)
  · rfl

theorem joinedSteps_of_several
    {connective : Connective}
    {ids : List String}
    (several : ∀ id, ids ≠ [id]) :
    joinedSteps connective ids = [.set connective ids] := by
  unfold joinedSteps
  split
  · exact absurd rfl (several _)
  · rfl

theorem exactlyOneSteps_of_several
    {names : List String}
    (several : ∀ name, names ≠ [name]) :
    exactlyOneSteps names =
      [.set .exactlyOne names,
        .assume [Connective.exactlyOne.supportId names]] := by
  unfold exactlyOneSteps
  split
  · exact absurd rfl (several _)
  · rfl

theorem joined_eq_ok
    {connective : Connective}
    {model grown : Model}
    {ids : List String}
    {id : String}
    (computed : joined connective model ids = .ok (id, grown)) :
    id = joinedId connective ids ∧
    grown = model.run (joinedSteps connective ids) ∧
    grown.assumed = model.assumed := by
  simp only [joined] at computed
  split at computed
  · cases computed
    exact ⟨rfl, rfl, rfl⟩
  · rename_i several
    rcases Model.extend_eq_ok computed with ⟨_, grownEq, idEq, assumed⟩
    rw [joinedId_of_several several, joinedSteps_of_several several]
    exact ⟨idEq, grownEq, assumed⟩

theorem lowerGroup_eq_run
    {model grown : Model}
    {group : List String × List Nat}
    (lowered : lowerGroup model group = .ok grown) :
    grown = model.run (groupSteps group) := by
  simp only [lowerGroup, bind_eq_ok_iff] at lowered
  obtain ⟨⟨during, first⟩, joinedDuring, ⟨required, second⟩, joinedRequired,
    ⟨rule, third⟩, ruled, assumed⟩ := lowered
  rcases joined_eq_ok joinedDuring with ⟨rfl, rfl, _⟩
  rcases joined_eq_ok joinedRequired with ⟨rfl, rfl, _⟩
  rcases Model.extend_eq_ok ruled with ⟨_, rfl, rfl, _⟩
  rw [(Model.assume_eq_run assumed).1]
  simp only [groupSteps, Model.run_append, Model.run_cons, Model.run_nil]

theorem assumeExactlyOne_eq_run
    {model grown : Model}
    {names : List String}
    (lowered : assumeExactlyOne model names = .ok grown) :
    grown = model.run (exactlyOneSteps names) := by
  simp only [assumeExactlyOne] at lowered
  split at lowered
  · exact (Model.assume_eq_run lowered).1
  · rename_i several
    simp only [bind_eq_ok_iff] at lowered
    rcases lowered with ⟨⟨one, next⟩, extended, assumed⟩
    rcases Model.extend_eq_ok extended with ⟨_, rfl, rfl, _⟩
    rw [(Model.assume_eq_run assumed).1, exactlyOneSteps_of_several several]
    simp only [Model.run_cons, Model.run_nil]

theorem foldlM_lowerGroup_eq_run
    {model grown : Model}
    {groups : List (List String × List Nat)}
    (lowered : groups.foldlM lowerGroup model = .ok grown) :
    grown = model.run (groups.flatMap groupSteps) := by
  induction groups generalizing model with
  | nil =>
      cases lowered
      rfl
  | cons group rest ih =>
      rw [List.foldlM_cons, bind_eq_ok_iff] at lowered
      rcases lowered with ⟨next, first, others⟩
      rw [List.flatMap_cons, Model.run_append, ← lowerGroup_eq_run first]
      exact ih others

/-- The negation of one more preferred id, beside the supports so far. -/
def lowerPreference
    (state : OrderedSet String × Model)
    (id : String) :
    Except Error (OrderedSet String × Model) := do
  let (support, grown) ← state.2.extend .negation [id]
  return (state.1.insert support, grown)

theorem lowerPreferences_eq_foldlM
    (model : Model)
    (preferences : List String) :
    lowerPreferences model preferences =
      preferences.foldlM lowerPreference (∅, model) :=
  rfl

theorem lowerPreference_eq_ok
    {known : OrderedSet String}
    {model : Model}
    {id : String}
    {state : OrderedSet String × Model}
    (lowered : lowerPreference (known, model) id = .ok state) :
    ∃ support grown,
      model.extend .negation [id] = .ok (support, grown) ∧
      state = (known.insert support, grown) := by
  simp only [lowerPreference, bind_eq_ok_iff] at lowered
  obtain ⟨⟨support, grown⟩, extended, finished⟩ := lowered
  exact ⟨support, grown, extended, (Except.ok.inj finished).symm⟩

theorem foldlM_lowerPreference_eq_run
    {preferences : List String}
    {model grown : Model}
    {known supports : OrderedSet String}
    (lowered :
      preferences.foldlM lowerPreference (known, model) =
        .ok (supports, grown)) :
    grown = model.run (preferenceSteps preferences) ∧
    grown.assumed = model.assumed ∧
    supports =
      known.append
        (preferences.map fun id => Connective.negation.supportId [id]) := by
  induction preferences generalizing known model with
  | nil =>
      cases lowered
      exact ⟨rfl, rfl, rfl⟩
  | cons id rest ih =>
      rw [List.foldlM_cons, bind_eq_ok_iff] at lowered
      rcases lowered with ⟨_, first, others⟩
      rcases lowerPreference_eq_ok first with ⟨support, next, extended, rfl⟩
      rcases Model.extend_eq_ok extended with ⟨_, rfl, rfl, kept⟩
      rcases ih others with ⟨grownEq, assumedEq, supportsEq⟩
      refine ⟨grownEq, assumedEq.trans kept, ?_⟩
      rw [supportsEq]
      rfl

/-- The preferred supports are the negations of the preferred ids. -/
theorem lowerPreferences_eq_ok
    {preferences : List String}
    {model grown : Model}
    {supports : OrderedSet String}
    (lowered : lowerPreferences model preferences = .ok (supports, grown)) :
    grown = model.run (preferenceSteps preferences) ∧
    grown.assumed = model.assumed ∧
    supports =
      OrderedSet.ofList
        (preferences.map fun id => Connective.negation.supportId [id]) :=
  foldlM_lowerPreference_eq_run lowered

theorem lowerPeriods_eq_run
    {builder : Builder}
    {model grown : Model}
    {periods : List PeriodVariable}
    (lowered : builder.lowerPeriods model = .ok (periods, grown)) :
    grown = model.run builder.periodSteps := by
  simp only [lowerPeriods] at lowered
  simp only [periodSteps]
  cases present : builder.span with
  | none =>
      rw [present] at lowered
      cases lowered
      rfl
  | some span =>
      rw [present] at lowered
      simp only [bind_eq_ok_iff] at lowered
      rcases lowered with
        ⟨declared, declaration, one, exactlyOne, last, grouped, finished⟩
      cases finished
      dsimp only
      rw [Model.run_cons, Model.run_append,
        foldlM_lowerGroup_eq_run grouped,
        assumeExactlyOne_eq_run exactlyOne,
        Model.addPrimitives_eq_run declaration]
      rfl

/--
The assumptions stay, or the conjunction of all of them stands in their
place.
-/
theorem lowerAssumptions_eq_ok
    {model grown : Model}
    (lowered : lowerAssumptions model = .ok grown) :
    (rootSteps model.assumed = [] ∧ grown = model) ∨
    ∃ root rooted,
      rootSteps model.assumed = [.set .conjunction model.assumed.toList] ∧
      model.extend .conjunction model.assumed.toList = .ok (root, rooted) ∧
      grown = rooted.replaceAssumed root := by
  simp only [lowerAssumptions] at lowered
  simp only [rootSteps]
  split at lowered
  · rename_i several
    simp only [bind_eq_ok_iff] at lowered
    rcases lowered with ⟨⟨root, rooted⟩, extended, finished⟩
    cases finished
    exact Or.inr ⟨root, rooted, if_pos several, extended, rfl⟩
  · rename_i few
    cases lowered
    exact Or.inl ⟨if_neg few, rfl⟩

/-- A lowering goes through the model after the early requests. -/
theorem lower_eq_ok
    {builder : Builder}
    {lowered : Lowered}
    (computed : builder.lower = .ok lowered) :
    ∃ preferred,
      lowerPreferences builder.model builder.preferences.toList =
        .ok (lowered.preferredSupports, preferred) ∧
      builder.lowerPeriods preferred =
        .ok (lowered.periods, builder.model.run builder.earlySteps) ∧
      lowerAssumptions (builder.model.run builder.earlySteps) =
        .ok lowered.model := by
  simp only [lower, bind_eq_ok_iff] at computed
  obtain ⟨⟨supports, preferred⟩, preferences, ⟨periods, early⟩, timed,
    model, joined, finished⟩ := computed
  cases finished
  have preferredEq := (lowerPreferences_eq_ok preferences).1
  have earlyEq : early = builder.model.run builder.earlySteps := by
    rw [lowerPeriods_eq_run timed, preferredEq, earlySteps,
      Model.run_append]
  subst earlyEq
  exact ⟨preferred, preferences, timed, joined⟩

/--
The lowered model has the variables and constraints of a run of the listed
requests.
-/
theorem lowered_model
    {builder : Builder}
    {lowered : Lowered}
    (computed : builder.lower = .ok lowered) :
    lowered.model.ids = (builder.model.run builder.lowerSteps).ids ∧
    lowered.model.constraints =
      (builder.model.run builder.lowerSteps).constraints := by
  rcases lower_eq_ok computed with ⟨_, _, _, joined⟩
  rw [lowerSteps, Model.run_append]
  rcases lowerAssumptions_eq_ok joined with
    ⟨stepsEq, same⟩ | ⟨root, rooted, stepsEq, extended, same⟩
  · rw [stepsEq, same]
    exact ⟨rfl, rfl⟩
  · rw [stepsEq, same, ← (Model.extend_eq_ok extended).2.1]
    exact ⟨rfl, rfl⟩

/-! ## Reachable builders -/

theorem primitives_run_lowerSteps
    {builder : Builder}
    {lowered : Lowered}
    (computed : builder.lower = .ok lowered) :
    lowered.model.primitives =
      (builder.model.run builder.lowerSteps).primitives := by
  obtain ⟨sameIds, sameConstraints⟩ := lowered_model computed
  simp only [Model.primitives, Model.isSupport]
  rw [sameIds, sameConstraints]

theorem growsTo_lowered
    {builder : Builder}
    {lowered : Lowered}
    (computed : builder.lower = .ok lowered) :
    builder.model.GrowsTo lowered.model := by
  obtain ⟨sameIds, sameConstraints⟩ := lowered_model computed
  have growth := Model.growsTo_run builder.model builder.lowerSteps
  constructor
  · rw [sameIds]
    exact growth.ids
  · rw [sameConstraints]
    exact growth.constraints

theorem wellFormed_run
    {builder : Builder}
    (wellFormed : builder.model.WellFormed)
    (steps : List Step) :
    (builder.run steps).model.WellFormed := by
  rw [model_run]
  exact wellFormed.run _

/-- The lowered model is well formed if the model of the builder is. -/
theorem wellFormed_lowered
    {builder : Builder}
    (wellFormed : builder.model.WellFormed)
    {lowered : Lowered}
    (computed : builder.lower = .ok lowered) :
    lowered.model.WellFormed := by
  rcases lower_eq_ok computed with ⟨_, _, _, joined⟩
  have early := wellFormed.run builder.earlySteps
  rcases lowerAssumptions_eq_ok joined with
    ⟨_, same⟩ | ⟨root, rooted, _, extended, same⟩
  · rw [same]
    exact early
  · rcases Model.extend_eq_ok extended with ⟨returned, rootedEq, _, _⟩
    obtain ⟨_, ⟨last, found, rfl⟩, storedById⟩ :=
      Model.carryOut_eq_ok (Model.set_eq_ok returned).2
    have rootedFormed : rooted.WellFormed := by
      rw [rootedEq]
      exact early.run _
    rw [same]
    refine { rootedFormed with assumed_known := ?_ }
    intro id member
    rw [List.mem_singleton.1 (OrderedSet.mem_ofList.1 member)]
    obtain ⟨stored, storedMember, sameId⟩ :=
      storedById last (Lowering.mem_constraints_of_last? found)
    rw [← sameId]
    exact rootedFormed.supports_known stored storedMember

end Builder

end Configurator
