import Configurator.Proofs.Logic.Acceptance
import Mathlib.Data.List.Permutation

/-!
# Building a connective again

The plan of a connective does not depend on the order of its operands or on
repetitions: cardinality constraints list their operands in ascending order,
so the same operands give the same constraints.  A model keeps the
constraints of a plan that it has carried out.  When the plan comes again,
every one of its constraints is there already, and the model stays as it is.
-/

namespace Configurator.Linear.Coefficients

/-- A uniform form does not depend on the order of its ids. -/
theorem uniform_congr
    {left right : List String}
    (permuted : left.Perm right)
    (nodup : left.Nodup)
    (weight : Int) :
    uniform left weight = uniform right weight := by
  have entries :
      (uniform left weight).entries.Perm (uniform right weight).entries :=
    (uniform_perm nodup weight).trans
      ((permuted.map _).trans
        (uniform_perm (permuted.nodup nodup) weight).symm)
  have ascending (form : Coefficients) :
      form.entries.Pairwise fun earlier later => earlier.1 < later.1 :=
    List.pairwise_map.1 form.ascending
  apply Coefficients.ext
  refine entries.eq_of_pairwise ?_ (ascending _) (ascending _)
  intro earlier later _ _ forward backward
  exact absurd (String.lt_trans forward backward) (String.lt_irrefl _)

end Configurator.Linear.Coefficients

namespace Configurator.Logic

open Configurator.Collection Configurator.Linear

/-! ## Operands in another order -/

namespace Constraint

variable {left right : List String}

theorem uniform_congr
    (permuted : left.Perm right)
    (nodup : left.Nodup)
    (weight bias : Int) :
    uniform left weight bias = uniform right weight bias := by
  simp only [uniform, Coefficients.uniform_congr permuted nodup]

theorem checkCardinality_congr
    (permuted : left.Perm right)
    (nodup : left.Nodup)
    (bound : Int) :
    checkCardinality left bound = checkCardinality right bound := by
  have unrepeated :
      ∀ ids : List String, ids.Nodup → firstRepeated? [] ids = none :=
    fun ids distinct =>
      firstRepeated?_eq_none_iff.2 ⟨fun _ _ => List.not_mem_nil, distinct⟩
  simp only [checkCardinality]
  rw [unrepeated left nodup, unrepeated right (permuted.nodup nodup),
    permuted.length_eq, permuted.isEmpty_eq]

theorem cardinality_congr
    (permuted : left.Perm right)
    (nodup : left.Nodup)
    (limit : Limit)
    (bound : Int) :
    cardinality limit left bound = cardinality limit right bound := by
  simp only [cardinality]
  rw [checkCardinality_congr permuted nodup,
    Coefficients.uniform_congr permuted nodup]

end Constraint

namespace Lowering

variable {operands again : List String} {last : Constraint}

/--
A plan for distinct operands that ignores their order ignores repetitions as
well.
-/
theorem withDistinct_congr
    {connective : Connective}
    {plan : List String → Lowering}
    (same : ∀ id, id ∈ operands ↔ id ∈ again)
    (ordered :
      ∀ left right : List String,
        left.Perm right → left.Nodup → plan left = plan right)
    (found : (withDistinct connective operands plan).last? = some last) :
    withDistinct connective again plan =
      withDistinct connective operands plan := by
  have permuted :
      (OrderedSet.ofList operands).toList.Perm
        (OrderedSet.ofList again).toList := by
    rw [List.perm_ext_iff_of_nodup (OrderedSet.ofList operands).nodup
      (OrderedSet.ofList again).nodup]
    intro id
    exact OrderedSet.mem_ofList.trans
      ((same id).trans OrderedSet.mem_ofList.symm)
  have enough := (last?_withDistinct_eq_some.1 found).1
  have notFew :
      ¬ (OrderedSet.ofList operands).toList.length <
        connective.leastOperands :=
    Nat.not_lt.2 enough
  unfold withDistinct
  dsimp only
  rw [← permuted.length_eq, if_neg notFew, if_neg notFew]
  exact (ordered _ _ permuted (OrderedSet.ofList operands).nodup).symm

/-- Both sides of an equivalence can change places. -/
theorem sameAs_comm
    {left right : String}
    (different : left ≠ right) :
    sameAs right left = sameAs left right := by
  have swapped : [right, left].Perm [left, right] := List.Perm.swap _ _ _
  have nodup : [right, left].Nodup := by simpa using Ne.symm different
  rw [sameAs_eq different, sameAs_eq (Ne.symm different)]
  simp only [Constraint.uniform_congr swapped nodup]

end Lowering

/--
The lists name the same operands, as far as the connective tells them apart:
an implication has a condition and a consequence, an equivalence has two
sides, and all others have a set of operands.
-/
def Connective.SameOperands : Connective → List String → List String → Prop
  | .implication, operands, again => operands = again
  | .equivalence, operands, again => operands.Perm again
  | _, operands, again => ∀ id, id ∈ operands ↔ id ∈ again

namespace Connective

open Lowering

variable {connective : Connective} {operands again : List String}
  {last : Constraint}

theorem SameOperands.mem_iff
    (same : connective.SameOperands operands again)
    (id : String) :
    id ∈ operands ↔ id ∈ again := by
  cases connective with
  | implication => exact Eq.to_iff (congrArg (id ∈ ·) same)
  | equivalence => exact List.Perm.mem_iff same
  | conjunction | disjunction | negation | exactlyOne | oneOrNone | atLeast
      | atMost =>
          exact same id

/-- The same operands have the same plan, unless it is a refusal. -/
theorem lower_congr
    (same : connective.SameOperands operands again)
    (found : (connective.lower operands).last? = some last) :
    connective.lower again = connective.lower operands := by
  cases connective with
  | conjunction =>
      simp only [lower, allOf] at found ⊢
      refine withDistinct_congr same (fun left right permuted nodup => ?_)
        found
      rw [permuted.length_eq, Constraint.atLeast, Constraint.atLeast,
        Constraint.cardinality_congr permuted nodup]
  | disjunction =>
      simp only [lower, someOf] at found ⊢
      refine withDistinct_congr same (fun left right permuted nodup => ?_)
        found
      rw [Constraint.atLeast, Constraint.atLeast,
        Constraint.cardinality_congr permuted nodup]
  | negation =>
      simp only [lower, noneOf] at found ⊢
      refine withDistinct_congr same (fun left right permuted nodup => ?_)
        found
      rw [Constraint.atMost, Constraint.atMost,
        Constraint.cardinality_congr permuted nodup]
  | exactlyOne =>
      simp only [lower, exactlyOneOf] at found ⊢
      refine withDistinct_congr same (fun left right permuted nodup => ?_)
        found
      simp only [Constraint.atLeast, Constraint.atMost,
        Constraint.cardinality_congr permuted nodup]
  | oneOrNone =>
      simp only [lower] at found ⊢
      refine withDistinct_congr same (fun left right permuted nodup => ?_)
        found
      rw [Constraint.atMost, Constraint.atMost,
        Constraint.cardinality_congr permuted nodup]
  | implication =>
      obtain rfl : operands = again := same
      rfl
  | equivalence =>
      obtain ⟨left, right, rfl, different⟩ : equivalence.Accepts operands :=
        accepts_of_mem_lower (mem_constraints_of_last? found)
      rcases List.pair_perm.1 same with rfl | rfl
      · rfl
      · exact sameAs_comm different
  | atLeast count =>
      simp only [lower] at found ⊢
      refine withDistinct_congr same (fun left right permuted nodup => ?_)
        found
      rw [Constraint.atLeast, Constraint.atLeast,
        Constraint.cardinality_congr permuted nodup]
  | atMost count =>
      simp only [lower] at found ⊢
      refine withDistinct_congr same (fun left right permuted nodup => ?_)
        found
      rw [Constraint.atMost, Constraint.atMost,
        Constraint.cardinality_congr permuted nodup]

end Connective

/-! ## Plans that have been carried out -/

namespace Model

/-- A plan whose constraints are stored leads to its last support. -/
theorem carryOut_eq_of_supported
    {model : Model}
    {plan : Lowering}
    {last : Constraint}
    (supported :
      ∀ constraint ∈ plan.constraints, model.isSupport constraint.id = true)
    (found : plan.last? = some last) :
    model.carryOut plan = (.ok last.id, model) := by
  induction plan with
  | done constraint =>
      cases found
      simp only [carryOut, introduce]
      rw [if_pos (supported _ List.mem_cons_self)]
  | refused cause => cases found
  | after helper rest ih =>
      simp only [carryOut, introduce]
      rw [if_pos (supported helper List.mem_cons_self)]
      exact ih
        (fun constraint member =>
          supported constraint (List.mem_cons_of_mem _ member)) found

theorem GrowsTo.isSupport
    {model grown : Model}
    (growth : model.GrowsTo grown)
    {id : String}
    (supported : model.isSupport id = true) :
    grown.isSupport id = true := by
  rcases isSupport_iff.1 supported with ⟨stored, member, same⟩
  exact isSupport_iff.2 ⟨stored, growth.constraints.subset member, same⟩

/--
Once a connective has been built, it can be built again at any later time,
from the same operands in any order: the same id is returned and nothing
changes.
-/
theorem set_again
    (before after : List Step)
    (connective : Connective)
    (operands again : List String)
    (support : String)
    (granted : ((empty.run before).set connective operands).1 = .ok support)
    (same : connective.SameOperands operands again) :
    let later := empty.run (before ++ .set connective operands :: after)
    later.set connective again = (.ok support, later) := by
  intro later
  have returned : (empty.run before).set connective operands =
      (.ok support, (empty.run before).apply (.set connective operands)) :=
    Prod.ext granted rfl
  have laterEq :
      later =
        ((empty.run before).apply (.set connective operands)).run after :=
    run_append _ _ _
  have growth :
      ((empty.run before).apply (.set connective operands)).GrowsTo
        later := by
    rw [laterEq]
    exact growsTo_run _ _
  rcases set_eq_ok returned with ⟨required, carried⟩
  rcases carryOut_eq_ok carried with ⟨_, ⟨last, found, rfl⟩, stored⟩
  have known : ∀ id ∈ again, id ∈ later.ids := by
    intro id member
    have earlier := require_eq_ok required id ((same.mem_iff id).2 member)
    exact OrderedSet.mem_of_extends ((growsTo_apply _ _).trans growth).ids
      earlier
  have supported : ∀ constraint ∈ (connective.lower operands).constraints,
      later.isSupport constraint.id = true := by
    intro constraint member
    exact growth.isSupport (isSupport_iff.2 (stored constraint member))
  have requiredAgain : later.require again = .ok () :=
    require_of_known (wellFormed_run_empty _) known
  simp only [Model.set, requiredAgain, Connective.lower_congr same found]
  exact carryOut_eq_of_supported supported found

/--
The exclusive choice of three is found again by its operands in another
order.
-/
theorem set_again_reordered :
    let before : List Step := [.addPrimitives ["a", "b", "c"]]
    let after : List Step :=
      [.addPrimitives ["d"], .set .negation ["d"], .assume ["d"]]
    let later :=
      empty.run (before ++ .set .exactlyOne ["a", "b", "c"] :: after)
    ∃ support,
      later.set .exactlyOne ["c", "a", "b", "a"] =
        (.ok support, later) := by
  have granted : ((empty.run [.addPrimitives ["a", "b", "c"]]).set
      .exactlyOne ["a", "b", "c"]).1.toOption.isSome = true := by
    decide +kernel
  intro before after later
  obtain ⟨support, found⟩ := Option.isSome_iff_exists.1 granted
  have same :
      Connective.exactlyOne.SameOperands ["a", "b", "c"]
        ["c", "a", "b", "a"] := by
    intro id
    clear found granted
    simp only [List.mem_cons, List.not_mem_nil, or_false]
    grind
  have rebuilt :=
    set_again before after .exactlyOne ["a", "b", "c"] ["c", "a", "b", "a"]
      support (toOption_eq_some_iff.1 found) same
  exact ⟨support, rebuilt⟩

end Model

end Configurator.Logic
