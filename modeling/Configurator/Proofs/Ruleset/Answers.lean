import Configurator.Proofs.Request.Verdict
import Configurator.Proofs.Ruleset.Decoding

/-!
# Exactly the answers that are read

A response is read if it has one solution, reported as a success, whose
values of selectable variables are zeros and ones wherever a row of the rule
set decides.  The solution has these values, and where no row decides it has
what the last selection asks for, among the selections as they were given
before reduction.
-/

namespace Configurator

open Configurator.Calendar Configurator.Collection Configurator.Objective
  Configurator.Optimizer Configurator.Request

/-! ## Usable responses -/

namespace Optimizer

/-- The texts differ at most in the case of their letters. -/
def SameLetters (left right : String) : Prop :=
  left.toList.map Char.toLower = right.toList.map Char.toLower

instance (left right : String) : Decidable (SameLetters left right) :=
  inferInstanceAs
    (Decidable
      (left.toList.map Char.toLower = right.toList.map Char.toLower))

/-- The status is one of those that report a success. -/
def Answer.Succeeded (answer : Answer) : Prop :=
  SameLetters answer.status "optimal" ∨ SameLetters answer.status "feasible"

instance (answer : Answer) : Decidable answer.Succeeded :=
  inferInstanceAs
    (Decidable
      (SameLetters answer.status "optimal" ∨
        SameLetters answer.status "feasible"))

theorem Status.ofText_isSuccess_iff
    {text : String} :
    (Status.ofText text).isSuccess = true ↔
      SameLetters text "optimal" ∨ SameLetters text "feasible" := by
  have optimal : "optimal".toList.map Char.toLower = "optimal".toList := by
    decide
  have feasible :
      "feasible".toList.map Char.toLower = "feasible".toList := by
    decide
  simp only [Status.ofText, SameLetters, optimal, feasible]
  split
  · rename_i same
    exact iff_of_true rfl (Or.inl same)
  · rename_i notOptimal
    split
    · rename_i same
      exact iff_of_true rfl (Or.inr same)
    · rename_i notFeasible
      refine iff_of_false ?_ (not_or.2 ⟨notOptimal, notFeasible⟩)
      split
      · exact Bool.false_ne_true
      · exact Bool.false_ne_true

/-- A usable response has one solution, reported as a success. -/
theorem Response.single_eq_ok_iff
    {response : Response}
    {answer : Answer} :
    response.single = .ok answer ↔
      response.solutions = [answer] ∧ answer.Succeeded := by
  rw [Answer.Succeeded, ← Status.ofText_isSuccess_iff]
  constructor
  · intro usable
    simp only [Response.single] at usable
    split at usable
    · rename_i only listed
      rw [listed]
      split at usable
      · rename_i reported
        cases usable
        exact ⟨rfl, by rw [reported]; rfl⟩
      · rename_i reported
        cases usable
        exact ⟨rfl, by rw [reported]; rfl⟩
      · split at usable
        · cases usable
        · cases usable
      · cases usable
    · cases usable
  · rintro ⟨listed, succeeded⟩
    simp only [Response.single, listed]
    cases reported : Status.ofText answer.status with
    | optimal => rfl
    | feasible => rfl
    | failed =>
        rw [reported] at succeeded
        cases succeeded
    | other text =>
        rw [reported] at succeeded
        cases succeeded

/--
What an answer mentions with a zero or a one is what it has a zero or a one
for.
-/
theorem Answer.point_binary_iff
    {answer : Answer}
    {id : String} :
    (answer.point id = 0 ∨ answer.point id = 1) ↔
      ∀ value,
        answer.values.get? id = some value → value = 0 ∨ value = 1 := by
  simp only [Answer.point]
  cases answer.values.get? id with
  | none => simp
  | some value => simp

end Optimizer

/-! ## What is read -/

namespace Query

variable {query : Query}

/-- The last selection of an independent variable decides its value. -/
theorem independentValue_eq_one_iff
    {id : String} :
    query.independentValue id = 1 ↔ AddedLast query.selections id := by
  simp only [independentValue, AddedLast]
  rw [List.getLast?_filter]
  cases query.selections.reverse.find? fun selection =>
    selection.id = id with
  | none => simp
  | some selection =>
      cases action : selection.action with
      | add => simp [action, Action.isAdd]
      | remove => simp [action, Action.isAdd]

/--
A usable response is read unless it mentions a decided variable with another
value.
-/
theorem exists_decode_iff
    {response : Response} :
    (∃ solution, query.decode response = .ok solution) ↔
      ∃ answer,
        response.solutions = [answer] ∧
        answer.Succeeded ∧
        ∀ id ∈ query.selectable,
          id ∉ query.independent →
          ∀ value,
            answer.values.get? id = some value → value = 0 ∨ value = 1 := by
  simp only [← Answer.point_binary_iff]
  constructor
  · rintro ⟨solution, decoded⟩
    obtain ⟨answer, usable, binary, _⟩ := answered_of_decode decoded
    obtain ⟨lone, succeeded⟩ := Response.single_eq_ok_iff.1 usable
    exact ⟨answer, lone, succeeded, binary⟩
  · rintro ⟨answer, lone, succeeded, binary⟩
    have usable := Response.single_eq_ok_iff.2 ⟨lone, succeeded⟩
    obtain ⟨solution, decoded, _⟩ := decode_eq_ok usable binary
    exact ⟨solution, decoded⟩

end Query

/--
Only selections without other ids name an independent variable in an
accepted request.
-/
theorem Ruleset.namedAlone_of_admits
    {ruleset : Ruleset}
    {selections : List Selection}
    (admitted : ∀ selection ∈ selections, ruleset.Admits selection)
    {id : String}
    (independent : id ∈ ruleset.independent) :
    NamedAlone selections id :=
  fun selection member named composite =>
    (admitted selection member id named).2 composite independent

/--
The solution has the values of the answer, and those that the selections ask
for.
-/
structure Solution.Reads
    (solution : Solution)
    (ruleset : Ruleset)
    (selections : List Selection)
    (answer : Answer) :
    Prop where
  keys_eq : solution.values.keys = ruleset.selectable.toList
  binary : ∀ value ∈ solution.values.values, value = 0 ∨ value = 1
  decided : ∀ id ∈ ruleset.selectable, id ∉ ruleset.independent →
    solution.values.get? id = some ((answer.values.get? id).getD 0)
  undecided : ∀ id ∈ ruleset.selectable, id ∈ ruleset.independent →
    (solution.values.get? id = some 1 ↔ AddedLast selections id)

namespace Ruleset

variable {ruleset : Ruleset} {selections : List Selection}
  {time : Option Instant} {config : WeightConfig} {query : Query}

/--
Reading answers is exact.  A response to a query is read exactly if it has
one solution, which reports a success and mentions no selectable variable
with anything but a zero or a one, unless the variable is independent.  What
is read lists the selectable variables in their order, with zeros and ones
only.  These are the values of the answer, zero where it mentions none; and
an independent variable has a one exactly if the last selection of it, among
those that were given, is an addition.
-/
theorem decode_exact
    (prepared : ruleset.prepare selections time config = .ok query)
    (response : Response) :
    ((∃ solution, query.decode response = .ok solution) ↔
      ∃ answer,
        response.solutions = [answer] ∧
        answer.Succeeded ∧
        ∀ id ∈ ruleset.selectable,
          id ∉ ruleset.independent →
          ∀ value,
            answer.values.get? id = some value → value = 0 ∨ value = 1) ∧
    ∀ solution,
      query.decode response = .ok solution →
      ∃ answer,
        response.solutions = [answer] ∧
        solution.Reads ruleset selections answer := by
  obtain ⟨admitted, _, _, _, _, _, _, rfl⟩ := prepare_eq_ok prepared
  refine ⟨Query.exists_decode_iff, fun solution decoded => ?_⟩
  obtain ⟨answer, usable, _, listed⟩ := Query.answered_of_decode decoded
  obtain ⟨keys, binary⟩ := Query.values_of_decode decoded
  refine ⟨answer, (Response.single_eq_ok_iff.1 usable).1, keys, binary, ?_,
    ?_⟩
  · intro id selectable dependent
    rw [Solution.get?_of_entries listed selectable, Query.reading,
      if_neg dependent]
    rfl
  · intro id selectable independent
    rw [Solution.get?_of_entries listed selectable, Query.reading,
      if_pos independent, Option.some.injEq,
      Query.independentValue_eq_one_iff]
    exact addedLast_reduceWith _ (namedAlone_of_admits admitted independent)

end Ruleset

/-- A row decides two variables, and none decides the other two. -/
def halfDecided : Ruleset where
  polyhedron := ⟨[[1, -1, 0, 0]], [0], 4⟩
  ids := OrderedSet.ofList ["x", "y", "u", "v"]
  selectable := OrderedSet.ofList ["x", "u", "v"]
  independent := OrderedSet.ofList ["u", "v"]
  preferredSupports := ∅
  preferences := ∅
  periods := []
  enabledPeriod := none

/--
One of the variables that no row decides is added last, the other one is
removed last.
-/
def reconsidered : List Selection :=
  [⟨"u", [], .add⟩, ⟨"v", [], .remove⟩, ⟨"v", [], .add⟩, ⟨"x", ["x"], .add⟩,
    ⟨"u", [], .remove⟩]

/--
A success that mentions an undecided variable with something that is no zero
or one.
-/
def loudAnswer : Answer :=
  ⟨"OPTIMAL", none, none, OrderedMap.ofList [("x", 1), ("u", 7)]⟩

/-- The answer is read, and the last selections decide where no row does. -/
theorem Ruleset.decode_exact_reconsidered :
    ∃ query,
      halfDecided.prepare reconsidered none {} = .ok query ∧
      ∃ solution,
        query.decode ⟨[loudAnswer]⟩ = .ok solution ∧
        solution.values.keys = ["x", "u", "v"] ∧
        solution.values.get? "x" = some 1 ∧
        solution.values.get? "u" ≠ some 1 ∧
        solution.values.get? "v" = some 1 := by
  have prepared :
      (halfDecided.prepare reconsidered none {}).toOption.isSome =
        true := by
    decide +kernel
  obtain ⟨query, found⟩ := Option.isSome_iff_exists.1 prepared
  have exact := decode_exact (toOption_eq_some_iff.1 found) ⟨[loudAnswer]⟩
  obtain ⟨solution, decoded⟩ :=
    exact.1.2 ⟨loudAnswer, rfl, by decide, by decide⟩
  obtain ⟨answer, lone, reads⟩ := exact.2 solution decoded
  cases lone
  refine ⟨query, toOption_eq_some_iff.1 found, solution, decoded,
    reads.keys_eq, ?_, ?_, ?_⟩
  · exact reads.decided "x" (by decide) (by decide)
  · exact fun one =>
      absurd ((reads.undecided "u" (by decide) (by decide)).1 one)
        (by decide)
  · exact (reads.undecided "v" (by decide) (by decide)).2 (by decide)

end Configurator
