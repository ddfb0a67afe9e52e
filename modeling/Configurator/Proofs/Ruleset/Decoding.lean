import Configurator.Proofs.Ruleset.Asking
import Configurator.Proofs.Ruleset.Preparation
import Configurator.Ruleset.Solution

/-!
# Reading answers

A selection is honoured by values if they have what it asks for.  An answer
whose decided values are zeros and ones is read as a solution with these
values and with what the last selection says about each independent
variable.
-/

namespace Configurator

open Configurator.Calendar Configurator.Collection Configurator.Linear
  Configurator.Objective Configurator.Optimizer Configurator.Request

/-! ## Honoured selections -/

/--
All ids of an addition have the value one, and not all ids of a removal.
-/
def Request.Selection.HonouredBy
    (selection : Selection)
    (value : String → Int) :
    Prop :=
  match selection.action with
  | .add => ∀ id ∈ selection.ids, value id = 1
  | .remove => ¬ ∀ id ∈ selection.ids, value id = 1

theorem Request.Selection.honouredBy_iff
    {selection : Selection}
    {value : String → Int} :
    selection.HonouredBy value ↔
      ((∀ id ∈ selection.ids, value id = 1) ↔ selection.action = .add) := by
  simp only [HonouredBy]
  cases selection.action with
  | add => simp
  | remove => simp

instance
    (selection : Selection)
    (value : String → Int) :
    Decidable (selection.HonouredBy value) :=
  decidable_of_iff' _ Selection.honouredBy_iff

theorem Request.Selection.honouredBy_congr
    {selection : Selection}
    {left right : String → Int}
    (agree : ∀ id ∈ selection.ids, left id = right id) :
    selection.HonouredBy left ↔ selection.HonouredBy right := by
  have same :
      (∀ id ∈ selection.ids, left id = 1) ↔
        ∀ id ∈ selection.ids, right id = 1 :=
    forall₂_congr fun id member => by rw [agree id member]
  rw [honouredBy_iff, honouredBy_iff, same]

/-- The value that a selection of a single id asks for honours it. -/
theorem Request.Selection.honouredBy_of_single
    {selection : Selection}
    {value : String → Int}
    (single : ¬ selection.isComposite = true)
    (asked : value selection.id = if selection.action.isAdd then 1 else 0) :
    selection.HonouredBy value := by
  simp only [HonouredBy]
  simp only [mem_ids_single single, forall_eq, asked]
  cases selection.action with
  | add => rfl
  | remove => exact Int.zero_ne_one

/--
A column that says whether all ids have the value one decides the selection.
-/
theorem Request.Selection.honours_iff
    {selection : Selection}
    {value : String → Int}
    (binary : ∀ id, value id = 0 ∨ value id = 1)
    (decides :
      value selection.column = 1 ↔ ∀ id ∈ selection.ids, value id = 1) :
    (Target.mk selection.column selection.action).Honours value ↔
      selection.HonouredBy value := by
  simp only [Target.Honours, HonouredBy]
  cases selection.action with
  | add => exact decides
  | remove =>
      rw [← decides]
      rcases binary selection.column with zero | one
      · simp [zero, Action.isAdd]
      · simp [one, Action.isAdd]

/-! ## Solutions -/

/--
The value of a variable in a solution, which is zero where it has none.
-/
def Solution.value (solution : Solution) (id : String) : Int :=
  (solution.values.get? id).getD 0

theorem Solution.get?_of_entries
    {solution : Solution}
    {ids : List String}
    {read : String → Int}
    (listed : solution.values.entries = ids.map fun id => (id, read id))
    {id : String}
    (member : id ∈ ids) :
    solution.values.get? id = some (read id) := by
  apply OrderedMap.mem_entries.1
  rw [listed]
  exact List.mem_map_of_mem (f := fun id => (id, read id)) member

theorem Solution.value_of_entries
    {solution : Solution}
    {ids : List String}
    {read : String → Int}
    (listed : solution.values.entries = ids.map fun id => (id, read id))
    {id : String}
    (member : id ∈ ids) :
    solution.value id = read id := by
  rw [value, get?_of_entries listed member, Option.getD_some]

namespace Query

variable {query : Query}

/-- The value with which a variable is read from an answer. -/
def reading (query : Query) (answer : Answer) (id : String) : Int :=
  if id ∈ query.independent then query.independentValue id
  else answer.point id

theorem valueIn_eq_ok
    {answer : Answer}
    {id : String}
    (binary :
      id ∉ query.independent → answer.point id = 0 ∨ answer.point id = 1) :
    query.valueIn answer.values id = .ok (query.reading answer id) := by
  simp only [valueIn, reading]
  by_cases independent : id ∈ query.independent
  · rw [if_pos independent, if_pos independent]
  · have decided := binary independent
    rw [if_neg independent, if_neg independent]
    simp only [Answer.point] at decided ⊢
    cases found : answer.values.get? id with
    | none => rfl
    | some value =>
        rw [found] at decided
        exact if_pos decided

/--
A usable answer of zeros and ones is read as a solution with what is read
from it.
-/
theorem decode_eq_ok
    {response : Response}
    {answer : Answer}
    (usable : response.single = .ok answer)
    (binary :
      ∀ id ∈ query.selectable,
        id ∉ query.independent →
        answer.point id = 0 ∨ answer.point id = 1) :
    ∃ solution,
      query.decode response = .ok solution ∧
      solution.values.entries =
        query.selectable.toList.map fun id =>
          (id, query.reading answer id) := by
  have entries : (query.selectable.toList.mapM fun id => do
      return (id, ← query.valueIn answer.values id)) = .ok
          (query.selectable.toList.map fun id =>
            (id, query.reading answer id)) := by
    apply mapM_eq_ok
    intro id member
    rw [valueIn_eq_ok (binary id member)]
    rfl
  have keys : (query.selectable.toList.map fun id =>
      (id, query.reading answer id)).map Prod.fst =
          query.selectable.toList := by
    rw [List.map_map]
    exact List.map_id _
  refine ⟨⟨OrderedMap.ofList (query.selectable.toList.map fun id =>
    (id, query.reading answer id)), answer.objective,
      query.weights.saturated⟩, ?_,
    OrderedMap.entries_ofList (by rw [keys]; exact query.selectable.nodup)⟩
  simp only [decode]
  rw [usable]
  show (query.selectable.toList.mapM (fun id => do
    return (id, ← query.valueIn answer.values id)) >>= _) = _
  rw [entries]
  rfl

/-- Only zeros and ones are read as values of decided variables. -/
theorem binary_of_valueIn
    {answer : Answer}
    {id : String}
    {value : Int}
    (dependent : id ∉ query.independent)
    (read : query.valueIn answer.values id = .ok value) :
    answer.point id = 0 ∨ answer.point id = 1 := by
  simp only [valueIn, if_neg dependent] at read
  simp only [Answer.point]
  split at read
  · rename_i absent
    rw [absent]
    exact Or.inl rfl
  · rename_i found
    split at read
    · rename_i binary
      rw [found]
      exact binary
    · cases read

/-- A solution is read from a usable answer of zeros and ones. -/
theorem answered_of_decode
    {response : Response}
    {solution : Solution}
    (decoded : query.decode response = .ok solution) :
    ∃ answer,
      response.single = .ok answer ∧
      (∀ id ∈ query.selectable,
        id ∉ query.independent →
        answer.point id = 0 ∨ answer.point id = 1) ∧
      solution.values.entries =
        query.selectable.toList.map fun id =>
          (id, query.reading answer id) := by
  have whole := decoded
  simp only [decode, bind_eq_ok_iff] at decoded
  rcases decoded with ⟨answer, usable, entries, read, _⟩
  have binary : ∀ id ∈ query.selectable, id ∉ query.independent →
      answer.point id = 0 ∨ answer.point id = 1 := by
    intro id member dependent
    obtain ⟨entry, entryRead⟩ := exists_of_mapM_eq_ok read id member
    simp only [bind_eq_ok_iff] at entryRead
    rcases entryRead with ⟨value, valueRead, _⟩
    exact binary_of_valueIn dependent valueRead
  obtain ⟨found, foundEq, listed⟩ := decode_eq_ok usable binary
  rw [foundEq] at whole
  cases whole
  exact ⟨answer, usable, binary, listed⟩

theorem decode_eq_error
    {response : Response}
    {cause : Error}
    (refused : response.single = .error cause) :
    query.decode response = .error cause := by
  simp only [decode]
  rw [refused]
  rfl

/-- The last selection of a variable decides its value where no row does. -/
theorem independentValue_last
    {last : Selection}
    (given : query.selections.getLast? = some last) :
    query.independentValue last.id =
      if last.action.isAdd then 1 else 0 := by
  rcases List.getLast?_eq_some_iff.1 given with ⟨earlier, listed⟩
  simp only [independentValue]
  rw [listed, List.reverse_append]
  simp

theorem independentValue_binary
    (query : Query)
    (id : String) :
    query.independentValue id = 0 ∨ query.independentValue id = 1 := by
  simp only [independentValue]
  split
  · split
    · exact Or.inr rfl
    · exact Or.inl rfl
  · exact Or.inl rfl

/--
A variable that no selection is about is read as zero where no row decides
it.
-/
theorem independentValue_of_unnamed
    {id : String}
    (unnamed : ∀ selection ∈ query.selections, selection.id ≠ id) :
    query.independentValue id = 0 := by
  have absent :
      query.selections.reverse.find? (fun selection => selection.id = id) =
        none := by
    rw [List.find?_eq_none]
    intro selection member
    simpa using unnamed selection (List.mem_reverse.1 member)
  rw [independentValue, absent]

theorem independentValue_of_nil
    (none : query.selections = [])
    (id : String) :
    query.independentValue id = 0 := by
  apply independentValue_of_unnamed
  rw [none]
  exact fun _ impossible => nomatch impossible

/--
A solution that is read lists the selectable variables with zeros and ones.
-/
theorem values_of_decode
    {response : Response}
    {solution : Solution}
    (decoded : query.decode response = .ok solution) :
    solution.values.keys = query.selectable.toList ∧
    ∀ value ∈ solution.values.values, value = 0 ∨ value = 1 := by
  obtain ⟨answer, _, binary, listed⟩ := answered_of_decode decoded
  constructor
  · rw [OrderedMap.keys, listed, List.map_map]
    exact List.map_id _
  · rw [OrderedMap.values, listed, List.map_map, List.forall_mem_map]
    intro id member
    show query.reading answer id = 0 ∨ query.reading answer id = 1
    simp only [reading]
    split
    · exact query.independentValue_binary id
    · rename_i dependent
      exact binary id member dependent

end Query

/-- Solving reads what the optimiser answers to the problem of the query. -/
theorem Ruleset.solve_eq
    {ruleset : Ruleset}
    {selections : List Selection}
    {time : Option Instant}
    {query : Query}
    {problem : Problem}
    {response : Response}
    {optimiser : Problem → Except Failure Response}
    (prepared : ruleset.prepare selections time {} = .ok query)
    (computed : query.problem = .ok problem)
    (answered : optimiser problem = .ok response) :
    ruleset.solve optimiser selections time =
      liftError (query.decode response) := by
  simp only [solve]
  rw [prepared]
  show (liftFault query.problem >>=
         fun problem => optimiser problem >>= fun response =>
           liftError (query.decode response)) = _
  rw [computed]
  show optimiser problem >>= _ = _
  rw [answered]
  rfl

end Configurator
