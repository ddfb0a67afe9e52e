import Configurator.Optimizer.Problem
import Configurator.Optimizer.Response
import Configurator.Proofs.Linear.Row
import Configurator.Proofs.Linear.Sparse

/-!
# Optimal answers

What an optimiser is asked for: a point within the bounds of all variables
and rows at which the first objective is greatest, or least.  A response
solves a problem if it can be used and its values are such a point.
-/

namespace Configurator.Optimizer

open Configurator.Arithmetic Configurator.Collection Configurator.Linear

/--
The product of a row with a point that is given by the ids of the variables.
-/
def ProblemRows.valueAt
    (rows : ProblemRows)
    (index : Nat)
    (point : String → Int) :
    Int :=
  rows.matrix.rowValue index fun column =>
    ((rows.unknowns[column]?).map fun unknown => point unknown.id).getD 0

/-- The variables and the rows are within their bounds. -/
structure Problem.Feasible
    (problem : Problem)
    (point : String → Int) :
    Prop where
  /-- The variables are within their bounds. -/
  variables_bounded : ∀ unknown ∈ problem.polyhedron.unknowns,
    unknown.least ≤ point unknown.id ∧ point unknown.id ≤ unknown.greatest
  /-- The rows are at least their bounds. -/
  rows_bounded : ∀ indexed ∈ problem.polyhedron.bounds.zipIdx,
    indexed.1 ≤ problem.polyhedron.valueAt indexed.2 point

/-- The value of the first objective, which is zero without an objective. -/
def Problem.objectiveAt (problem : Problem) (point : String → Int) : Int :=
  match problem.objectives with
  | [] => 0
  | objective :: _ =>
      (problem.polyhedron.unknowns.map fun unknown =>
        (objective.get? unknown.id).getD 0 * point unknown.id).sum

/-- No feasible point has a better value of the first objective. -/
structure Problem.IsOptimal
    (problem : Problem)
    (point : String → Int) :
    Prop where
  /-- The point is feasible. -/
  feasible : problem.Feasible point
  /-- No other feasible point is better. -/
  best : ∀ other, problem.Feasible other →
    match problem.direction with
    | .maximize => problem.objectiveAt other ≤ problem.objectiveAt point
    | .minimize => problem.objectiveAt point ≤ problem.objectiveAt other

/-- Maximise an objective over the zeros and ones in a polyhedron. -/
def Problem.maximizing
    (polyhedron : Polyhedron)
    (ids : List String)
    (objective : OrderedMap String Int) :
    Problem where
  polyhedron :=
    { matrix := polyhedron.sparse
      bounds := polyhedron.bounds
      unknowns := ids.map BoundedVariable.binary }
  objectives := [objective]
  direction := .maximize

section Maximizing

variable {polyhedron : Polyhedron} {ids : List String}
  {objective : OrderedMap String Int} {point : String → Int}

private theorem sum_zipIdx
    (row listed : List Int)
    (start : Nat) :
    ((row.zipIdx start).map fun entry =>
      entry.1 * (listed[entry.2]?).getD 0).sum =
      inner row (listed.drop start) := by
  induction row generalizing start with
  | nil => rfl
  | cons first rest ih =>
      rw [List.zipIdx_cons, List.map_cons, List.sum_cons, ih]
      by_cases inside : start < listed.length
      · rw [List.drop_eq_getElem_cons inside,
          List.getElem?_eq_getElem inside]
        rfl
      · have beyond : listed.length ≤ start := Nat.le_of_not_lt inside
        rw [List.drop_eq_nil_of_le beyond,
          List.drop_eq_nil_of_le (Nat.le_succ_of_le beyond),
          List.getElem?_eq_none beyond]
        simp [Arithmetic.inner]

/-- A row of the problem has the value of the row of the polyhedron. -/
theorem valueAt_maximizing
    {index : Nat}
    {row : List Int}
    (here : polyhedron.rows[index]? = some row) :
    (Problem.maximizing polyhedron ids objective).polyhedron.valueAt index
        point =
      inner row (ids.map point) := by
  have summed := sum_zipIdx row (ids.map point) 0
  have entry :
      ∀ column : Nat,
        (((ids.map BoundedVariable.binary)[column]?).map
          fun (unknown : BoundedVariable) => point unknown.id).getD 0 =
          ((ids.map point)[column]?).getD 0 := by
    intro column
    rw [List.getElem?_map, List.getElem?_map, Option.map_map]
    rfl
  simp only [ProblemRows.valueAt, Problem.maximizing]
  simp only [Polyhedron.rowValue_sparse here, entry]
  exact summed

theorem feasible_maximizing_iff
    (sized : polyhedron.rows.length = polyhedron.bounds.length) :
    (Problem.maximizing polyhedron ids objective).Feasible point ↔
      IsBinary (ids.map point) ∧ polyhedron.Contains (ids.map point) := by
  have bounded :
      (∀ unknown ∈ ids.map BoundedVariable.binary,
        unknown.least ≤ point unknown.id ∧
        point unknown.id ≤ unknown.greatest) ↔
        IsBinary (ids.map point) := by
    simp only [IsBinary]
    rw [List.forall_mem_map, List.forall_mem_map]
    refine forall₂_congr fun id _ => ?_
    show 0 ≤ point id ∧ point id ≤ 1 ↔ _
    omega
  have held :
      (∀ indexed ∈ polyhedron.bounds.zipIdx,
        indexed.1 ≤
          (Problem.maximizing polyhedron ids objective).polyhedron.valueAt
            indexed.2 point) ↔
        polyhedron.Contains (ids.map point) := by
    constructor
    · rintro all ⟨row, bound⟩ member
      rcases List.mem_iff_getElem?.1 member with ⟨index, here⟩
      rcases List.getElem?_zip_eq_some.1 here with ⟨rowHere, boundHere⟩
      have value :=
        all (bound, index) (List.mk_mem_zipIdx_iff_getElem?.2 boundHere)
      rwa [valueAt_maximizing rowHere] at value
    · rintro all ⟨bound, index⟩ member
      have boundHere := List.mk_mem_zipIdx_iff_getElem?.1 member
      have inside : index < polyhedron.rows.length := by
        rw [sized]
        exact (List.getElem?_eq_some_iff.1 boundHere).1
      have rowHere := List.getElem?_eq_getElem inside
      rw [valueAt_maximizing rowHere]
      exact all (_, bound)
        (List.mem_of_getElem?
          (List.getElem?_zip_eq_some.2 ⟨rowHere, boundHere⟩))
  constructor
  · rintro ⟨inside, above⟩
    exact ⟨bounded.1 inside, held.1 above⟩
  · rintro ⟨binary, contained⟩
    exact ⟨bounded.2 binary, held.2 contained⟩

theorem objectiveAt_maximizing :
    (Problem.maximizing polyhedron ids objective).objectiveAt point =
      inner (ids.map fun id => (objective.get? id).getD 0)
        (ids.map point) := by
  show ((ids.map BoundedVariable.binary).map
         fun (unknown : BoundedVariable) =>
           (objective.get? unknown.id).getD 0 * point unknown.id).sum = _
  rw [List.map_map, Arithmetic.inner, List.zipWith_map, List.zipWith_self]
  rfl

end Maximizing

/-- The point of an answer, in which a variable without a value is zero. -/
def Answer.point (answer : Answer) (id : String) : Int :=
  (answer.values.get? id).getD 0

/-- The response can be used, and its values are an optimal point. -/
def Response.Solves (response : Response) (problem : Problem) : Prop :=
  ∃ answer, response.single = .ok answer ∧ problem.IsOptimal answer.point

end Configurator.Optimizer
