import Configurator.Proofs.Linear.Shape
import Configurator.Proofs.Optimizer.Exhaustive

/-!
# Faithful coordinates

An optimiser sees the matrix of a polyhedron in coordinate form only.
Whatever is requested of a polyhedron without rows, its rows keep the width
of the columns, and then the coordinate form can be filled into a matrix of
zeros to give the rows again.  Polyhedra with the same coordinate form
therefore have the same rows, those without any entry included.
-/

namespace Configurator.Linear

open Configurator.Collection Configurator.Optimizer

/--
Positions that ascend row by row and from left to right are not repeated.
-/
theorem SparseMatrix.WellFormed.positions_nodup
    {matrix : SparseMatrix}
    (formed : matrix.WellFormed) :
    (matrix.rows.zip matrix.columns).Nodup := by
  refine formed.ascending.imp fun {left right} before same => ?_
  subst same
  rcases before with earlier | ⟨_, earlier⟩
  · exact Nat.lt_irrefl _ earlier
  · exact Nat.lt_irrefl _ earlier

namespace Polyhedron

/-! ## Requests to a polyhedron -/

/-- A request to a polyhedron. -/
inductive Step where
  /-- Add a row with its bound. -/
  | append (row : List Int) (bound : Int)
  /-- Add an inequality between named variables. -/
  | appendInequality (inequality : Inequality) (ids : OrderedSet String)
  /-- Add a column without entries. -/
  | addColumn
  /-- Keep only some columns, in the given order. -/
  | selectColumns (columns : List Nat)

/-- The polyhedron that a request asks for. -/
def attempt (polyhedron : Polyhedron) : Step → Except Failure Polyhedron
  | .append row bound => polyhedron.append row bound
  | .appendInequality inequality ids =>
      polyhedron.appendDeclared inequality ids
  | .addColumn => do
      let (grown, _) ← polyhedron.addColumn
      return grown
  | .selectColumns columns => polyhedron.selectColumns columns

/-- The polyhedron after a request, which changes nothing if it fails. -/
def apply (polyhedron : Polyhedron) (step : Step) : Polyhedron :=
  match polyhedron.attempt step with
  | .ok next => next
  | .error _ => polyhedron

/-- The polyhedron after requests one after another. -/
def run (polyhedron : Polyhedron) (steps : List Step) : Polyhedron :=
  steps.foldl apply polyhedron

variable {polyhedron next : Polyhedron}

theorem wellShaped_unbounded
    (columns : Nat) :
    (unbounded columns).WellShaped :=
  ⟨rfl, fun _ impossible => nomatch impossible⟩

theorem WellShaped.append
    (shaped : polyhedron.WellShaped)
    {row : List Int}
    {bound : Int}
    (appended : polyhedron.append row bound = .ok next) :
    next.WellShaped := by
  rw [Polyhedron.append] at appended
  split at appended
  · rename_i width
    cases appended
    refine ⟨by simp [shaped.1], fun other member => ?_⟩
    rcases List.mem_append.1 member with old | new
    · exact shaped.2 other old
    · rwa [List.mem_singleton.1 new]
  · cases appended

/-- Whatever columns can be selected, the selection has as many. -/
theorem WellShaped.of_selectColumns
    (shaped : polyhedron.WellShaped)
    {columns : List Nat}
    (selected : polyhedron.selectColumns columns = .ok next) :
    next.WellShaped := by
  have picked :
      ∀ row ∈ polyhedron.rows, ∀ entries,
        pick columns row = .ok entries →
        entries = columns.map fun column => (row[column]?).getD 0 := by
    intro row _ entries
    refine eq_map_of_mapM_eq_ok fun column _ value read => ?_
    cases entry : row[column]? with
    | none => simp [entry] at read
    | some found => simpa [entry] using read.symm
  simp only [Polyhedron.selectColumns, bind_eq_ok_iff] at selected
  obtain ⟨rows, computed, finished⟩ := selected
  cases finished
  rw [eq_map_of_mapM_eq_ok picked computed]
  refine ⟨?_, List.forall_mem_map.2 fun row _ => List.length_map _⟩
  rw [shaped.1, List.length_map]

/-- Every request that is granted keeps the shape. -/
theorem WellShaped.attempt
    (shaped : polyhedron.WellShaped)
    {step : Step}
    (granted : polyhedron.attempt step = .ok next) :
    next.WellShaped := by
  cases step with
  | append row bound => exact shaped.append (refusable_eq_ok_iff.1 granted)
  | appendInequality inequality ids =>
      simp only [Polyhedron.attempt, appendDeclared] at granted
      split at granted
      · exact (shaped.appendInequality granted).1
      · cases granted
  | addColumn =>
      simp only [Polyhedron.attempt, bind_eq_ok_iff, faulting_eq_ok_iff]
        at granted
      obtain ⟨⟨grown, index⟩, added, finished⟩ := granted
      cases finished
      rw [Polyhedron.addColumn] at added
      split at added
      · cases added
        exact shaped.widen
      · cases added
  | selectColumns columns =>
      exact shaped.of_selectColumns (faulting_eq_ok_iff.1 granted)

theorem WellShaped.apply
    (shaped : polyhedron.WellShaped)
    (step : Step) :
    (polyhedron.apply step).WellShaped := by
  rw [Polyhedron.apply]
  split
  · exact shaped.attempt ‹_›
  · exact shaped

/-- No sequence of requests leaves the shape. -/
theorem WellShaped.run
    (shaped : polyhedron.WellShaped)
    (steps : List Step) :
    (polyhedron.run steps).WellShaped := by
  induction steps generalizing polyhedron with
  | nil => exact shaped
  | cons step rest ih => exact ih (shaped.apply step)

/-! ## Filling in the entries -/

/-- The entries, written into zeros, are the rows. -/
theorem WellShaped.filled
    (shaped : polyhedron.WellShaped) :
    denseRows polyhedron.sparse polyhedron.sparse.shape.columns =
      .ok polyhedron.rows :=
  denseRows_sparse shaped.2

/--
Well-shaped polyhedra with the same coordinate form have the same rows and
columns.
-/
theorem WellShaped.eq_of_sparse_eq
    {left right : Polyhedron}
    (leftShaped : left.WellShaped)
    (rightShaped : right.WellShaped)
    (same : left.sparse = right.sparse) :
    left.rows = right.rows ∧ left.columns = right.columns := by
  have filled := leftShaped.filled
  rw [same, rightShaped.filled] at filled
  exact ⟨(Except.ok.inj filled).symm,
    congrArg (fun matrix => matrix.shape.columns) same⟩

/--
The coordinate form is faithful.  Every polyhedron that is grown from one
without rows is well shaped.  The positions of a well-shaped polyhedron lie
inside its shape and ascend row by row, none is repeated and no value is
zero; filling them into zeros gives the rows; and no other rows or columns
have the same coordinate form.
-/
theorem sparse_faithful :
    (∀ columns steps, ((unbounded columns).run steps).WellShaped) ∧
    (∀ polyhedron : Polyhedron,
      polyhedron.WellShaped →
      polyhedron.sparse.shape =
        ⟨polyhedron.rows.length, polyhedron.columns⟩ ∧
      polyhedron.sparse.WellFormed ∧
      (polyhedron.sparse.rows.zip polyhedron.sparse.columns).Nodup ∧
      denseRows polyhedron.sparse polyhedron.sparse.shape.columns =
        .ok polyhedron.rows) ∧
    ∀ left right : Polyhedron,
      left.WellShaped →
      right.WellShaped →
      left.sparse = right.sparse →
      left.rows = right.rows ∧ left.columns = right.columns := by
  refine ⟨fun columns steps => (wellShaped_unbounded columns).run steps, ?_,
    ?_⟩
  · intro polyhedron shaped
    exact ⟨rfl, shaped.sparse, shaped.sparse.positions_nodup, shaped.filled⟩
  · intro left right leftShaped rightShaped same
    exact leftShaped.eq_of_sparse_eq rightShaped same

/-- Two columns, a row, an inequality, a refused row and a third column. -/
theorem sparse_faithful_grown :
    ∃ polyhedron : Polyhedron,
      polyhedron.WellShaped ∧
      polyhedron.sparse = ⟨[0, 1], [1, 1], [3, 1], ⟨2, 3⟩⟩ ∧
      denseRows ⟨[0, 1], [1, 1], [3, 1], ⟨2, 3⟩⟩ 3 = .ok polyhedron.rows ∧
      ∀ other : Polyhedron,
        other.WellShaped →
        other.sparse = polyhedron.sparse →
        other.rows = [[0, 3, 0], [0, 1, 0]] := by
  let grown :=
    (unbounded 0).run
      [.addColumn, .addColumn, .append [0, 3] 1,
        .appendInequality (.require "a") (.ofList ["b", "a"]),
        .append [1] 0, .addColumn]
  have shaped : grown.WellShaped := sparse_faithful.1 0 _
  have listed : grown.sparse = ⟨[0, 1], [1, 1], [3, 1], ⟨2, 3⟩⟩ := by
    decide +kernel
  have rows : grown.rows = [[0, 3, 0], [0, 1, 0]] := by decide +kernel
  refine ⟨grown, shaped, listed, ?_, fun other otherShaped same => ?_⟩
  · have filled := (sparse_faithful.2.1 grown shaped).2.2.2
    rwa [listed] at filled
  · rw [(sparse_faithful.2.2 other grown otherShaped shaped same).1, rows]

end Polyhedron

end Configurator.Linear
