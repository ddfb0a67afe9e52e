import Configurator.Collection.OrderedMap
import Configurator.Linear.SparseMatrix

/-!
# Optimisation problems

A problem is what an optimiser is asked: the matrix of a polyhedron in
sparse form, the bounds of its rows and of its variables, and linear
objectives with a direction.
-/

namespace Configurator.Optimizer

open Configurator.Collection Configurator.Linear

/-- A variable with the least and the greatest value that it may take. -/
structure BoundedVariable where
  id : String
  least : Int
  greatest : Int
  deriving DecidableEq

/-- A variable that is 0 or 1. -/
def BoundedVariable.binary (id : String) : BoundedVariable :=
  ⟨id, 0, 1⟩

/-- The rows and the variables of a problem. -/
structure ProblemRows where
  matrix : SparseMatrix
  bounds : List Int
  unknowns : List BoundedVariable
  deriving DecidableEq

/-- Whether an objective is to be made great or small. -/
inductive Direction where
  | maximize
  | minimize
  deriving DecidableEq, Repr

/-- A linear problem over bounded whole numbers. -/
structure Problem where
  polyhedron : ProblemRows
  objectives : List (OrderedMap String Int)
  direction : Direction
  deriving DecidableEq

end Configurator.Optimizer
