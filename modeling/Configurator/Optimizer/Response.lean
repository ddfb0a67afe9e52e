import Configurator.Collection.OrderedMap
import Configurator.Error

/-!
# Answers of an optimiser

A response holds a list of solutions, each with a status.  Only a response
with exactly one solution whose status is a success can be used.
-/

namespace Configurator.Optimizer

open Configurator.Collection

/-- What a status says. -/
inductive Status where
  | optimal
  | feasible
  | failed
  | other (text : String)
  deriving DecidableEq, Repr

namespace Status

/-- The meaning of a status; the case of its letters does not matter. -/
def ofText (text : String) : Status :=
  let name := text.toList.map Char.toLower
  if name = "optimal".toList then optimal
  else if name = "feasible".toList then feasible
  else if name = "mipfailed".toList then failed
  else other text

/-- The usual spelling of a status. -/
def name : Status → String
  | optimal => "optimal"
  | feasible => "feasible"
  | failed => "mipfailed"
  | other text => text

/-- Whether there is a solution to use. -/
def isSuccess : Status → Bool
  | optimal | feasible => true
  | failed | other _ => false

end Status

/-- A solution with its status, as the optimiser reports it. -/
structure Answer where
  status : String
  reason : Option String
  objective : Option Float
  values : OrderedMap String Int

/-- All solutions that the optimiser reports. -/
structure Response where
  solutions : List Answer

/-- The one solution of a response, if its status is a success. -/
def Response.single (response : Response) : Except Error Answer :=
  match response.solutions with
  | [answer] =>
      match Status.ofText answer.status with
      | .optimal | .feasible => .ok answer
      | .failed =>
          match answer.reason with
          | some reason => .error (.solverFailed reason)
          | none => .error (.unsolved answer.status)
      | .other _ => .error (.unknownStatus answer.status)
  | solutions => .error (.solutionCount solutions.length)

end Configurator.Optimizer
