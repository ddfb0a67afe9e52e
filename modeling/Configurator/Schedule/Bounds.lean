import Configurator.Calendar.Period

/-!
# Time bounds and period variables

A time bound says that an id holds during a period.  A period variable is a
primitive that holds exactly while one of the compiled periods is active.
-/

namespace Configurator.Schedule

open Configurator.Calendar

/-- An id that has to hold during a period. -/
structure TimeBound where
  id : String
  period : Period
  deriving DecidableEq

/-- A primitive that stands for a period. -/
structure PeriodVariable where
  id : String
  period : Period
  deriving DecidableEq

/-- The name of the primitive for the period at an index. -/
def periodName (index : Nat) : String :=
  s!"period_{index}"

/-- The smallest period that covers every bound, if there is a bound. -/
def spanOf : List TimeBound → Option Period
  | [] => none
  | first :: rest =>
      some
        (rest.foldl (fun span bound => span.hull bound.period) first.period)

/-- The index of the first period that contains an instant. -/
def locate (periods : List PeriodVariable) (time : Instant) : Option Nat :=
  periods.findIdx? fun candidate => candidate.period.Contains time

end Configurator.Schedule
