import Configurator.Calendar.Reading
import Configurator.Persistence.Basic
import Configurator.Schedule.Bounds

/-!
# Persistent periods

Instants are texts; periods, time bounds and period variables are records.
A period is read as it is written, also if it is empty.
-/

namespace Configurator.Persistence

open Configurator.Calendar Configurator.Json Configurator.Schedule

/-- The instant that a text stands for. -/
def decodeInstant (value : Value) : Option Instant :=
  (decodeText value).bind Instant.ofText?

instance : Persistent Instant :=
  ⟨fun instant => .text (instant.text TimeFormat.persisted), decodeInstant⟩

/-- The record of a period. -/
def decodePeriod (value : Value) : Option Period := do
  match ← required? ["from", "to"] value with
  | [start, finish] => return ⟨← decode start, ← decode finish⟩
  | _ => none

instance : Persistent Period :=
  ⟨fun period =>
    .object [("from", encode period.start), ("to", encode period.finish)],
      decodePeriod⟩

/-- The record of an id with a period. -/
def decodeTimed (value : Value) : Option (String × Period) := do
  match ← required? ["id", "period"] value with
  | [id, period] => return (← decode id, ← decode period)
  | _ => none

/-- The record of an id with a period. -/
def encodeTimed (id : String) (period : Period) : Value :=
  .object [("id", encode id), ("period", encode period)]

instance : Persistent TimeBound :=
  ⟨fun bound => encodeTimed bound.id bound.period,
    fun value => (decodeTimed value).map fun (id, period) => ⟨id, period⟩⟩

instance : Persistent PeriodVariable :=
  ⟨fun timed => encodeTimed timed.id timed.period,
    fun value => (decodeTimed value).map fun (id, period) => ⟨id, period⟩⟩

end Configurator.Persistence
