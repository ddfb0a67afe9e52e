import Configurator.Calendar.Format

/-!
# Periods

A period holds the instants from its start on, up to but without its end.  A
period that is read from a persisted rule set may be empty; the periods of
requests are checked by `Period.between`.
-/

namespace Configurator.Calendar

/-- The instants from `start` on and before `finish`. -/
structure Period where
  start : Instant
  finish : Instant
  deriving DecidableEq

namespace Period

/-- Whether an instant lies in the period. -/
def Contains (period : Period) (instant : Instant) : Prop :=
  period.start ≤ instant ∧ instant < period.finish

instance
    (period : Period)
    (instant : Instant) :
    Decidable (period.Contains instant) :=
  inferInstanceAs
    (Decidable (period.start ≤ instant ∧ instant < period.finish))

/-- Whether another period starts and ends inside this one. -/
def Covers (period other : Period) : Prop :=
  period.start ≤ other.start ∧ other.finish ≤ period.finish

instance (period other : Period) : Decidable (period.Covers other) :=
  inferInstanceAs
    (Decidable (period.start ≤ other.start ∧ other.finish ≤ period.finish))

/-- The smallest period that covers both. -/
def hull (left right : Period) : Period :=
  ⟨left.start.earlier right.start, left.finish.later right.finish⟩

/-- Compare two periods by their starts, then by their ends. -/
def compare (left right : Period) : Ordering :=
  (Ord.compare left.start.position right.start.position).then
    (Ord.compare left.finish.position right.finish.position)

/-- A period in half-open brackets. -/
def textIn (period : Period) (format : TimeFormat) : String :=
  "[" ++ period.start.text format ++ ", " ++ period.finish.text format ++
    ")"

/-- A period as messages and answers show it. -/
def text (period : Period) : String :=
  period.textIn TimeFormat.shown

end Period

end Configurator.Calendar
