import Configurator.Calendar.Date

/-!
# Instants

An `Instant` is a date and a time of day in universal time, down to the
nanosecond.  A minute may have a second 60: a leap second lies after every
instant of second 59 and before the next minute.  Instants are ordered by
their fields from the year down, which `Instant.position` turns into the
order of the whole numbers.
-/

namespace Configurator.Calendar

/-- A date and a time of day in universal time. -/
structure Instant where
  date : Date
  hour : Nat
  minute : Nat
  second : Nat
  nano : Nat
  hour_lt : hour < 24
  minute_lt : minute < 60
  second_le : second ≤ 60
  nano_lt : nano < 1000000000
  deriving DecidableEq

namespace Instant

/--
The place of an instant on a line on which every field has room for its
values.
-/
def position (instant : Instant) : Int :=
  (((((instant.date.year * 13 + instant.date.month) * 32 +
       instant.date.day) * 24 + instant.hour) * 60 + instant.minute) * 61 +
    instant.second) * 1000000000 + instant.nano

instance : LE Instant :=
  ⟨fun earlier later => earlier.position ≤ later.position⟩

instance : LT Instant :=
  ⟨fun earlier later => earlier.position < later.position⟩

instance (earlier later : Instant) : Decidable (earlier ≤ later) :=
  inferInstanceAs (Decidable (earlier.position ≤ later.position))

instance (earlier later : Instant) : Decidable (earlier < later) :=
  inferInstanceAs (Decidable (earlier.position < later.position))

theorem le_iff
    {earlier later : Instant} :
    earlier ≤ later ↔ earlier.position ≤ later.position :=
  Iff.rfl

theorem lt_iff
    {earlier later : Instant} :
    earlier < later ↔ earlier.position < later.position :=
  Iff.rfl

theorem daysInMonth_le
    (year : Int)
    (month : Nat) :
    daysInMonth year month ≤ 31 := by
  unfold daysInMonth
  split <;> (try split) <;> omega

theorem month_le_of_isDate
    {year : Int}
    {month day : Nat}
    (valid : IsDate year month day) :
    month ≤ 12 := by
  obtain ⟨_, lower, upper⟩ := valid
  unfold daysInMonth at upper
  split at upper <;> omega

/-- Instants at the same place are the same. -/
theorem position_injective
    {left right : Instant}
    (same : left.position = right.position) :
    left = right := by
  obtain ⟨⟨leftYear, leftMonth, leftDay, leftValid⟩, leftHour, leftMinute,
    leftSecond, leftNano, leftHourLt, leftMinuteLt, leftSecondLe,
    leftNanoLt⟩ := left
  obtain ⟨⟨rightYear, rightMonth, rightDay, rightValid⟩, rightHour,
    rightMinute, rightSecond, rightNano, rightHourLt, rightMinuteLt,
    rightSecondLe, rightNanoLt⟩ := right
  have leftMonthLe := month_le_of_isDate leftValid
  have rightMonthLe := month_le_of_isDate rightValid
  have leftDayLe :=
    Nat.le_trans leftValid.2.2 (daysInMonth_le leftYear leftMonth)
  have rightDayLe :=
    Nat.le_trans rightValid.2.2 (daysInMonth_le rightYear rightMonth)
  simp only [position] at same
  have nano : leftNano = rightNano := by omega
  have second : leftSecond = rightSecond := by omega
  have minute : leftMinute = rightMinute := by omega
  have hour : leftHour = rightHour := by omega
  have day : leftDay = rightDay := by omega
  have month : leftMonth = rightMonth := by omega
  have year : leftYear = rightYear := by omega
  subst nano second minute hour day month year
  rfl

/-- The earlier one of two instants. -/
def earlier (left right : Instant) : Instant :=
  if left ≤ right then left else right

/-- The later one of two instants. -/
def later (left right : Instant) : Instant :=
  if left ≤ right then right else left

/--
The instant of a local date and time of day that is `ahead` minutes ahead of
universal time, if its date exists.
-/
def ofLocal?
    (date : Date)
    (minutes : Nat)
    (second nano : Nat)
    (ahead : Int) :
    Option Instant := do
  let universal := (minutes : Int) - ahead
  let date ←
    if universal < 0 then date.previous?
    else if universal < 1440 then some date
    else date.next?
  let minuteOfDay := (universal % 1440).toNat
  if bounds : minuteOfDay < 1440 ∧ second ≤ 60 ∧ nano < 1000000000 then
    some
      { date := date
        hour := minuteOfDay / 60
        minute := minuteOfDay % 60
        second := second
        nano := nano
        hour_lt := by omega
        minute_lt := by omega
        second_le := bounds.2.1
        nano_lt := bounds.2.2 }
  else none

end Instant

end Configurator.Calendar
