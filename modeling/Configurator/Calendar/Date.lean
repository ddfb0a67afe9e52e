/-!
# Dates of the proleptic Gregorian calendar

A `Date` is a valid year, month and day; year 0 precedes year 1.  The years
run from -262143 to 262142, so the first and the last date have no neighbour
on one side.
-/

namespace Configurator.Calendar

/--
Every fourth year is a leap year, of the century years every fourth one.
-/
def isLeapYear (year : Int) : Bool :=
  year % 4 == 0 && (year % 100 != 0 || year % 400 == 0)

/--
The number of days of a month, counted from 1; zero outside of 1 to 12.
-/
def daysInMonth (year : Int) (month : Nat) : Nat :=
  match month with
  | 1 | 3 | 5 | 7 | 8 | 10 | 12 => 31
  | 4 | 6 | 9 | 11 => 30
  | 2 => if isLeapYear year then 29 else 28
  | _ => 0

/-- The first year with dates. -/
def firstYear : Int := -262143

/-- The last year with dates. -/
def lastYear : Int := 262142

/-- Whether year, month and day name a date. -/
def IsDate (year : Int) (month day : Nat) : Prop :=
  (firstYear ≤ year ∧ year ≤ lastYear) ∧
  1 ≤ day ∧
  day ≤ daysInMonth year month

instance
    (year : Int)
    (month day : Nat) :
    Decidable (IsDate year month day) :=
  inferInstanceAs
    (Decidable ((firstYear ≤ year ∧ year ≤ lastYear) ∧
      1 ≤ day ∧ day ≤ daysInMonth year month))

/-- A valid date. -/
structure Date where
  year : Int
  month : Nat
  day : Nat
  valid : IsDate year month day
  deriving DecidableEq

/-- The date with this year, month and day, if there is one. -/
def Date.of? (year : Int) (month day : Nat) : Option Date :=
  if valid : IsDate year month day then some ⟨year, month, day, valid⟩
  else none

/-- The day after, if there is one. -/
def Date.next? (date : Date) : Option Date :=
  (Date.of? date.year date.month (date.day + 1)).or
    ((Date.of? date.year (date.month + 1) 1).or
      (Date.of? (date.year + 1) 1 1))

/-- The day before, if there is one. -/
def Date.previous? (date : Date) : Option Date :=
  (Date.of? date.year date.month (date.day - 1)).or
    ((Date.of? date.year (date.month - 1)
       (daysInMonth date.year (date.month - 1))).or
      (Date.of? (date.year - 1) 12 31))

end Configurator.Calendar
