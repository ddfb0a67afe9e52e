import Configurator.Calendar.Instant
import Configurator.Text.Decimal

/-!
# Written instants

An instant is written as date, separator, time of day and zone.  Years
outside 0 to 9999 have a sign.  The fraction of the second has 0, 3, 6 or 9
digits, the fewest that lose nothing.
-/

namespace Configurator.Calendar

open Configurator.Text

/-- What stands between date and time of day, and what names the zone. -/
structure TimeFormat where
  separator : Char
  zone : List Char

/-- Periods are shown with the offset of universal time. -/
def TimeFormat.shown : TimeFormat :=
  ⟨'T', ['+', '0', '0', ':', '0', '0']⟩

/-- Persisted instants end in `Z`. -/
def TimeFormat.persisted : TimeFormat :=
  ⟨'T', ['Z']⟩

/-- Empty periods are reported with blanks and the name of the zone. -/
def TimeFormat.spaced : TimeFormat :=
  ⟨' ', [' ', 'U', 'T', 'C']⟩

/-- A year: four digits at least, and a sign unless it lies in 0 to 9999. -/
def yearDigits (year : Int) : List Char :=
  if year < 0 then '-' :: paddedDigits 4 year.natAbs
  else if year ≤ 9999 then paddedDigits 4 year.natAbs
  else '+' :: paddedDigits 4 year.natAbs

/-- The fraction of a second in groups of three digits, with its point. -/
def fractionDigits (nano : Nat) : List Char :=
  if nano = 0 then []
  else if nano % 1000000 = 0 then '.' :: paddedDigits 3 (nano / 1000000)
  else if nano % 1000 = 0 then '.' :: paddedDigits 6 (nano / 1000)
  else '.' :: paddedDigits 9 nano

/-- The characters of an instant. -/
def Instant.characters
    (instant : Instant)
    (format : TimeFormat) :
    List Char :=
  yearDigits instant.date.year ++
    '-' ::
      (paddedDigits 2 instant.date.month ++
        '-' ::
          (paddedDigits 2 instant.date.day ++
            format.separator ::
              (paddedDigits 2 instant.hour ++
                ':' ::
                  (paddedDigits 2 instant.minute ++
                    ':' ::
                      (paddedDigits 2 instant.second ++
                        (fractionDigits instant.nano ++ format.zone))))))

/-- An instant as a text. -/
def Instant.text (instant : Instant) (format : TimeFormat) : String :=
  String.ofList (instant.characters format)

end Configurator.Calendar
