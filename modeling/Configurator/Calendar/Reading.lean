import Configurator.Calendar.Instant
import Configurator.Text.Blank
import Configurator.Text.Decimal

/-!
# Reading instants

A time is read as `Y-M-D`, one of `T`, `t` and a blank, `h:m:s`, a fraction,
and a zone.  Fields may lack leading zeros and have blanks in front of them;
so may the marks between the fields of the date and of the time of day.  A
year has up to four digits, or a sign and any number of digits.  The zone is
`Z`, `UTC` or an offset of hours and minutes.
-/

namespace Configurator.Calendar

open Configurator.Text

/-- A reader takes a value off the front of a text, or fails. -/
abbrev Reader (α : Type) := StateT (List Char) Option α

namespace Reader

/-- Skip the leading blanks. -/
def blanks : Reader Unit :=
  modify skipBlanks

/-- Take the one character `expected`. -/
def mark (expected : Char) : Reader Unit := fun text =>
  match text with
  | first :: rest => if first = expected then some ((), rest) else none
  | [] => none

/-- The number in the leading digits, of which there are one to `most`. -/
def upTo (most : Nat) : Reader Nat := fun text =>
  let digits := (text.takeWhile isDigit).take most
  if digits.isEmpty then none
  else some (digitsValue digits, text.drop digits.length)

/-- The number in all leading digits, of which there is at least one. -/
def allDigits : Reader Nat := fun text =>
  upTo text.length text

/-- A field of one or two digits, after blanks. -/
def field : Reader Nat := do
  blanks
  upTo 2

/-- A year, after blanks. -/
def year : Reader Int := do
  blanks
  match ← get with
  | '-' :: rest => do
      set rest
      return -(← allDigits : Nat)
  | '+' :: rest => do
      set rest
      return (← allDigits : Nat)
  | _ => return (← upTo 4 : Nat)

/-- The mark between two fields, after blanks. -/
def between (expected : Char) : Reader Unit := do
  blanks
  mark expected

/-- What divides the date from the time of day. -/
def separator : Reader Unit := fun text =>
  match text with
  | 'T' :: rest | 't' :: rest | ' ' :: rest => some ((), rest)
  | _ => none

/-- The nanoseconds of a fraction; digits after the ninth are dropped. -/
def fraction : Reader Nat := do
  match ← get with
  | '.' :: rest => do
      let digits := rest.takeWhile isDigit
      if digits.isEmpty then failure
      set (rest.drop digits.length)
      let kept := digits.take 9
      return digitsValue kept * Nat.pow 10 (9 - kept.length)
  | _ => return 0

/--
The leading characters if there are three and they spell `UTC` in any case.
-/
def isUniversal (text : List Char) : Bool :=
  (text.take 3).map Char.toUpper == ['U', 'T', 'C']

/--
The minutes of an offset after its sign: hours below 24, colons or blanks,
minutes below 60.
-/
def offset : Reader Nat := do
  match ← get with
  | tens :: ones :: rest => do
      if !(isDigit tens && isDigit ones) then failure
      let hours := digitsValue [tens, ones]
      match rest.dropWhile
        (fun character => character == ':' || isBlank character) with
      | tens :: ones :: rest => do
          if !(isDigit tens && isDigit ones) then failure
          let minutes := digitsValue [tens, ones]
          if hours < 24 && minutes < 60 then
            set rest
            return hours * 60 + minutes
          else failure
      | _ => failure
  | _ => failure

/-- The minutes by which local time is ahead of universal time. -/
def zone : Reader Int := do
  let text ← get
  if isUniversal text then
    set (text.drop 3)
    return 0
  else
    match text with
    | 'Z' :: rest | 'z' :: rest => do
        set rest
        return 0
    | '+' :: rest => do
        set rest
        return (← offset : Nat)
    | '-' :: rest | '−' :: rest => do
        set rest
        return -(← offset : Nat)
    | _ => failure

/-- A whole time, from its year to its zone. -/
def time : Reader Instant := do
  let year ← year
  between '-'
  let month ← field
  between '-'
  let day ← field
  separator
  let hour ← field
  between ':'
  let minute ← field
  between ':'
  let second ← field
  let nano ← fraction
  blanks
  let ahead ← zone
  let date ← StateT.lift (Date.of? year month day)
  if hour < 24 && minute < 60 then
    StateT.lift
      (Instant.ofLocal? date (hour * 60 + minute) second nano ahead)
  else failure

end Reader

/-- The instant that a text stands for; blanks may follow it. -/
def Instant.ofText? (text : String) : Option Instant := do
  let (instant, rest) ← Reader.time text.toList
  if skipBlanks rest = [] then some instant else none

end Configurator.Calendar
