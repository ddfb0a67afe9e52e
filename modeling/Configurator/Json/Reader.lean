import Configurator.Json.Value

/-!
# Reading JSON

`Value.ofText?` reads a text that holds one JSON value and blanks around it.
Strings are read in two steps: the pieces between the quotation marks, and
the characters that the pieces stand for, two surrogates making one
character.  The reader of values recurses on a bound of its steps, which the
length of the text provides, because every step takes at least one
character.
-/

namespace Configurator.Json

open Configurator.Text

/-- Whether a character may stand between the parts of a value. -/
def isSpace (character : Char) : Bool :=
  character == ' ' || character == '\t' || character == '\n' ||
    character == '\r'

/-- What is left of a text after leading blanks. -/
def skipSpace (text : List Char) : List Char :=
  text.dropWhile isSpace

/--
What stands between quotation marks: a character, or an escaped code unit.
-/
inductive Piece where
  | plain (character : Char)
  | unit (code : Nat)
  deriving DecidableEq

/-- The value of four hexadecimal digits. -/
def codeUnit? (a b c d : Char) : Option Nat := do
  return ((← hexValue? a) * 16 + (← hexValue? b)) * 256 +
    ((← hexValue? c) * 16 + (← hexValue? d))

/-- The character that a letter after a backslash stands for. -/
def escaped? (letter : Char) : Option Char :=
  match letter with
  | '"' => some '"'
  | '\\' => some '\\'
  | '/' => some '/'
  | 'b' => some '\x08'
  | 'f' => some '\x0c'
  | 'n' => some '\n'
  | 'r' => some '\r'
  | 't' => some '\t'
  | _ => none

/--
The pieces up to the closing quotation mark, after the ones in reverse
order.
-/
def readPieces
    (reversed : List Piece) :
    List Char → Option (List Piece × List Char)
  | [] => none
  | '"' :: rest => some (reversed.reverse, rest)
  | '\\' :: 'u' :: a :: b :: c :: d :: rest =>
      match codeUnit? a b c d with
      | some code => readPieces (.unit code :: reversed) rest
      | none => none
  | '\\' :: letter :: rest =>
      match escaped? letter with
      | some character => readPieces (.plain character :: reversed) rest
      | none => none
  | character :: rest =>
      if character = '\\' ∨ character.toNat < 32 then none
      else readPieces (.plain character :: reversed) rest

/-- Whether a code unit opens a pair of surrogates. -/
def isHighSurrogate (code : Nat) : Bool :=
  0xD800 ≤ code && code < 0xDC00

/-- Whether a code unit closes a pair of surrogates. -/
def isLowSurrogate (code : Nat) : Bool :=
  0xDC00 ≤ code && code < 0xE000

/--
The characters that pieces stand for, after the ones in reverse order.
-/
def resolve (reversed : List Char) : List Piece → Option (List Char)
  | [] => some reversed.reverse
  | .plain character :: rest => resolve (character :: reversed) rest
  | .unit high :: .unit low :: rest =>
      if isHighSurrogate high then
        if isLowSurrogate low then
          resolve
            (Char.ofNat
              (0x10000 + (high - 0xD800) * 1024 + (low - 0xDC00)) ::
              reversed) rest
        else none
      else if isLowSurrogate high then none
      else resolve (Char.ofNat high :: reversed) (.unit low :: rest)
  | .unit code :: rest =>
      if isHighSurrogate code || isLowSurrogate code then none
      else resolve (Char.ofNat code :: reversed) rest

/-- The text that pieces stand for, if there is one. -/
def textOf? (pieces : List Piece) : Option String :=
  (resolve [] pieces).map String.ofList

/-- The value of pieces between quotation marks. -/
def Value.ofPieces (pieces : List Piece) : Value :=
  match textOf? pieces with
  | some content => .text content
  | none => .unreadable

/-- An object of members whose names come as pieces, in reverse order. -/
def Value.ofMembers (reversed : List (List Piece × Value)) : Value :=
  match reversed.reverse.mapM fun (pieces, value) =>
    (textOf? pieces).map (·, value) with
  | some members => .object members
  | none => .unreadable

/-- The leading digits and what follows them. -/
def spanDigits (text : List Char) : List Char × List Char :=
  (text.takeWhile isDigit, text.dropWhile isDigit)

/-- A whole part: a zero, or digits that do not start with a zero. -/
def readWhole (text : List Char) : Option (Nat × List Char) :=
  match text with
  | '0' :: rest => some (0, rest)
  | _ =>
      let (digits, rest) := spanDigits text
      if digits.isEmpty then none else some (digitsValue digits, rest)

/-- A point and digits after it, if there is a point. -/
def readFraction (text : List Char) : Option (List Char × List Char) :=
  match text with
  | '.' :: rest =>
      let (digits, rest) := spanDigits rest
      if digits.isEmpty then none else some (digits, rest)
  | _ => some ([], text)

/-- The digits of an exponent with its sign. -/
def readPower
    (negative : Bool)
    (text : List Char) :
    Option (Int × List Char) :=
  let (digits, rest) := spanDigits text
  let power : Int := digitsValue digits
  if digits.isEmpty then none
  else some (if negative then -power else power, rest)

/-- An exponent with its letter, if there is one. -/
def readExponent (text : List Char) : Option (Option Int × List Char) :=
  match text with
  | 'e' :: rest | 'E' :: rest =>
      match rest with
      | '-' :: rest =>
          (readPower true rest).map fun (power, rest) => (some power, rest)
      | '+' :: rest =>
          (readPower false rest).map fun (power, rest) => (some power, rest)
      | _ =>
          (readPower false rest).map fun (power, rest) => (some power, rest)
  | _ => some (none, text)

/-- The parts of a numeral after its sign. -/
def readUnsigned
    (negative : Bool)
    (text : List Char) :
    Option (Numeral × List Char) := do
  let (whole, text) ← readWhole text
  let (fraction, text) ← readFraction text
  let (exponent, text) ← readExponent text
  return (⟨negative, whole, fraction, exponent⟩, text)

/-- A numeral. -/
def readNumeral (text : List Char) : Option (Numeral × List Char) :=
  match text with
  | '-' :: rest => readUnsigned true rest
  | _ => readUnsigned false text

mutual

/-- A value after blanks. -/
def readValue : (steps : Nat) → List Char → Option (Value × List Char)
  | 0, _ => none
  | steps + 1, text =>
      match skipSpace text with
      | '[' :: rest =>
          match skipSpace rest with
          | ']' :: rest => some (.array [], rest)
          | _ => readItems steps [] rest
      | '\x7b' :: rest =>
          match skipSpace rest with
          | '\x7d' :: rest => some (.object [], rest)
          | _ => readMembers steps [] rest
      | '"' :: rest =>
          match readPieces [] rest with
          | some (pieces, rest) => some (Value.ofPieces pieces, rest)
          | none => none
      | 'n' :: 'u' :: 'l' :: 'l' :: rest => some (.null, rest)
      | 't' :: 'r' :: 'u' :: 'e' :: rest => some (.boolean true, rest)
      | 'f' :: 'a' :: 'l' :: 's' :: 'e' :: rest =>
          some (.boolean false, rest)
      | text =>
          match readNumeral text with
          | some (numeral, rest) => some (.number numeral, rest)
          | none => none

/-- The items up to the closing bracket, after the ones in reverse order. -/
def readItems :
    (steps : Nat) →
    (reversed : List Value) →
    List Char →
    Option (Value × List Char)
  | 0, _, _ => none
  | steps + 1, reversed, text =>
      match readValue steps text with
      | none => none
      | some (item, rest) =>
          match skipSpace rest with
          | ',' :: rest => readItems steps (item :: reversed) rest
          | ']' :: rest => some (.array (item :: reversed).reverse, rest)
          | _ => none

/-- The members up to the closing brace, after the ones in reverse order. -/
def readMembers :
    (steps : Nat) →
    (reversed : List (List Piece × Value)) →
    List Char →
    Option (Value × List Char)
  | 0, _, _ => none
  | steps + 1, reversed, text =>
      match skipSpace text with
      | '"' :: rest =>
          match readPieces [] rest with
          | none => none
          | some (name, rest) =>
              match skipSpace rest with
              | ':' :: rest =>
                  match readValue steps rest with
                  | none => none
                  | some (value, rest) =>
                      match skipSpace rest with
                      | ',' :: rest =>
                          readMembers steps ((name, value) :: reversed) rest
                      | '\x7d' :: rest =>
                          some
                            (Value.ofMembers ((name, value) :: reversed),
                              rest)
                      | _ => none
              | _ => none
      | _ => none

end

/-- The value that a text holds, blanks around it aside. -/
def Value.ofText? (text : String) : Option Value :=
  let characters := text.toList
  match readValue (characters.length + 1) characters with
  | some (value, rest) => if skipSpace rest = [] then some value else none
  | none => none

end Configurator.Json
