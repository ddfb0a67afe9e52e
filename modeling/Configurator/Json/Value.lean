import Configurator.Json.Numeral
import Configurator.Text.Hexadecimal

/-!
# JSON values

A JSON value keeps numbers as they are written and the members of an object
in their order, repetitions included.  A value with a text that no sequence
of characters can be (because a surrogate stands alone in it) is
`unreadable`: it is well formed and can be skipped, but nothing can be read
from it.  `Value.characters` writes a value without any blanks.
-/

namespace Configurator.Json

/-- A JSON value. -/
inductive Value where
  | null
  | boolean (value : Bool)
  | number (numeral : Numeral)
  | text (text : String)
  | array (items : List Value)
  | object (members : List (String × Value))
  | unreadable

/-- The value of a whole number. -/
def Value.integer (number : Int) : Value :=
  .number (Numeral.ofInt number)

/--
A character inside quotation marks: quotes, backslashes and controls are
escaped.
-/
def escapeCharacter (character : Char) : List Char :=
  if character = '"' then ['\\', '"']
  else if character = '\\' then ['\\', '\\']
  else if character = '\x08' then ['\\', 'b']
  else if character = '\t' then ['\\', 't']
  else if character = '\n' then ['\\', 'n']
  else if character = '\x0c' then ['\\', 'f']
  else if character = '\r' then ['\\', 'r']
  else if character.toNat < 32 then
    ['\\', 'u', '0', '0', Text.hexDigit (character.toNat / 16),
      Text.hexDigit (character.toNat % 16)]
  else [character]

/-- A text between quotation marks. -/
def quotedCharacters (text : String) : List Char :=
  '"' :: (text.toList.flatMap escapeCharacter ++ ['"'])

namespace Value

mutual

/-- The characters of a value, without blanks. -/
def characters : Value → List Char
  | null => ['n', 'u', 'l', 'l']
  | boolean true => ['t', 'r', 'u', 'e']
  | boolean false => ['f', 'a', 'l', 's', 'e']
  | number numeral => numeral.characters
  | text content => quotedCharacters content
  | array items => '[' :: (itemCharacters items ++ [']'])
  | object members => '\x7b' :: (memberCharacters members ++ ['\x7d'])
  | unreadable => ['"', '\\', 'u', 'd', '8', '0', '0', '"']

/-- The characters of the items of an array, separated by commas. -/
def itemCharacters : List Value → List Char
  | [] => []
  | [item] => item.characters
  | item :: rest => item.characters ++ ',' :: itemCharacters rest

/-- The characters of the members of an object, separated by commas. -/
def memberCharacters : List (String × Value) → List Char
  | [] => []
  | [(name, value)] => quotedCharacters name ++ ':' :: value.characters
  | (name, value) :: rest =>
      quotedCharacters name ++
        ':' :: (value.characters ++ ',' :: memberCharacters rest)

end

/-- A value as a text without blanks. -/
def render (value : Value) : String :=
  String.ofList value.characters

end Value

end Configurator.Json
