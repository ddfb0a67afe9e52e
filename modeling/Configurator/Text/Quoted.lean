import Configurator.Text.Printable

/-!
# Quoted texts

Messages show an id, an operand or a value between quotation marks, so that
a blank or a control character in it can be seen.  A quote and a backslash
are preceded by a backslash, the usual controls have letters, and every
other character that is an extender or has no visible form is written by its
code point, as `\u` with the hexadecimal digits in braces.
-/

namespace Configurator.Text

/-- The characters that stand for one character inside quotation marks. -/
def escapeCharacter (character : Char) : List Char :=
  if character = '"' then ['\\', '"']
  else if character = '\\' then ['\\', '\\']
  else if character = '\n' then ['\\', 'n']
  else if character = '\r' then ['\\', 'r']
  else if character = '\t' then ['\\', 't']
  else if character = '\x00' then ['\\', '0']
  else if isExtender character || !isPrintable character then
    '\\' :: 'u' :: '\x7b' :: (Nat.toDigits 16 character.toNat ++ ['\x7d'])
  else [character]

/-- A text between quotation marks. -/
def quoted (text : String) : String :=
  String.ofList ('"' :: (text.toList.flatMap escapeCharacter ++ ['"']))

/-- Quoted texts between brackets, in order. -/
def quotedList (texts : List String) : String :=
  "[" ++ String.intercalate ", " (texts.map quoted) ++ "]"

/-- Quoted texts between braces, in order. -/
def quotedSet (texts : List String) : String :=
  "\x7b" ++ String.intercalate ", " (texts.map quoted) ++ "\x7d"

end Configurator.Text
