import Configurator.Collection.OrderedMap
import Configurator.Collection.OrderedSet
import Configurator.Error
import Configurator.Json.Reader
import Configurator.Json.Record
import Configurator.Linear.Coefficients

/-!
# Persistent values

A persistent type has a form as a JSON value and a reader of that form.
Numbers are read only within their range, sets drop repeated members, and a
repeated key of a map replaces the value of the first one.
-/

namespace Configurator.Persistence

open Configurator.Arithmetic Configurator.Collection Configurator.Json
  Configurator.Linear

/-- Types whose values are written as JSON and read back. -/
class Persistent (α : Type) where
  /-- The written form of a value. -/
  encode : α → Value
  /-- The value of a written form. -/
  decode : Value → Option α

export Persistent (encode decode)

/-- The compact text of a value. -/
def write {α : Type} [Persistent α] (value : α) : String :=
  (encode value).render

/-- The value that a text stands for. -/
def read? {α : Type} [Persistent α] (text : String) : Option α :=
  (Value.ofText? text).bind decode

/-- The value that a text stands for; other texts are malformed. -/
def read {α : Type} [Persistent α] (text : String) : Except Error α :=
  match read? text with
  | some value => .ok value
  | none => .error .malformedText

/-- A signed word. -/
def decodeWord : Value → Option Int
  | .number numeral => numeral.toInt?.bind word?
  | _ => none

/-- An unsigned word: a count or an index. -/
def decodeIndex : Value → Option Nat
  | .number numeral =>
      match numeral.toInt? with
      | some (.ofNat index) =>
          if index < indexBound then some index else none
      | _ => none
  | _ => none

/-- A text. -/
def decodeText : Value → Option String
  | .text content => some content
  | _ => none

instance : Persistent Int :=
  ⟨Value.integer, decodeWord⟩

instance : Persistent Nat :=
  ⟨fun index => Value.integer index, decodeIndex⟩

instance : Persistent String :=
  ⟨Value.text, decodeText⟩

/-- The items of an array. -/
def decodeList {α : Type} [Persistent α] : Value → Option (List α)
  | .array items => items.mapM decode
  | _ => none

instance {α : Type} [Persistent α] : Persistent (List α) :=
  ⟨fun items => .array (items.map encode), decodeList⟩

instance
    {α : Type}
    [Persistent α]
    [DecidableEq α] :
    Persistent (OrderedSet α) :=
  ⟨fun members => encode members.toList,
    fun value => (decode value).map OrderedSet.ofList⟩

/-- The members of an object, whose values are signed words. -/
def decodeEntries : Value → Option (List (String × Int))
  | .object members =>
      members.mapM fun (name, value) => (decode value).map (name, ·)
  | _ => none

/-- An object with a member for each entry. -/
def encodeEntries (entries : List (String × Int)) : Value :=
  .object (entries.map fun (name, value) => (name, encode value))

instance : Persistent (OrderedMap String Int) :=
  ⟨fun map => encodeEntries map.entries,
    fun value => (decodeEntries value).map OrderedMap.ofList⟩

instance : Persistent Coefficients :=
  ⟨fun coefficients => encodeEntries coefficients.entries,
    fun value => (decodeEntries value).map Coefficients.ofList⟩

/-- A value that may be absent, or `null`. -/
def decodeOption
    {α : Type}
    (decodePresent : Value → Option α) :
    Option Value → Option (Option α)
  | none | some .null => some none
  | some value => (decodePresent value).map some

/--
The name of a constant: a text, or an object with the name and no content.
-/
def decodeName : Value → Option String
  | .text name => some name
  | .object [(name, .null)] => some name
  | _ => none

end Configurator.Persistence
