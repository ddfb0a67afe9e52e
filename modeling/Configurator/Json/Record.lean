import Configurator.Json.Value

/-!
# Records

A record has named fields in a fixed order.  It is written as an object and
read from an object, in any order and with other members in between, or from
an array of the fields in their order.  What a missing field means depends
on its presence.
-/

namespace Configurator.Json

/-- What it means if a field is missing. -/
inductive Presence where
  /-- Nothing can be read. -/
  | required
  /--
  In an object the field has no value; an array must have an item for it.
  -/
  | optional
  /-- The field has its default, also if an array ends before it. -/
  | defaulted
  deriving DecidableEq, Repr

/-- The name of a field, and what it means if it is missing. -/
structure Field where
  name : String
  presence : Presence

/--
The one value of the members with a name; none within none if there are
several.
-/
def member?
    (members : List (String × Value))
    (name : String) :
    Option (Option Value) :=
  match members.filter fun entry => entry.1 = name with
  | [] => some none
  | [(_, value)] => some (some value)
  | _ => none

/-- The value of a field among the members of an object. -/
def slotOfMembers
    (members : List (String × Value))
    (field : Field) :
    Option (Option Value) :=
  match member? members field.name, field.presence with
  | some none, .required => none
  | slot, _ => slot

/-- The values of fields that are the items of an array. -/
def slotsOfItems : List Field → List Value → Option (List (Option Value))
  | [], [] => some []
  | [], _ :: _ => none
  | _ :: fields, item :: items =>
      (slotsOfItems fields items).map (some item :: ·)
  | field :: fields, [] =>
      match field.presence with
      | .defaulted => (slotsOfItems fields []).map (none :: ·)
      | _ => none

/--
The values of the fields of a record, in order; a missing field has none.
-/
def slots? (fields : List Field) : Value → Option (List (Option Value))
  | .object members => fields.mapM (slotOfMembers members)
  | .array items => slotsOfItems fields items
  | _ => none

/-- The values of a record all of whose fields are required. -/
def required?
    (names : List String)
    (value : Value) :
    Option (List Value) := do
  let slots ← slots? (names.map fun name => ⟨name, .required⟩) value
  slots.mapM id

end Configurator.Json
