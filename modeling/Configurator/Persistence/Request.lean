import Configurator.Persistence.Basic
import Configurator.Request.Selection

/-!
# Persistent selections

An action is written as its name; a selection is a record whose other ids
may be left out.
-/

namespace Configurator.Persistence

open Configurator.Json Configurator.Request

/-- The action with exactly this name. -/
def decodeAction (value : Value) : Option Action := do
  let name ← decodeName value
  if name = Action.add.name then some .add
  else if name = Action.remove.name then some .remove
  else none

instance : Persistent Action :=
  ⟨fun action => .text action.name, decodeAction⟩

/-- The fields of a selection. -/
def selectionFields : List Field :=
  [⟨"id", .required⟩, ⟨"sub_selection_ids", .defaulted⟩,
    ⟨"action", .required⟩]

/-- The record of a selection. -/
def decodeSelection (value : Value) : Option Selection := do
  match ← slots? selectionFields value with
  | [some id, others, some action] =>
      let others ←
        match others with
        | none => some []
        | some others => decode others
      return ⟨← decode id, others, ← decode action⟩
  | _ => none

instance : Persistent Selection :=
  ⟨fun selection =>
    .object
      [("id", encode selection.id),
        ("sub_selection_ids", encode selection.others),
        ("action", encode selection.action)],
    decodeSelection⟩

end Configurator.Persistence
