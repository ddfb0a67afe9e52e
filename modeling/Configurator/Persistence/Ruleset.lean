import Configurator.Persistence.Linear
import Configurator.Persistence.Schedule
import Configurator.Ruleset.Basic

/-!
# Persistent rule sets

A rule set is a record.  Reading one from a text also checks that its
polyhedron has a column for every variable and does not contradict its own
shape.
-/

namespace Configurator.Persistence

open Configurator.Calendar Configurator.Json

/-- The period or `null`. -/
def encodeEnabledPeriod : Option Period → Value
  | none => .null
  | some period => encode period

/-- The fields of a rule set. -/
def rulesetFields : List Field :=
  [⟨"polyhedron", .required⟩, ⟨"variables", .required⟩,
    ⟨"selectable_variables", .required⟩,
    ⟨"independent_variables", .required⟩,
    ⟨"preferred_variables", .required⟩, ⟨"preferences", .defaulted⟩,
    ⟨"period_variables", .required⟩, ⟨"global_period", .optional⟩]

/-- The record of a rule set, whose polyhedron is not checked. -/
def decodeRuleset (value : Value) : Option Ruleset := do
  match ← slots? rulesetFields value with
  | [some polyhedron, some ids, some selectable, some independent,
      some preferred, preferences, some periods, enabled] =>
      let preferences ←
        match preferences with
        | none => some ∅
        | some preferences => decode preferences
      return {
        polyhedron := ← decode polyhedron
        ids := ← decode ids
        selectable := ← decode selectable
        independent := ← decode independent
        preferredSupports := ← decode preferred
        preferences := preferences
        periods := ← decode periods
        enabledPeriod := ← decodeOption decode enabled }
  | _ => none

instance : Persistent Ruleset :=
  ⟨fun ruleset =>
    .object
      [("polyhedron", encode ruleset.polyhedron),
        ("variables", encode ruleset.ids),
        ("selectable_variables", encode ruleset.selectable),
        ("independent_variables", encode ruleset.independent),
        ("preferred_variables", encode ruleset.preferredSupports),
        ("preferences", encode ruleset.preferences),
        ("period_variables", encode ruleset.periods),
        ("global_period", encodeEnabledPeriod ruleset.enabledPeriod)],
    decodeRuleset⟩

/-- The rule set that a text stands for, if it passes the checks. -/
def readRuleset (text : String) : Except Error Ruleset := do
  let ruleset ← read text
  ruleset.check
  return ruleset

end Configurator.Persistence
