import Configurator.Linear.Polyhedron
import Configurator.Schedule.Bounds

/-!
# Compiled rule sets

A rule set is what remains of a model when it is compiled: a polyhedron, the
names of its columns, and which of them can be selected, are mentioned by no
row, stand for preferences, or stand for periods.
-/

namespace Configurator

open Configurator.Calendar Configurator.Collection Configurator.Linear
  Configurator.Schedule

/-- A compiled rule set. -/
structure Ruleset where
  polyhedron : Polyhedron
  /-- The names of the columns, in order. -/
  ids : OrderedSet String
  /-- The primitives that selections may name. -/
  selectable : OrderedSet String
  /-- The primitives that no row mentions. -/
  independent : OrderedSet String
  /-- The supports that hold where a preference is not met. -/
  preferredSupports : OrderedSet String
  /-- The preferred ids. -/
  preferences : OrderedSet String
  /-- The period variables in chronological order. -/
  periods : List PeriodVariable
  /-- The period into which every time bound has to fit. -/
  enabledPeriod : Option Period
  deriving DecidableEq

/--
Refuse a rule set whose polyhedron does not fit its variables or contradicts
its shape.
-/
def Ruleset.check (ruleset : Ruleset) : Except Error Unit :=
  if ruleset.polyhedron.columns ≠ ruleset.ids.size then
    .error (.columnCount ruleset.polyhedron.columns ruleset.ids.size)
  else
    match ruleset.polyhedron.misshape? with
    | none => .ok ()
    | some misshape => .error (.persistedMisshapen misshape)

end Configurator
