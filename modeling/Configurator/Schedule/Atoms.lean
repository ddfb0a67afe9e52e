import Configurator.Collection.OrderedMap
import Configurator.Collection.OrderedSet
import Configurator.Schedule.Bounds

/-!
# Atomic periods

A span is cut at every start and end of a time bound inside it.  Within an
atomic period no bound starts or ends, so a bound either covers an atom or
has no instant in common with it, and the atoms can be grouped by the ids
that are active in them.
-/

namespace Configurator.Schedule

open Configurator.Calendar Configurator.Collection

/-- Put an instant into an ascending list that does not hold it yet. -/
def insertCut (cut : Instant) : List Instant → List Instant
  | [] => [cut]
  | first :: rest =>
      if cut < first then cut :: first :: rest
      else if first < cut then first :: insertCut cut rest
      else first :: rest

/-- The starts and ends of the bounds that lie strictly inside a span. -/
def innerCuts (span : Period) (bounds : List TimeBound) : List Instant :=
  (bounds.flatMap fun bound =>
    [bound.period.start, bound.period.finish]).filter
    fun cut => span.start < cut ∧ cut < span.finish

/--
The instants at which a span is cut, its ends included, in ascending order.
-/
def cuts (span : Period) (bounds : List TimeBound) : List Instant :=
  (span.start :: span.finish :: innerCuts span bounds).foldl
    (fun sorted cut => insertCut cut sorted) []

/-- The periods between one instant and the next. -/
def consecutive : List Instant → List Period
  | first :: second :: rest =>
      ⟨first, second⟩ :: consecutive (second :: rest)
  | _ => []

/-- The pieces of a span between its cuts, in chronological order. -/
def atoms (span : Period) (bounds : List TimeBound) : List Period :=
  consecutive (cuts span bounds)

/--
The distinct ids of the bounds that cover an atom, in the order of the
bounds.
-/
def activeIds (bounds : List TimeBound) (atom : Period) : List String :=
  (OrderedSet.ofList
    ((bounds.filter fun bound => bound.period.Covers atom).map
      TimeBound.id)).toList

/-- The groups with one more atom, unless no id is active in it. -/
def addToGroup
    (bounds : List TimeBound)
    (groups : OrderedMap (List String) (List Nat))
    (indexed : Period × Nat) :
    OrderedMap (List String) (List Nat) :=
  let active := activeIds bounds indexed.1
  if active.isEmpty then groups
  else groups.insert active ((groups.get? active).getD [] ++ [indexed.2])

/--
The indices of the atoms by the ids that are active in them; groups come in
the order of their first atom, and atoms without an active id are in none.
-/
def groupByActive
    (atoms : List Period)
    (bounds : List TimeBound) :
    OrderedMap (List String) (List Nat) :=
  atoms.zipIdx.foldl (addToGroup bounds) ∅

end Configurator.Schedule
