import Configurator.Logic.Model

/-!
# Diagrams of models

A model is drawn as a directed graph in the DOT language.  Primitives lie on
the lowest rank; an edge leads from every support to each variable that its
constraint mentions.  Node names are positions in the order of the
variables.
-/

namespace Configurator.Logic

open Configurator.Collection Configurator.Linear Configurator.Text

/--
Shapes and line styles of a diagram, and how much of a support's id it
shows.
-/
structure DiagramStyle where
  primitiveShape : String := "ellipse"
  supportShape : String := "box"
  assumedShape : String := "doubleoctagon"
  positiveEdge : String := "solid"
  negativeEdge : String := "dashed"
  idLength : Nat := 8

/--
A character inside a quoted label: quotes and backslashes follow a
backslash.
-/
def labelCharacter (character : Char) : List Char :=
  if character = '\\' ∨ character = '"' then ['\\', character]
  else [character]

/-- The characters of a text inside a quoted label. -/
def labelText (text : String) : String :=
  String.ofList (text.toList.flatMap labelCharacter)

/--
A bounded count for cardinality constraints, and the inequality itself for
others.
-/
def Constraint.label (constraint : Constraint) : String :=
  let values := constraint.row.coefficients.values
  if values.all (· = 1) then "Σ ≥ " ++ decimalText (-constraint.row.bias)
  else if values.all (· = -1) then "Σ ≤ " ++ decimalText constraint.row.bias
  else constraint.row.text

namespace Model

/-- The name of the node of the variable at a position. -/
def nodeName (index : Nat) : String :=
  s!"v{index}"

/--
The shape of a variable's node: `plain`, unless the variable is assumed.
-/
def nodeShape
    (model : Model)
    (style : DiagramStyle)
    (plain id : String) :
    String :=
  if id ∈ model.assumed then style.assumedShape else plain

/-- The line of a primitive, up to the opening quote of its label. -/
def primitiveOpening
    (model : Model)
    (style : DiagramStyle)
    (index : Nat)
    (id : String) :
    String :=
  nodeName index ++ " [shape=" ++
    model.nodeShape style style.primitiveShape id ++ ", label="

/-- The line of a primitive. -/
def primitiveLine
    (model : Model)
    (style : DiagramStyle)
    (index : Nat)
    (id : String) :
    String :=
  model.primitiveOpening style index id ++ "\"" ++ labelText id ++ "\"" ++
    "];\n"

/--
The line of an edge from a support to a variable that its constraint
mentions.
-/
def edgeLine
    (style : DiagramStyle)
    (source target : Nat)
    (coefficient : Int) :
    String :=
  let line :=
    if coefficient < 0 then style.negativeEdge else style.positiveEdge
  let label :=
    if coefficient.natAbs = 1 then ""
    else ", label=\"" ++ decimalText coefficient ++ "\""
  nodeName source ++ " -> " ++ nodeName target ++ " [style=" ++ line ++
    label ++ "];\n"

/-- The line of a support and the lines of its edges. -/
def supportLines
    (model : Model)
    (style : DiagramStyle)
    (index : Nat)
    (constraint : Constraint) :
    String :=
  let shape := model.nodeShape style style.supportShape constraint.id
  let start := String.ofList (constraint.id.toList.take style.idLength)
  let edges :=
    constraint.row.coefficients.entries.filterMap
      fun (operand, coefficient) =>
        (model.ids.indexOf? operand).map fun target =>
          edgeLine style index target coefficient
  nodeName index ++ " [shape=" ++ shape ++ ", label=\"" ++ start ++ "\\n" ++
    labelText constraint.label ++ "\"];\n" ++ String.join edges

/-- The model as a graph in the DOT language. -/
def diagram (model : Model) (style : DiagramStyle) : String :=
  let nodes := model.ids.toList.zipIdx
  let primitiveLines := nodes.filterMap fun (id, index) =>
    if model.isSupport id then none
    else some (model.primitiveLine style index id)
  let supportBlocks := nodes.filterMap fun (id, index) =>
    (model.constraint? id).map (model.supportLines style index)
  "digraph \x7b\n" ++ "node [shape=" ++ style.primitiveShape ++ "];\n" ++
    "\x7b rank=sink\n" ++ String.join primitiveLines ++ "\x7d\n" ++
    String.join supportBlocks ++ "\x7d\n"

end Model

end Configurator.Logic
