import Configurator.Logic.Diagram
import Configurator.Proofs.Linear.Point
import Configurator.Proofs.Logic.Run

/-!
# Labels of primitives are read back

A quoted label is read up to the first quote that no backslash has taken.
The label of a primitive is its name with a backslash before every quote and
every backslash, so it is read as the name, and reading stops at the quote
that the diagram puts after the label.  Whatever the names are, the text
outside of the labels is the one of a diagram that leaves its primitives
without names.
-/

namespace Configurator.Logic

open Configurator.Collection Configurator.Linear

/-! ## Reading labels -/

/--
The label at the start of a text and what follows its closing quote: a
backslash takes the next character with it, and the first quote that is not
taken ends the label.
-/
def readLabel : List Char → Option (List Char × List Char)
  | [] => none
  | '"' :: rest => some ([], rest)
  | '\\' :: [] => none
  | '\\' :: taken :: rest =>
      (readLabel rest).map fun (label, after) => (taken :: label, after)
  | character :: rest =>
      (readLabel rest).map fun (label, after) => (character :: label, after)

/-- What follows a label is shorter than the text. -/
theorem length_lt_of_readLabel
    {text label after : List Char}
    (read : readLabel text = some (label, after)) :
    after.length < text.length := by
  fun_induction readLabel text generalizing label with
  | case1 => cases read
  | case2 rest =>
      cases read
      exact Nat.lt_succ_self _
  | case3 => cases read
  | case4 taken rest ih | case5 character rest _ _ _ ih =>
      obtain ⟨⟨shorter, _⟩, found, same⟩ := Option.map_eq_some_iff.1 read
      cases same
      have shortened := ih found
      simp only [List.length_cons]
      omega

/--
A text outside of its labels, of which the quotes are left, and the labels
in order.
-/
def readLabels : List Char → Option (List Char × List String)
  | [] => some ([], [])
  | character :: rest =>
      if character = '"' then
        match _ : readLabel rest with
        | none => none
        | some (label, after) =>
            (readLabels after).map fun (outside, labels) =>
              ('"' :: '"' :: outside, String.ofList label :: labels)
      else (readLabels rest).map fun (outside, labels) =>
        (character :: outside, labels)
termination_by text => text.length
decreasing_by
  · rename_i found
    have shorter := length_lt_of_readLabel found
    simp only [List.length_cons]
    omega
  · simp

/--
Reading the text, whatever comes after it, shows `blank` outside of the
labels and reads these labels.
-/
def Shows (text blank : List Char) (labels : List String) : Prop :=
  ∀ rest,
    readLabels (text ++ rest) =
      (readLabels rest).map fun (outside, later) =>
        (blank ++ outside, labels ++ later)

namespace Shows

theorem nil : Shows [] [] [] := by
  intro rest
  simp

theorem append
    {left right leftBlank rightBlank : List Char}
    {leftLabels rightLabels : List String}
    (first : Shows left leftBlank leftLabels)
    (second : Shows right rightBlank rightLabels) :
    Shows (left ++ right) (leftBlank ++ rightBlank)
      (leftLabels ++ rightLabels) := by
  intro rest
  rw [List.append_assoc, first, second, Option.map_map]
  simp only [Function.comp_def, List.append_assoc]

/-- A text without quotes is shown as it is. -/
theorem plain
    {text : List Char}
    (quoteFree : '"' ∉ text) :
    Shows text text [] := by
  induction text with
  | nil => exact nil
  | cons character text ih =>
      rw [List.mem_cons, not_or] at quoteFree
      intro rest
      have later := ih quoteFree.2 rest
      rw [List.cons_append, readLabels, if_neg (Ne.symm quoteFree.1), later,
        Option.map_map]
      rfl

end Shows

/-! ## Escaped labels -/

/-- The text with a backslash before every occurrence of a character. -/
def preceded (special : Char) (text : List Char) : List Char :=
  text.flatMap fun character =>
    if character = special then ['\\', character] else [character]

/--
Backslashes are preceded first, so that those before quotes stay single.
-/
theorem labelText_eq_preceded
    (text : String) :
    labelText text =
      String.ofList (preceded '"' (preceded '\\' text.toList)) := by
  rw [labelText, preceded, preceded, List.flatMap_assoc]
  congr 2
  funext character
  by_cases backslash : character = '\\'
  · subst backslash
    rfl
  · rw [if_neg backslash, labelCharacter]
    simp [backslash]

/-- A character of a label is read as itself. -/
theorem readLabel_labelCharacter
    (character : Char)
    (rest : List Char) :
    readLabel (labelCharacter character ++ rest) =
      (readLabel rest).map fun (label, after) =>
        (character :: label, after) := by
  by_cases special : character = '\\' ∨ character = '"'
  · rw [labelCharacter, if_pos special]
    rcases special with rfl | rfl
    · rfl
    · rfl
  · rw [labelCharacter, if_neg special]
    rw [not_or] at special
    simp [readLabel, special.1, special.2]

/-- A label is read back, up to the quote after it. -/
theorem readLabel_labelText
    (text : String)
    (after : List Char) :
    readLabel ((labelText text).toList ++ '"' :: after) =
      some (text.toList, after) := by
  rw [labelText, String.toList_ofList]
  induction text.toList with
  | nil => rfl
  | cons character rest ih =>
      rw [List.flatMap_cons, List.append_assoc, readLabel_labelCharacter,
        ih]
      rfl

/-- Different texts have different labels. -/
theorem labelText_injective : Function.Injective labelText := by
  intro left right same
  have read := readLabel_labelText left []
  rw [same, readLabel_labelText] at read
  exact String.toList_injective
    (congrArg Prod.fst (Option.some.inj read)).symm

/-- A label between its quotes. -/
def quotedLabel (text : String) : List Char :=
  '"' :: ((labelText text).toList ++ ['"'])

theorem shows_quotedLabel
    (text : String) :
    Shows (quotedLabel text) ['"', '"'] [text] := by
  intro rest
  have read := readLabel_labelText text rest
  rw [quotedLabel, List.cons_append, List.append_assoc, List.cons_append,
    List.nil_append, readLabels, if_pos rfl]
  split
  · rename_i failed
    rw [read] at failed
    cases failed
  · rename_i label after found
    rw [read] at found
    cases found
    rw [String.ofList_toList]
    rfl

/-! ## The lines of the primitives -/

namespace Model

/-- The line of a primitive, with an empty label. -/
def blankLine
    (model : Model)
    (style : DiagramStyle)
    (index : Nat)
    (id : String) :
    String :=
  model.primitiveOpening style index id ++ "\"\"];\n"

/-- What a diagram starts with before its primitives. -/
def header (style : DiagramStyle) : String :=
  "digraph \x7b\n" ++ "node [shape=" ++ style.primitiveShape ++ "];\n" ++
    "\x7b rank=sink\n"

/-- The variables with the indices of their nodes. -/
def nodes (model : Model) : List (String × Nat) :=
  model.ids.toList.zipIdx

/-- The lines of the primitives among the nodes, each with its index. -/
def primitiveLines
    (model : Model)
    (line : Nat → String → String)
    (nodes : List (String × Nat)) :
    List String :=
  nodes.filterMap fun (id, index) =>
    if model.isSupport id then none else some (line index id)

/--
A diagram up to the last of some nodes, with the given lines of the
primitives.
-/
def primitiveBlock
    (model : Model)
    (style : DiagramStyle)
    (line : Nat → String → String)
    (nodes : List (String × Nat)) :
    List Char :=
  (header style).toList ++
    (model.primitiveLines line nodes).flatMap String.toList

variable {model : Model} {style : DiagramStyle}

/-- The header and the lines of the primitives start the diagram. -/
theorem exists_diagram_eq
    (model : Model)
    (style : DiagramStyle) :
    ∃ rest,
      (model.diagram style).toList =
        model.primitiveBlock style (model.primitiveLine style)
          model.nodes ++ rest := by
  have parts :
      ∃ rest,
        model.diagram style =
          header style ++
            String.join
              (model.primitiveLines (model.primitiveLine style)
                model.nodes) ++ rest := by
    refine ⟨"\x7d\n" ++
      String.join (model.ids.toList.zipIdx.filterMap fun (id, index) =>
        (model.constraint? id).map (model.supportLines style index)) ++
          "\x7d\n", ?_⟩
    rw [← String.append_assoc, ← String.append_assoc]
    rfl
  obtain ⟨rest, drawn⟩ := parts
  refine ⟨rest.toList, ?_⟩
  rw [drawn, String.toList_append, String.toList_append, String.toList_join,
    primitiveBlock]

/--
The line of a primitive follows the lines of the primitives before it.
-/
theorem primitiveBlock_append_cons
    {id : String}
    (noSupport : model.isSupport id = false)
    (line : Nat → String → String)
    (index : Nat)
    (earlier later : List (String × Nat)) :
    model.primitiveBlock style line (earlier ++ (id, index) :: later) =
      model.primitiveBlock style line earlier ++ (line index id).toList ++
        (model.primitiveLines line later).flatMap String.toList := by
  simp [primitiveBlock, primitiveLines, noSupport]

theorem toList_primitiveLine
    (model : Model)
    (style : DiagramStyle)
    (index : Nat)
    (id : String) :
    (model.primitiveLine style index id).toList =
      (model.primitiveOpening style index id).toList ++ quotedLabel id ++
        "];\n".toList := by
  simp only [primitiveLine, quotedLabel, String.toList_append]
  simp

/-- A style without quotes puts none before the label of a primitive. -/
theorem quote_notMem_primitiveOpening
    (model : Model)
    (plainShape : '"' ∉ style.primitiveShape.toList)
    (assumedShape : '"' ∉ style.assumedShape.toList)
    (index : Nat)
    (id : String) :
    '"' ∉ (model.primitiveOpening style index id).toList := by
  have number : '"' ∉ (nodeName index).toList := by
    have written :
        (nodeName index).toList = 'v' :: Nat.toDigits 10 index := by
      simp only [nodeName, String.toList_append, Nat.toString_eq_repr,
        Nat.toList_repr]
      rfl
    rw [written, List.mem_cons, not_or]
    refine ⟨by decide, fun member => ?_⟩
    have digit := Nat.isDigit_of_mem_toDigits (by decide) (by decide) member
    revert digit
    decide
  have shape :
      '"' ∉ (model.nodeShape style style.primitiveShape id).toList := by
    rw [nodeShape]
    split
    · exact assumedShape
    · exact plainShape
  simp only [primitiveOpening, String.toList_append, List.mem_append,
    not_or]
  exact ⟨⟨⟨number, by decide⟩, shape⟩, by decide⟩

/-- The line of a primitive shows an empty label and is read as the name. -/
theorem shows_primitiveLine
    (model : Model)
    (plainShape : '"' ∉ style.primitiveShape.toList)
    (assumedShape : '"' ∉ style.assumedShape.toList)
    (index : Nat)
    (id : String) :
    Shows (model.primitiveLine style index id).toList
      (model.blankLine style index id).toList [id] := by
  have opening := Shows.plain
    (quote_notMem_primitiveOpening model plainShape assumedShape index id)
  have closing : Shows "];\n".toList "];\n".toList [] :=
    Shows.plain (by decide)
  have shown := (opening.append (shows_quotedLabel id)).append closing
  rw [toList_primitiveLine, blankLine]
  simpa using shown

private theorem shows_lines
    (model : Model)
    (plainShape : '"' ∉ style.primitiveShape.toList)
    (assumedShape : '"' ∉ style.assumedShape.toList)
    (nodes : List (String × Nat)) :
    Shows
      ((model.primitiveLines (model.primitiveLine style) nodes).flatMap
        String.toList)
      ((model.primitiveLines (model.blankLine style) nodes).flatMap
        String.toList)
      ((nodes.map Prod.fst).filter fun id => !model.isSupport id) := by
  induction nodes with
  | nil => exact Shows.nil
  | cons node rest ih =>
      obtain ⟨id, index⟩ := node
      by_cases support : model.isSupport id = true
      · simpa [primitiveLines, support] using ih
      · have line :=
          shows_primitiveLine model plainShape assumedShape index id
        simpa [primitiveLines, support] using line.append ih

/--
The block of the primitives shows empty labels and is read as the names in
order.
-/
theorem shows_primitiveBlock
    (model : Model)
    (plainShape : '"' ∉ style.primitiveShape.toList)
    (assumedShape : '"' ∉ style.assumedShape.toList) :
    Shows
      (model.primitiveBlock style (model.primitiveLine style) model.nodes)
      (model.primitiveBlock style (model.blankLine style) model.nodes)
      model.primitives := by
  have start : '"' ∉ (header style).toList := by
    simp only [header, String.toList_append, List.mem_append, not_or]
    exact ⟨⟨⟨⟨by decide, by decide⟩, plainShape⟩, by decide⟩, by decide⟩
  have shown := (Shows.plain start).append
    (shows_lines model plainShape assumedShape model.nodes)
  rwa [nodes, List.zipIdx_map_fst] at shown

/--
The label of a primitive stands between its opening and the end of its line.
-/
theorem exists_label
    (style : DiagramStyle)
    {id : String}
    (primitive : id ∈ model.primitives) :
    ∃ index after,
      model.ids.indexOf? id = some index ∧
      (model.diagram style).toList =
        model.primitiveBlock style (model.primitiveLine style)
          (model.nodes.take index) ++
          (model.primitiveOpening style index id).toList ++
          '"' ::
            ((labelText id).toList ++ '"' :: ("];\n".toList ++ after)) := by
  obtain ⟨known, noSupport⟩ := List.mem_filter.1 primitive
  obtain ⟨index, position, here⟩ := indexOf?_of_mem known
  rw [Bool.not_eq_true'] at noSupport
  have node : model.nodes[index]? = some (id, index) := by
    rw [nodes, List.getElem?_zipIdx, here]
    simp
  have split :
      model.nodes =
        model.nodes.take index ++
          (id, index) :: model.nodes.drop (index + 1) := by
    conv_lhs => rw [← List.take_append_drop index model.nodes,
      List.drop_eq_getElem?_toList_append, node]
    rfl
  obtain ⟨rest, drawn⟩ := exists_diagram_eq model style
  refine ⟨index,
    (model.primitiveLines (model.primitiveLine style)
      (model.nodes.drop (index + 1))).flatMap String.toList ++ rest,
    position, ?_⟩
  rw [drawn]
  conv_lhs => rw [split]
  rw [primitiveBlock_append_cons noSupport, toList_primitiveLine,
    quotedLabel]
  simp only [List.append_assoc, List.cons_append, List.nil_append]

/--
Labels of primitives cannot be broken.  A label is the name with all
backslashes doubled and then a backslash before every quote.  The diagram of
a model has the label of a primitive between two quotes, after the opening
of its line and before the end of it.  From the opening quote on the label
is read as the name, up to exactly the closing quote, and outside of it
nothing but the two quotes is left.  So different primitives have different
labels.  Unless the style has quotes of its own, the text outside of the
labels of all primitives is the one of empty labels, whatever the names are,
and the labels are the primitives in order.
-/
theorem labels_unbroken
    (model : Model)
    (style : DiagramStyle) :
    (∀ id ∈ model.primitives,
      labelText id =
        String.ofList (preceded '"' (preceded '\\' id.toList)) ∧
      Shows (quotedLabel id) ['"', '"'] [id] ∧
      ∃ index after,
        model.ids.indexOf? id = some index ∧
        (model.diagram style).toList =
          model.primitiveBlock style (model.primitiveLine style)
            (model.nodes.take index) ++
            (model.primitiveOpening style index id).toList ++
            '"' ::
              ((labelText id).toList ++ '"' :: ("];\n".toList ++ after)) ∧
        readLabel
            ((labelText id).toList ++ '"' :: ("];\n".toList ++ after)) =
          some (id.toList, "];\n".toList ++ after)) ∧
    (∀ id ∈ model.primitives, ∀ other ∈ model.primitives,
      id ≠ other → labelText id ≠ labelText other) ∧
    ('"' ∉ style.primitiveShape.toList →
      '"' ∉ style.assumedShape.toList →
      ∃ rest,
        (model.diagram style).toList =
          model.primitiveBlock style (model.primitiveLine style)
            model.nodes ++ rest ∧
        Shows
          (model.primitiveBlock style (model.primitiveLine style)
            model.nodes)
          (model.primitiveBlock style (model.blankLine style) model.nodes)
          model.primitives) := by
  refine ⟨?labels, ?distinct, ?block⟩
  case labels =>
    intro id primitive
    obtain ⟨index, after, position, drawn⟩ := exists_label style primitive
    exact ⟨labelText_eq_preceded id, shows_quotedLabel id, index, after,
      position, drawn, readLabel_labelText id _⟩
  case distinct =>
    intro id _ other _ different same
    exact different (labelText_injective same)
  case block =>
    intro plainShape assumedShape
    obtain ⟨rest, drawn⟩ := exists_diagram_eq model style
    exact ⟨rest, drawn, shows_primitiveBlock model plainShape assumedShape⟩

/--
Names that end like a line, start a statement, or hold nothing but escapes.
-/
def hostile : Model :=
  empty.run
    [.addPrimitives ["\"];\nv9 [label=\"", "\\", "\\\""],
      .set .negation ["\\"], .assume ["\\"]]

/--
Nothing of the names is left outside of their labels, and all of them are
read back.
-/
theorem labels_unbroken_hostile :
    hostile.primitives = ["\"];\nv9 [label=\"", "\\", "\\\""] ∧
    (∃ after,
      (hostile.diagram {}).toList =
        hostile.primitiveBlock {} (hostile.primitiveLine {})
          (hostile.nodes.take 2) ++ "v2 [shape=ellipse, label=".toList ++
          '"' :: ("\\\\\\\"".toList ++ '"' :: ("];\n".toList ++ after))) ∧
    labelText "\\" ≠ labelText "\\\"" ∧
    readLabels
        (hostile.primitiveBlock {} (hostile.primitiveLine {})
          hostile.nodes) =
      some
        (("digraph \x7b\nnode [shape=ellipse];\n\x7b rank=sink\n" ++
           "v0 [shape=ellipse, label=\"\"];\n" ++
           "v1 [shape=doubleoctagon, label=\"\"];\n" ++
           "v2 [shape=ellipse, label=\"\"];\n").toList,
          ["\"];\nv9 [label=\"", "\\", "\\\""]) := by
  have names :
      hostile.primitives = ["\"];\nv9 [label=\"", "\\", "\\\""] := by
    decide +kernel
  have member : "\\\"" ∈ hostile.primitives := by decide +kernel
  have other : "\\" ∈ hostile.primitives := by decide +kernel
  have unbroken := labels_unbroken hostile {}
  refine ⟨names, ?_, unbroken.2.1 _ other _ member (by decide), ?_⟩
  · obtain ⟨_, _, index, after, position, drawn, _⟩ := unbroken.1 _ member
    have last : hostile.ids.indexOf? "\\\"" = some 2 := by decide +kernel
    have opening :
        hostile.primitiveOpening {} 2 "\\\"" =
          "v2 [shape=ellipse, label=" := by
      decide +kernel
    have label : labelText "\\\"" = "\\\\\\\"" := by decide +kernel
    rw [last] at position
    cases position
    rw [opening, label] at drawn
    exact ⟨after, drawn⟩
  · obtain ⟨_, _, shown⟩ := unbroken.2.2 (by decide) (by decide)
    have blank :
        hostile.primitiveBlock {} (hostile.blankLine {}) hostile.nodes =
          ("digraph \x7b\nnode [shape=ellipse];\n\x7b rank=sink\n" ++
            "v0 [shape=ellipse, label=\"\"];\n" ++
            "v1 [shape=doubleoctagon, label=\"\"];\n" ++
            "v2 [shape=ellipse, label=\"\"];\n").toList := by
      decide +kernel
    have read := shown []
    rw [List.append_nil, readLabels, Option.map_some, blank, names] at read
    simpa only [List.append_nil] using read

end Model

end Configurator.Logic
