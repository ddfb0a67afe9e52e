import Configurator.Proofs.Json.Strings
import Configurator.Proofs.Text.Digits

/-!
# Written values are read back

A value whose numbers are whole and whose texts can all be read is plain.
The reader undoes the writer on plain values: what it takes off the front of
a text is the written value, as long as the text goes on with a mark between
values or ends.  The reader never needs more steps than the value has
characters.
-/

namespace Configurator.Json

open Configurator.Text

/-- A value as it is written for persistent types. -/
inductive Value.Plain : Value → Prop where
  | null : Plain .null
  | boolean (value : Bool) : Plain (.boolean value)
  | integer (number : Int) : Plain (.integer number)
  | text (content : String) : Plain (.text content)
  | array (items : List Value) (plain : ∀ item ∈ items, Plain item) :
    Plain (.array items)
  | object (members : List (String × Value))
    (plain : ∀ member ∈ members, Plain member.2) :
    Plain (.object members)

/-- The text ends or goes on with a mark that follows a value. -/
def Ends (rest : List Char) : Prop :=
  ∀ character ∈ rest.head?,
    character = ',' ∨ character = ']' ∨ character = '\x7d'

theorem ends_nil : Ends [] := by
  intro character member
  cases member

theorem ends_cons
    {mark : Char}
    (separates : mark = ',' ∨ mark = ']' ∨ mark = '\x7d')
    (rest : List Char) :
    Ends (mark :: rest) := by
  intro character member
  cases member
  exact separates

theorem Ends.endsDigits
    {rest : List Char}
    (ends : Ends rest) :
    EndsDigits rest := by
  intro character member
  rcases ends character member with rfl | rfl | rfl
  all_goals rfl

/-! ## Numerals -/

/-- The digits of a number are read as the whole part of a numeral. -/
theorem readWhole_decimalDigits
    (number : Nat)
    {rest : List Char}
    (ends : EndsDigits rest) :
    readWhole (decimalDigits number ++ rest) = some (number, rest) := by
  by_cases zero : number = 0
  · subst zero
    rfl
  · have spanned :
        spanDigits (decimalDigits number ++ rest) =
          (decimalDigits number, rest) := by
      rw [spanDigits,
        takeWhile_digits (allDigits_decimalDigits number) ends,
        dropWhile_digits (allDigits_decimalDigits number) ends]
    rcases List.exists_cons_of_ne_nil (decimalDigits_ne_nil number) with
      ⟨first, digits, spelled⟩
    have leading := head?_decimalDigits_ne_zero zero
    rw [spelled] at leading
    rw [readWhole, spanned]
    · simp [decimalDigits_ne_nil]
    · intro others starts
      rw [spelled, List.cons_append] at starts
      cases starts
      exact leading rfl

theorem readFraction_of_ends
    {rest : List Char}
    (ends : Ends rest) :
    readFraction rest = some ([], rest) := by
  rw [readFraction.eq_def]
  split
  · have point := ends '.' rfl
    simp at point
  · rfl

theorem readExponent_of_ends
    {rest : List Char}
    (ends : Ends rest) :
    readExponent rest = some (none, rest) := by
  rw [readExponent.eq_def]
  split
  · have letter := ends 'e' rfl
    simp at letter
  · have letter := ends 'E' rfl
    simp at letter
  · rfl

theorem readUnsigned_decimalDigits
    (negative : Bool)
    (number : Nat)
    {rest : List Char}
    (ends : Ends rest) :
    readUnsigned negative (decimalDigits number ++ rest) =
      some (⟨negative, number, [], none⟩, rest) := by
  rw [readUnsigned, readWhole_decimalDigits number ends.endsDigits]
  show (readFraction rest >>= _) = _
  rw [readFraction_of_ends ends]
  show (readExponent rest >>= _) = _
  rw [readExponent_of_ends ends]
  rfl

theorem characters_ofInt
    (number : Int) :
    (Numeral.ofInt number).characters =
      if number < 0 then '-' :: decimalDigits number.natAbs
      else decimalDigits number.natAbs := by
  simp only [Numeral.ofInt, Numeral.characters]
  by_cases negative : number < 0
  · simp [negative]
  · simp [negative]

/-- The numeral of a whole number starts with a minus sign or a digit. -/
theorem head_ofInt
    (number : Int) :
    ∃ first rest,
      (Numeral.ofInt number).characters = first :: rest ∧
      (first = '-' ∨ isDigit first = true) := by
  rw [characters_ofInt]
  split
  · exact ⟨_, _, rfl, Or.inl rfl⟩
  · obtain ⟨first, digits, spelled, digit⟩ :=
      (allDigits_decimalDigits number.natAbs).exists_cons
        (decimalDigits_ne_nil _)
    exact ⟨first, digits, spelled, Or.inr digit⟩

/-- The numeral of a whole number is read back. -/
theorem readNumeral_ofInt
    (number : Int)
    {rest : List Char}
    (ends : Ends rest) :
    readNumeral ((Numeral.ofInt number).characters ++ rest) =
      some (Numeral.ofInt number, rest) := by
  rw [characters_ofInt]
  by_cases negative : number < 0
  · rw [if_pos negative, List.cons_append, readNumeral,
      readUnsigned_decimalDigits true number.natAbs ends]
    simp [Numeral.ofInt, negative]
  · rw [if_neg negative, readNumeral,
      readUnsigned_decimalDigits false number.natAbs ends]
    · simp [Numeral.ofInt, negative]
    · intro others starts
      obtain ⟨first, digits, spelled, digit⟩ :=
        (allDigits_decimalDigits number.natAbs).exists_cons
          (decimalDigits_ne_nil _)
      rw [spelled, List.cons_append] at starts
      cases starts
      cases digit

/-! ## The start of a value -/

/--
The text starts with a character that a blank or a closing bracket is not.
-/
def Starts (text : List Char) : Prop :=
  ∃ first rest, text = first :: rest ∧ isSpace first = false ∧ first ≠ ']'

theorem Starts.append
    {text : List Char}
    (starts : Starts text)
    (rest : List Char) :
    Starts (text ++ rest) := by
  rcases starts with ⟨first, others, rfl, visible, open_⟩
  exact ⟨first, others ++ rest, rfl, visible, open_⟩

theorem Starts.skipSpace_eq
    {text : List Char}
    (starts : Starts text) :
    skipSpace text = text := by
  rcases starts with ⟨first, rest, rfl, visible, _⟩
  exact List.dropWhile_cons_of_neg (by simp [visible])

/-- Digits and the minus sign are no blanks and no brackets. -/
private theorem visible_of_numeral
    {first : Char}
    (numeral : first = '-' ∨ isDigit first = true) :
    isSpace first = false ∧ first ≠ ']' := by
  rcases numeral with rfl | digit
  · exact ⟨rfl, by decide⟩
  · constructor
    · simp only [isSpace, Bool.or_eq_false_iff, beq_eq_false_iff_ne]
      refine ⟨⟨⟨?_, ?_⟩, ?_⟩, ?_⟩
      all_goals
        rintro rfl
        cases digit
    · rintro rfl
      cases digit

theorem Value.Plain.starts
    {value : Value}
    (plain : value.Plain) :
    Starts value.characters := by
  cases plain with
  | null => exact ⟨_, _, rfl, rfl, by decide⟩
  | boolean value =>
      cases value
      · exact ⟨_, _, rfl, rfl, by decide⟩
      · exact ⟨_, _, rfl, rfl, by decide⟩
  | integer number =>
      obtain ⟨first, rest, spelled, numeral⟩ := head_ofInt number
      exact ⟨first, rest, spelled, visible_of_numeral numeral⟩
  | text content => exact ⟨_, _, rfl, rfl, by decide⟩
  | array items _ => exact ⟨_, _, rfl, rfl, by decide⟩
  | object members _ => exact ⟨_, _, rfl, rfl, by decide⟩

/-! ## Values -/

/-- The value is read back in as many steps as it has characters. -/
def ReadBack (value : Value) : Prop :=
  ∀ steps rest, Ends rest → value.characters.length ≤ steps →
    readValue steps (value.characters ++ rest) = some (value, rest)

theorem readValue_integer
    (number : Int) :
    ReadBack (Value.integer number) := by
  intro steps rest ends enough
  obtain ⟨first, others, spelled, numeral⟩ := head_ofInt number
  have read := readNumeral_ofInt number ends
  have visible := visible_of_numeral numeral
  simp only [Value.integer, Value.characters] at enough ⊢
  rw [spelled] at enough read ⊢
  obtain ⟨steps, rfl⟩ := Nat.exists_eq_succ_of_ne_zero (show steps ≠ 0 by
    rw [List.length_cons] at enough
    omega)
  rw [List.cons_append] at read ⊢
  have kept :
      skipSpace (first :: (others ++ rest)) = first :: (others ++ rest) :=
    Starts.skipSpace_eq ⟨_, _, rfl, visible⟩
  rw [readValue, kept]
  split
  case h_7 => rw [read]
  all_goals
    rename_i shape
    rw [(List.cons.inj shape).1] at numeral
    rcases numeral with minus | digit
    · cases minus
    · cases digit

/-- A bracket or a quotation mark is no blank. -/
private theorem skipSpace_cons
    {first : Char}
    (visible : isSpace first = false)
    (rest : List Char) :
    skipSpace (first :: rest) = first :: rest :=
  List.dropWhile_cons_of_neg (by simp [visible])

private theorem itemCharacters_cons
    (item second : Value)
    (others : List Value) :
    Value.itemCharacters (item :: second :: others) =
      item.characters ++ ',' :: Value.itemCharacters (second :: others) :=
  rfl

private theorem memberCharacters_cons
    (name : String)
    (value : Value)
    (second : String × Value)
    (others : List (String × Value)) :
    Value.memberCharacters ((name, value) :: second :: others) =
      quotedCharacters name ++
        ':' ::
          (value.characters ++
            ',' :: Value.memberCharacters (second :: others)) :=
  rfl

/-- Written items are read up to the closing bracket. -/
theorem readItems_characters
    {items : List Value}
    (nonempty : items ≠ [])
    (back : ∀ item ∈ items, ReadBack item)
    (reversed : List Value)
    (steps : Nat)
    (rest : List Char)
    (enough : (Value.itemCharacters items).length + 1 ≤ steps) :
    readItems steps reversed (Value.itemCharacters items ++ ']' :: rest) =
      some (.array (reversed.reverse ++ items), rest) := by
  induction items generalizing reversed steps with
  | nil => exact absurd rfl nonempty
  | cons item others ih =>
      obtain ⟨steps, rfl⟩ :=
        Nat.exists_eq_add_of_le' (Nat.le_of_add_left_le enough)
      rw [List.forall_mem_cons] at back
      rw [readItems]
      cases others with
      | nil =>
          rw [Value.itemCharacters] at enough ⊢
          rw [back.1 steps _ (ends_cons (by decide) rest) (by omega)]
          dsimp only
          rw [skipSpace_cons rfl]
          simp
      | cons second others =>
          rw [itemCharacters_cons] at enough ⊢
          rw [List.length_append, List.length_cons] at enough
          rw [List.append_assoc, List.cons_append,
            back.1 steps _ (ends_cons (by decide) _) (by omega)]
          dsimp only
          rw [skipSpace_cons rfl]
          refine (ih (List.cons_ne_nil _ _) back.2 (item :: reversed) steps
                   (by omega)).trans ?_
          simp

/--
The members behind a comma, or the object that a closing brace completes.
-/
private def continueMembers
    (steps : Nat)
    (reversed : List (List Piece × Value)) :
    List Char → Option (Value × List Char)
  | ',' :: rest => readMembers steps reversed rest
  | '\x7d' :: rest => some (Value.ofMembers reversed, rest)
  | _ => none

/-- One written member is read before what follows it. -/
private theorem readMembers_member
    {name : String}
    {value : Value}
    (back : ReadBack value)
    (reversed : List (List Piece × Value))
    {steps : Nat}
    {rest : List Char}
    (ends : Ends rest)
    (enough : value.characters.length ≤ steps) :
    readMembers (steps + 1) reversed
        (quotedCharacters name ++ ':' :: (value.characters ++ rest)) =
      continueMembers steps ((piecesOf name, value) :: reversed)
        (skipSpace rest) := by
  have pieces := readPieces_text name (':' :: (value.characters ++ rest))
  have read := back steps rest ends enough
  have colon : skipSpace (':' :: (value.characters ++ rest)) =
      ':' :: (value.characters ++ rest) := skipSpace_cons rfl _
  simp only [quotedCharacters, List.cons_append, List.append_assoc,
    List.nil_append]
  rw [readMembers, skipSpace_cons rfl]
  simp only [pieces, colon, read]
  rfl

/-- Written members are read up to the closing brace. -/
theorem readMembers_characters
    {members : List (String × Value)}
    (nonempty : members ≠ [])
    (back : ∀ member ∈ members, ReadBack member.2)
    (reversed : List (List Piece × Value))
    (steps : Nat)
    (rest : List Char)
    (enough : (Value.memberCharacters members).length + 1 ≤ steps) :
    readMembers steps reversed
        (Value.memberCharacters members ++ '\x7d' :: rest) =
      some
        (Value.ofMembers
          ((members.map fun member =>
              (piecesOf member.1, member.2)).reverse ++
            reversed), rest) := by
  induction members generalizing reversed steps with
  | nil => exact absurd rfl nonempty
  | cons member others ih =>
      obtain ⟨steps, rfl⟩ :=
        Nat.exists_eq_add_of_le' (Nat.le_of_add_left_le enough)
      rw [List.forall_mem_cons] at back
      rcases member with ⟨name, value⟩
      have here : ReadBack value := back.1
      cases others with
      | nil =>
          rw [Value.memberCharacters] at enough ⊢
          rw [List.length_append, List.length_cons] at enough
          rw [List.append_assoc, List.cons_append,
            readMembers_member here reversed (ends_cons (by decide) rest)
              (by omega), skipSpace_cons rfl]
          simp [continueMembers]
      | cons second others =>
          rw [memberCharacters_cons] at enough ⊢
          simp only [List.length_append, List.length_cons] at enough
          rw [List.append_assoc, List.cons_append, List.append_assoc,
            List.cons_append,
            readMembers_member here reversed (ends_cons (by decide) _)
              (by omega), skipSpace_cons rfl]
          refine (ih (List.cons_ne_nil _ _) back.2
                   ((piecesOf name, value) :: reversed) steps
                   (by omega)).trans ?_
          simp

/-- Members whose names come as pieces are those of the written object. -/
theorem ofMembers_pieces
    (members : List (String × Value)) :
    Value.ofMembers
        (members.map fun member => (piecesOf member.1, member.2)).reverse =
      .object members := by
  have named :
      (members.map fun member => (piecesOf member.1, member.2)).mapM
          (fun member : List Piece × Value =>
            (textOf? member.1).map (·, member.2)) =
        some members := by
    induction members with
    | nil => rfl
    | cons member others ih =>
        rw [List.map_cons, List.mapM_cons, ih]
        simp
  rw [Value.ofMembers, List.reverse_reverse]
  rw [named]

/-- The items of an array start like their first one. -/
private theorem starts_items
    {item : Value}
    (starts : Starts item.characters)
    (others : List Value) :
    Starts (Value.itemCharacters (item :: others)) := by
  cases others with
  | nil => exact starts
  | cons second others => exact starts.append _

/-- What is read behind an opening bracket. -/
private def readArray
    (steps : Nat)
    (text : List Char) :
    Option (Value × List Char) :=
  match skipSpace text with
  | ']' :: rest => some (.array [], rest)
  | _ => readItems steps [] text

/-- What is read behind an opening brace. -/
private def readObject
    (steps : Nat)
    (text : List Char) :
    Option (Value × List Char) :=
  match skipSpace text with
  | '\x7d' :: rest => some (.object [], rest)
  | _ => readMembers steps [] text

/-- A written array is read back if its items are. -/
theorem readBack_array
    {items : List Value}
    (plain : ∀ item ∈ items, item.Plain)
    (back : ∀ item ∈ items, ReadBack item) :
    ReadBack (.array items) := by
  intro steps rest _ enough
  rw [Value.characters, List.length_cons, List.length_append,
    List.length_singleton] at enough
  obtain ⟨steps, rfl⟩ :=
    Nat.exists_eq_add_of_le' (Nat.le_of_add_left_le enough)
  rw [Value.characters, List.cons_append, List.append_assoc,
    List.singleton_append, readValue, skipSpace_cons rfl]
  cases items with
  | nil => rfl
  | cons item others =>
      have starts :=
        starts_items (plain item List.mem_cons_self).starts others
      have read :=
        readItems_characters (List.cons_ne_nil item others) back [] steps
          rest (by omega)
      obtain ⟨first, tail, spelled, visible, unclosed⟩ :=
        starts.append (']' :: rest)
      rw [spelled] at read ⊢
      show readArray steps (first :: tail) = _
      rw [readArray, skipSpace_cons visible]
      split
      · rename_i shape
        exact absurd (List.cons.inj shape).1 unclosed
      · exact read

/-- A written object is read back if the values of its members are. -/
theorem readBack_object
    {members : List (String × Value)}
    (back : ∀ member ∈ members, ReadBack member.2) :
    ReadBack (.object members) := by
  intro steps rest _ enough
  rw [Value.characters, List.length_cons, List.length_append,
    List.length_singleton] at enough
  obtain ⟨steps, rfl⟩ :=
    Nat.exists_eq_add_of_le' (Nat.le_of_add_left_le enough)
  rw [Value.characters, List.cons_append, List.append_assoc,
    List.singleton_append, readValue, skipSpace_cons rfl]
  cases members with
  | nil => rfl
  | cons member others =>
      have read :=
        readMembers_characters (List.cons_ne_nil member others) back []
          steps rest (by omega)
      rw [List.append_nil, ofMembers_pieces] at read
      have quoted :
          ∃ tail,
            Value.memberCharacters (member :: others) ++ '\x7d' :: rest =
              '"' :: tail := by
        rcases member with ⟨name, value⟩
        cases others with
        | nil => exact ⟨_, rfl⟩
        | cons second others => exact ⟨_, rfl⟩
      obtain ⟨tail, spelled⟩ := quoted
      rw [spelled] at read ⊢
      show readObject steps ('"' :: tail) = _
      rw [readObject, skipSpace_cons rfl]
      exact read

/-- Every plain value is read back. -/
theorem Value.Plain.readBack
    {value : Value}
    (plain : value.Plain) :
    ReadBack value := by
  induction plain with
  | null =>
      intro steps rest _ enough
      obtain ⟨steps, rfl⟩ :=
        Nat.exists_eq_add_of_le' (Nat.le_of_succ_le enough)
      rfl
  | boolean value =>
      intro steps rest _ enough
      cases value
      · obtain ⟨steps, rfl⟩ :=
          Nat.exists_eq_add_of_le' (Nat.le_of_succ_le enough)
        rfl
      · obtain ⟨steps, rfl⟩ :=
          Nat.exists_eq_add_of_le' (Nat.le_of_succ_le enough)
        rfl
  | integer number => exact readValue_integer number
  | text content =>
      intro steps rest _ enough
      rw [Value.characters, quotedCharacters, List.length_cons] at enough
      obtain ⟨steps, rfl⟩ :=
        Nat.exists_eq_add_of_le' (Nat.le_of_add_left_le enough)
      rw [Value.characters, quotedCharacters, List.cons_append,
        List.append_assoc, List.singleton_append, readValue,
        skipSpace_cons rfl]
      simp only [readPieces_text, Value.ofPieces, textOf?_piecesOf]
  | array items plain back => exact readBack_array plain back
  | object members _ back => exact readBack_object back

/-- The value of a rendered text is the plain value that was rendered. -/
theorem Value.ofText?_render
    {value : Value}
    (plain : value.Plain) :
    Value.ofText? value.render = some value := by
  have read :=
    plain.readBack (value.characters.length + 1) [] ends_nil (by omega)
  rw [List.append_nil] at read
  simp only [Value.ofText?, Value.render, String.toList_ofList, read]
  rfl

end Configurator.Json
