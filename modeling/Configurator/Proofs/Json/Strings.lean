import Configurator.Json.Reader

/-!
# Written texts are read back

A character between quotation marks is read as one piece: a plain character,
or the code unit of a control character that has no letter.  The pieces of a
text stand for its characters again, because no control character is a
surrogate.
-/

namespace Configurator.Json

open Configurator.Text

/-- The characters that are escaped by a letter. -/
def letterEscaped : List Char :=
  ['"', '\\', '\x08', '\t', '\n', '\x0c', '\r']

/-- The piece as which a written character is read. -/
def pieceOf (character : Char) : Piece :=
  if character.toNat < 32 ∧ character ∉ letterEscaped then
    .unit character.toNat
  else .plain character

/-- The pieces as which a written text is read. -/
def piecesOf (text : String) : List Piece :=
  text.toList.map pieceOf

/-- The four digits of a code unit below 256 are read as this unit. -/
theorem codeUnit?_low
    {code : Nat}
    (small : code < 256) :
    codeUnit? '0' '0' (hexDigit (code / 16)) (hexDigit (code % 16)) =
      some code := by
  have zero : hexValue? '0' = some 0 :=
    hexValue?_hexDigit (show 0 < 16 by decide)
  have high := hexValue?_hexDigit (show code / 16 < 16 by omega)
  have low := hexValue?_hexDigit (show code % 16 < 16 by omega)
  have value :
      (0 * 16 + 0) * 256 + (code / 16 * 16 + code % 16) = code := by
    omega
  rw [codeUnit?, zero, high, low]
  exact congrArg some value

/-- A character that needs no escape is read as itself. -/
theorem readPieces_plain
    {character : Char}
    (reversed : List Piece)
    (rest : List Char)
    (quote : character ≠ '"')
    (backslash : character ≠ '\\')
    (visible : 32 ≤ character.toNat) :
    readPieces reversed (character :: rest) =
      readPieces (.plain character :: reversed) rest := by
  rw [readPieces.eq_def]
  split
  · rename_i shape
    cases shape
  · rename_i shape
    cases shape
    exact absurd rfl quote
  · rename_i shape
    cases shape
    exact absurd rfl backslash
  · rename_i shape
    cases shape
    exact absurd rfl backslash
  · rename_i shape
    cases shape
    exact if_neg (not_or.2 ⟨backslash, Nat.not_lt.2 visible⟩)

/-- Every written character is read as its piece. -/
theorem readPieces_escapeCharacter
    (reversed : List Piece)
    (character : Char)
    (rest : List Char) :
    readPieces reversed (escapeCharacter character ++ rest) =
      readPieces (pieceOf character :: reversed) rest := by
  by_cases letter : character ∈ letterEscaped
  · have plain : pieceOf character = .plain character := by
      simp [pieceOf, letter]
    rw [plain]
    simp only [letterEscaped, List.mem_cons, List.not_mem_nil, or_false]
      at letter
    rcases letter with rfl | rfl | rfl | rfl | rfl | rfl | rfl
    all_goals rfl
  · have spelled :
        character ≠ '"' ∧
        character ≠ '\\' ∧
        character ≠ '\x08' ∧
        character ≠ '\t' ∧
        character ≠ '\n' ∧
        character ≠ '\x0c' ∧
        character ≠ '\r' := by
      simpa [letterEscaped] using letter
    obtain ⟨quote, backslash, backspace, tab, newline, feed, carriage⟩ :=
      spelled
    by_cases control : character.toNat < 32
    · have piece : pieceOf character = .unit character.toNat :=
        if_pos ⟨control, letter⟩
      have written : escapeCharacter character =
          ['\\', 'u', '0', '0', hexDigit (character.toNat / 16),
            hexDigit (character.toNat % 16)] := by
        simp only [escapeCharacter, quote, backslash, backspace, tab,
          newline, feed, carriage, control, if_false, if_true]
      rw [written, piece]
      simp only [List.cons_append, List.nil_append, readPieces,
        codeUnit?_low (show character.toNat < 256 by omega)]
    · have piece : pieceOf character = .plain character :=
        if_neg fun both => control both.1
      have written : escapeCharacter character = [character] := by
        simp only [escapeCharacter, quote, backslash, backspace, tab,
          newline, feed, carriage, control, if_false]
      rw [written, piece, List.cons_append, List.nil_append]
      exact readPieces_plain reversed rest quote backslash
        (Nat.not_lt.1 control)

/--
A written text is read as its pieces, up to the closing quotation mark.
-/
theorem readPieces_escaped
    (text : List Char)
    (reversed : List Piece)
    (rest : List Char) :
    readPieces reversed (text.flatMap escapeCharacter ++ '"' :: rest) =
      some (reversed.reverse ++ text.map pieceOf, rest) := by
  induction text generalizing reversed with
  | nil => simp [readPieces]
  | cons character text ih =>
      rw [List.flatMap_cons, List.append_assoc, readPieces_escapeCharacter,
        ih, List.reverse_cons, List.append_assoc]
      rfl

theorem readPieces_text
    (text : String)
    (rest : List Char) :
    readPieces [] (text.toList.flatMap escapeCharacter ++ '"' :: rest) =
      some (piecesOf text, rest) :=
  readPieces_escaped text.toList [] rest

/-- A code unit below the surrogates stands for its own character. -/
private theorem resolve_unit
    {code : Nat}
    (low : code < 0xD800)
    (reversed : List Char)
    (rest : List Piece) :
    resolve reversed (.unit code :: rest) =
      resolve (Char.ofNat code :: reversed) rest := by
  have notHigh : isHighSurrogate code = false := by
    simp only [isHighSurrogate, Bool.and_eq_false_iff,
      decide_eq_false_iff_not]
    omega
  have notLow : isLowSurrogate code = false := by
    simp only [isLowSurrogate, Bool.and_eq_false_iff,
      decide_eq_false_iff_not]
    omega
  rcases rest with _ | ⟨character | other, rest⟩
  all_goals simp [resolve, notHigh, notLow]

/-- The piece of a character stands for this character. -/
theorem resolve_pieceOf
    (character : Char)
    (reversed : List Char)
    (rest : List Piece) :
    resolve reversed (pieceOf character :: rest) =
      resolve (character :: reversed) rest := by
  simp only [pieceOf]
  split
  · rename_i control
    rw [resolve_unit (by omega), Char.ofNat_toNat]
  · rw [resolve]

theorem resolve_pieces
    (text : List Char)
    (reversed : List Char) :
    resolve reversed (text.map pieceOf) =
      some (reversed.reverse ++ text) := by
  induction text generalizing reversed with
  | nil => simp [resolve]
  | cons character text ih =>
      rw [List.map_cons, resolve_pieceOf, ih, List.reverse_cons,
        List.append_assoc]
      rfl

/-- The pieces of a text stand for this text. -/
@[simp]
theorem textOf?_piecesOf
    (text : String) :
    textOf? (piecesOf text) = some text := by
  rw [textOf?, piecesOf, resolve_pieces]
  simp

end Configurator.Json
