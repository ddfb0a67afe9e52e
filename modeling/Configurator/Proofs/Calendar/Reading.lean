import Configurator.Calendar.Format
import Configurator.Calendar.Reading
import Configurator.Proofs.Text.Digits

/-!
# Written instants are read back

Every field of a written instant is taken off the front of the text by its
reader: a year with or without a sign, fields padded to two digits, and a
fraction of 0, 3, 6 or 9 digits.  So the persisted text of an instant is
read as this instant, whether its year needs a sign and whether its second
is a leap second or not.
-/

namespace Configurator.Calendar

open Configurator.Text

/-! ## Readers -/

/--
The reader takes the value off the front of the text and leaves the rest.
-/
def Takes
    {α : Type}
    (reader : Reader α)
    (text : List Char)
    (value : α)
    (rest : List Char) :
    Prop :=
  reader text = some (value, rest)

namespace Takes

variable {α β : Type} {text rest final : List Char}

theorem pure (value : α) : Takes (Pure.pure value) text value text :=
  rfl

theorem get : Takes (MonadState.get : Reader (List Char)) text text text :=
  rfl

theorem set
    (rest : List Char) :
    Takes (MonadStateOf.set rest : Reader PUnit) text ⟨⟩ rest :=
  rfl

/-- What the second reader takes is what the first one left. -/
theorem bind
    {reader : Reader α}
    {next : α → Reader β}
    {value : α}
    {result : β}
    (first : Takes reader text value rest)
    (second : Takes (next value) rest result final) :
    Takes (reader >>= next) text result final := by
  show (reader text >>= fun taken => next taken.1 taken.2) = _
  rw [show reader text = some (value, rest) from first]
  exact second

/-- A value that is taken is changed afterwards. -/
theorem map
    {reader : Reader α}
    {value : α}
    (change : α → β)
    (taken : Takes reader text value rest) :
    Takes (reader >>= fun value => Pure.pure (change value)) text
      (change value) rest :=
  taken.bind (pure _)

theorem lift
    {computed : Option α}
    {value : α}
    (found : computed = some value) :
    Takes (StateT.lift computed) text value text := by
  rw [found]
  rfl

/-- After the text has been set, the reader takes from that text. -/
theorem afterSet
    {reader : Reader α}
    {value : α}
    (taken : Takes reader rest value final) :
    Takes (MonadStateOf.set rest >>= fun _ => reader) text value final :=
  (set rest).bind taken

end Takes

/-- The text does not start with a blank. -/
def Visible (text : List Char) : Prop :=
  ∀ character ∈ text.head?, isBlank character = false

theorem Visible.skipBlanks_eq
    {text : List Char}
    (visible : Visible text) :
    skipBlanks text = text := by
  cases text with
  | nil => rfl
  | cons first rest =>
      exact List.dropWhile_cons_of_neg (by simp [visible first rfl])

theorem visible_cons
    {first : Char}
    (visible : isBlank first = false)
    (rest : List Char) :
    Visible (first :: rest) := by
  intro character member
  cases member
  exact visible

theorem isBlank_of_isDigit
    {character : Char}
    (digit : isDigit character = true) :
    isBlank character = false := by
  simp only [isDigit, Bool.and_eq_true, decide_eq_true_eq] at digit
  have least : 48 ≤ character.toNat := digit.1
  have greatest : character.toNat ≤ 57 := digit.2
  simp only [isBlank, Bool.or_eq_false_iff, Bool.and_eq_false_iff,
    decide_eq_false_iff_not, beq_eq_false_iff_ne]
  omega

/-- Digits are no blanks. -/
theorem visible_digits
    {digits : List Char}
    (some : digits ≠ [])
    (all : AllDigits digits)
    (rest : List Char) :
    Visible (digits ++ rest) := by
  obtain ⟨first, others, rfl, digit⟩ := all.exists_cons some
  exact visible_cons (isBlank_of_isDigit digit) _

namespace Reader

theorem takes_blanks
    {text : List Char}
    (visible : Visible text) :
    Takes blanks text ⟨⟩ text := by
  show some ((), skipBlanks text) = _
  rw [visible.skipBlanks_eq]

theorem takes_mark
    (expected : Char)
    (rest : List Char) :
    Takes (mark expected) (expected :: rest) () rest :=
  if_pos rfl

theorem takes_between
    {expected : Char}
    (visible : isBlank expected = false)
    (rest : List Char) :
    Takes (between expected) (expected :: rest) () rest :=
  (takes_blanks (visible_cons visible rest)).bind (takes_mark expected rest)

/-- As many digits as are allowed are taken, whatever follows. -/
theorem takes_upTo
    {digits : List Char}
    (some : digits ≠ [])
    (all : AllDigits digits)
    (rest : List Char) :
    Takes (upTo digits.length) (digits ++ rest) (digitsValue digits)
      rest := by
  have taken :
      ((digits ++ rest).takeWhile isDigit).take digits.length = digits := by
    rw [List.takeWhile_append_of_pos all, List.take_left]
  simp only [Takes, upTo, taken, List.isEmpty_eq_false_iff.2 some,
    List.drop_left]
  rfl

theorem takes_allDigits
    {digits rest : List Char}
    (some : digits ≠ [])
    (all : AllDigits digits)
    (ends : EndsDigits rest) :
    Takes allDigits (digits ++ rest) (digitsValue digits) rest := by
  have taken :
      ((digits ++ rest).takeWhile isDigit).take (digits ++ rest).length =
        digits := by
    rw [takeWhile_digits all ends, List.length_append,
      List.take_of_length_le (by omega)]
  simp only [Takes, allDigits, upTo, taken,
    List.isEmpty_eq_false_iff.2 some, List.drop_left]
  rfl

/-- A field padded to two digits is taken. -/
theorem takes_field
    {number : Nat}
    (small : number < 100)
    (rest : List Char) :
    Takes field (paddedDigits 2 number ++ rest) number rest := by
  have taken :=
    takes_upTo (paddedDigits_ne_nil 2 number)
      (allDigits_paddedDigits 2 number) rest
  rw [length_paddedDigits (by decide) small, digitsValue_paddedDigits]
    at taken
  exact (takes_blanks (visible_digits (paddedDigits_ne_nil 2 number)
    (allDigits_paddedDigits 2 number) rest)).bind taken

/-- A year of four digits needs no sign. -/
private theorem takes_shortYear
    {digits : List Char}
    (all : AllDigits digits)
    (length : digits.length = 4)
    (rest : List Char) :
    Takes year (digits ++ rest) (digitsValue digits) rest := by
  have some : digits ≠ [] := List.ne_nil_of_length_pos (by omega)
  have visible := visible_digits some all rest
  have taken := takes_upTo some all rest
  rw [length] at taken
  obtain ⟨first, others, spelled, digit⟩ := all.exists_cons some
  rw [spelled, List.cons_append] at visible taken ⊢
  refine (takes_blanks visible).bind (Takes.get.bind ?_)
  split
  · rename_i shape
    rw [(List.cons.inj shape).1] at digit
    cases digit
  · rename_i shape
    rw [(List.cons.inj shape).1] at digit
    cases digit
  · exact taken.map _

/-- A written year is taken with its sign, if it has one. -/
theorem takes_year
    (number : Int)
    (rest : List Char) :
    Takes year (yearDigits number ++ '-' :: rest) number ('-' :: rest) := by
  have all := allDigits_paddedDigits 4 number.natAbs
  have ends : EndsDigits ('-' :: rest) := endsDigits_cons rfl rest
  have magnitude :=
    takes_allDigits (paddedDigits_ne_nil 4 number.natAbs) all ends
  rw [digitsValue_paddedDigits] at magnitude
  unfold yearDigits
  split
  · have value : -(number.natAbs : Int) = number := by omega
    have taken := magnitude.map fun year : Nat => -(year : Int)
    rw [value] at taken
    exact (takes_blanks (visible_cons rfl _)).bind
      (Takes.get.bind taken.afterSet)
  · have value : (number.natAbs : Int) = number := by omega
    split
    · have width : (paddedDigits 4 number.natAbs).length = 4 :=
        length_paddedDigits (by decide) (by omega)
      have taken := takes_shortYear all width ('-' :: rest)
      rw [digitsValue_paddedDigits, value] at taken
      exact taken
    · have taken := magnitude.map fun year : Nat => (year : Int)
      rw [value] at taken
      exact (takes_blanks (visible_cons rfl _)).bind
        (Takes.get.bind taken.afterSet)

/-- Up to nine digits after a point are taken as nanoseconds. -/
theorem takes_point
    {digits rest : List Char}
    (some : digits ≠ [])
    (all : AllDigits digits)
    (short : digits.length ≤ 9)
    (ends : EndsDigits rest) :
    Takes fraction ('.' :: (digits ++ rest))
      (digitsValue digits * 10 ^ (9 - digits.length)) rest := by
  have leading := takeWhile_digits all ends
  refine Takes.get.bind ?_
  simp only [leading, List.isEmpty_eq_false_iff.2 some, List.drop_left,
    List.take_of_length_le short]
  rw [if_neg (by decide)]
  exact (Takes.pure _).afterSet

/-- A padded number after a point is taken as that many nanoseconds. -/
private theorem takes_padded
    {width number nano : Nat}
    (some : 0 < width)
    (short : width ≤ 9)
    (small : number < 10 ^ width)
    (value : number * 10 ^ (9 - width) = nano)
    {rest : List Char}
    (ends : EndsDigits rest) :
    Takes fraction ('.' :: paddedDigits width number ++ rest) nano
      rest := by
  have length := length_paddedDigits some small
  have taken :=
    takes_point (paddedDigits_ne_nil width number)
      (allDigits_paddedDigits width number)
      (Nat.le_trans (Nat.le_of_eq length) short) ends
  rw [length, digitsValue_paddedDigits, value] at taken
  exact taken

/-- A written fraction is taken as the nanoseconds that it writes. -/
theorem takes_fraction
    {nano : Nat}
    (small : nano < 1000000000)
    {rest : List Char}
    (ends : EndsDigits rest)
    (whole : rest.head? ≠ some '.') :
    Takes fraction (fractionDigits nano ++ rest) nano rest := by
  unfold fractionDigits
  split
  · rename_i zero
    refine Takes.get.bind ?_
    rw [List.nil_append]
    split
    · exact absurd rfl whole
    · rw [zero]
      exact Takes.pure 0
  · split
    · exact takes_padded (by decide) (by decide) (by omega) (by omega) ends
    · split
      · exact takes_padded (by decide) (by decide) (by omega) (by omega)
          ends
      · exact takes_padded (by decide) (by decide) (by omega) (by omega)
          ends

/-- The date ends with the letter that persisted instants have there. -/
theorem takes_separator
    (rest : List Char) :
    Takes separator ('T' :: rest) () rest :=
  rfl

theorem takes_zone : Takes zone ['Z'] 0 [] :=
  rfl

end Reader

theorem Date.of?_self
    (date : Date) :
    Date.of? date.year date.month date.day = some date :=
  dif_pos date.valid

namespace Instant

/--
An instant is the one of its own date and time of day in universal time.
-/
theorem ofLocal?_self
    (instant : Instant) :
    ofLocal? instant.date (instant.hour * 60 + instant.minute)
        instant.second instant.nano 0 =
      some instant := by
  rcases instant with
    ⟨date, hour, minute, second, nano, hourLt, minuteLt, secondLe, nanoLt⟩
  have early : ¬ ((hour * 60 + minute : Nat) : Int) - 0 < 0 := by omega
  have late : ((hour * 60 + minute : Nat) : Int) - 0 < 1440 := by omega
  have minuteOfDay :
      ((((hour * 60 + minute : Nat) : Int) - 0) % 1440).toNat =
        hour * 60 + minute := by
    omega
  have bounds :
      hour * 60 + minute < 1440 ∧ second ≤ 60 ∧ nano < 1000000000 :=
    ⟨by omega, secondLe, nanoLt⟩
  simp only [ofLocal?, early, late, minuteOfDay, if_false, if_true]
  show (if _ : _ then _ else none) = _
  rw [dif_pos bounds]
  simp only [Option.some.injEq, mk.injEq, true_and, and_true]
  omega

/-- The characters of a persisted instant are read as this instant. -/
theorem takes_characters
    (instant : Instant) :
    Takes Reader.time (instant.characters TimeFormat.persisted) instant
      [] := by
  have month : instant.date.month < 100 := by
    have bounded := month_le_of_isDate instant.date.valid
    omega
  have day : instant.date.day < 100 := by
    have bounded := daysInMonth_le instant.date.year instant.date.month
    have inMonth := instant.date.valid.2.2
    omega
  have hour := instant.hour_lt
  have minute := instant.minute_lt
  have second := instant.second_le
  have ends : EndsDigits ['Z'] := endsDigits_cons rfl []
  have fraction := Reader.takes_fraction instant.nano_lt ends (by decide)
  refine (Reader.takes_year _ _).bind ?_
  refine (Reader.takes_between rfl _).bind ?_
  refine (Reader.takes_field month _).bind ?_
  refine (Reader.takes_between rfl _).bind ?_
  refine (Reader.takes_field day _).bind ?_
  refine Takes.bind (Reader.takes_separator _) ?_
  refine (Reader.takes_field (by omega) _).bind ?_
  refine (Reader.takes_between rfl _).bind ?_
  refine (Reader.takes_field (by omega) _).bind ?_
  refine (Reader.takes_between rfl _).bind ?_
  refine (Reader.takes_field (by omega) _).bind ?_
  refine fraction.bind ?_
  refine (Reader.takes_blanks (visible_cons rfl [])).bind
    (Reader.takes_zone.bind ?_)
  refine (Takes.lift (Date.of?_self instant.date)).bind ?_
  have time :
      (decide (instant.hour < 24) && decide (instant.minute < 60)) =
        true := by
    simp [hour, minute]
  rw [if_pos time]
  exact Takes.lift instant.ofLocal?_self

/-- The persisted text of an instant is read as this instant. -/
theorem ofText?_text
    (instant : Instant) :
    ofText? (instant.text TimeFormat.persisted) = some instant := by
  have taken :
      Reader.time (instant.characters TimeFormat.persisted) =
        some (instant, []) :=
    instant.takes_characters
  rw [ofText?, text, String.toList_ofList, taken]
  rfl

end Instant

end Configurator.Calendar
