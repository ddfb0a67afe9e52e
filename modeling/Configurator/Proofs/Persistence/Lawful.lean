import Configurator.Persistence.Basic
import Configurator.Proofs.Collection.Lookup
import Configurator.Proofs.Collection.Precedence
import Configurator.Proofs.Json.Reading
import Configurator.Proofs.Linear.Entries

/-!
# Lawful persistent types

A persistent type is lawful if the written form of every value is plain, if
decoding this form gives the value back as long as all numbers in it are in
range, and if every value that is decoded is in range.  Then reading undoes
writing.  Numbers and texts are lawful, and so are lists, ordered sets and
maps of lawful types.
-/

namespace Configurator.Persistence

open Configurator.Arithmetic Configurator.Collection Configurator.Json
  Configurator.Linear

/-- Types whose values hold numbers. -/
class Ranged (α : Type) where
  /--
  All numbers in a value are signed words, or unsigned words where they
  count.
  -/
  InRange : α → Prop

export Ranged (InRange)

/-- Types for which decoding undoes encoding. -/
class Lawful (α : Type) [Persistent α] [Ranged α] : Prop where
  /-- A written form has whole numbers and texts only. -/
  plain_encode : ∀ value : α, (encode value).Plain
  /-- A value in range is decoded from its written form. -/
  decode_encode :
    ∀ {value : α}, InRange value → decode (encode value) = some value
  /-- Only values in range are decoded. -/
  inRange_of_decode :
    ∀ {written : Value} {value : α},
      decode written = some value → InRange value

export Lawful (plain_encode decode_encode inRange_of_decode)

section Reading

variable {α : Type} [Persistent α] [Ranged α] [Lawful α] {value : α}

/--
Reading the text that was written for a value in range gives this value.
-/
theorem read_of_write
    (inRange : InRange value) :
    read (write value) = .ok value := by
  have parsed := Value.ofText?_render (plain_encode value)
  simp only [read, read?, write, parsed, Option.bind_some,
    decode_encode inRange]

/-- A value that was read is in range. -/
theorem inRange_of_read
    {text : String}
    (given : read text = .ok value) :
    InRange value := by
  simp only [read, read?] at given
  split at given
  · rename_i found
    cases given
    rcases Option.bind_eq_some_iff.1 found with ⟨written, _, decoded⟩
    exact inRange_of_decode decoded
  · cases given

end Reading

/-! ## Numbers and texts -/

instance : Ranged Int :=
  ⟨IsWord⟩

instance : Ranged Nat :=
  ⟨fun number => number < indexBound⟩

instance : Ranged String :=
  ⟨fun _ => True⟩

instance : Lawful Int where
  plain_encode := Value.Plain.integer
  decode_encode := by
    intro number inRange
    show (Numeral.ofInt number).toInt?.bind word? = some number
    rw [Numeral.toInt?_ofInt]
    exact word?_eq_some_iff.2 ⟨inRange, rfl⟩
  inRange_of_decode := by
    intro written number decoded
    cases written with
    | number numeral =>
        rcases Option.bind_eq_some_iff.1 decoded with ⟨whole, _, checked⟩
        rcases word?_eq_some_iff.1 checked with ⟨inRange, rfl⟩
        exact inRange
    | _ => cases decoded

instance : Lawful Nat where
  plain_encode := fun number => Value.Plain.integer number
  decode_encode := by
    intro number inRange
    show decodeIndex (.number (Numeral.ofInt number)) = some number
    rw [decodeIndex, Numeral.toInt?_ofInt]
    exact if_pos inRange
  inRange_of_decode := by
    intro written number decoded
    cases written with
    | number numeral =>
        simp only [decode, decodeIndex] at decoded
        split at decoded
        · split at decoded
          · rename_i inRange
            cases decoded
            exact inRange
          · cases decoded
        · cases decoded
    | _ => cases decoded

instance : Lawful String where
  plain_encode := Value.Plain.text
  decode_encode := fun _ => rfl
  inRange_of_decode := fun _ => trivial

/-! ## Lists and sets -/

/-- Items that are all decoded are decoded together. -/
private theorem mapM_decode
    {α β : Type}
    {items : List α}
    {step : β → Option α}
    {form : α → β}
    (decoded : ∀ item ∈ items, step (form item) = some item) :
    (items.map form).mapM step = some items := by
  induction items with
  | nil => rfl
  | cons item others ih =>
      rw [List.forall_mem_cons] at decoded
      rw [List.map_cons, List.mapM_cons, decoded.1, ih decoded.2]
      rfl

/-- Items that are decoded together come from single forms. -/
private theorem exists_of_mem_mapM
    {α β : Type}
    {forms : List β}
    {step : β → Option α}
    {items : List α}
    (decoded : forms.mapM step = some items)
    {item : α}
    (member : item ∈ items) :
    ∃ form, step form = some item := by
  induction forms generalizing items with
  | nil =>
      cases decoded
      cases member
  | cons form others ih =>
      simp only [List.mapM_cons, Option.bind_eq_bind,
        Option.bind_eq_some_iff] at decoded
      rcases decoded with ⟨first, here, rest, later, finished⟩
      cases finished
      rcases List.mem_cons.1 member with rfl | member
      · exact ⟨form, here⟩
      · exact ih later member

section Lists

variable {α : Type} [Persistent α] [Ranged α]

instance : Ranged (List α) :=
  ⟨fun items => ∀ item ∈ items, InRange item⟩

instance [DecidableEq α] : Ranged (OrderedSet α) :=
  ⟨fun members => InRange members.toList⟩

instance [Lawful α] : Lawful (List α) where
  plain_encode :=
    fun items => Value.Plain.array _ (List.forall_mem_map.2 fun item _ =>
      plain_encode item)
  decode_encode :=
    fun inRange =>
      mapM_decode fun item member => decode_encode (inRange item member)
  inRange_of_decode := by
    intro written items decoded item member
    cases written with
    | array forms =>
        rcases exists_of_mem_mapM decoded member with ⟨form, here⟩
        exact inRange_of_decode here
    | _ => cases decoded

instance [DecidableEq α] [Lawful α] : Lawful (OrderedSet α) where
  plain_encode := fun members => plain_encode members.toList
  decode_encode := by
    intro members inRange
    have listed : decode (encode members.toList) = some members.toList :=
      decode_encode inRange
    show (decode (encode members.toList)).map OrderedSet.ofList =
      some members
    rw [listed]
    exact congrArg some (OrderedSet.ofList_toList members)
  inRange_of_decode := by
    intro written members decoded item member
    rcases Option.map_eq_some_iff.1 decoded with ⟨items, listed, rfl⟩
    exact inRange_of_decode listed item (OrderedSet.mem_ofList.1 member)

end Lists

/-! ## Maps -/

instance : Ranged (OrderedMap String Int) :=
  ⟨fun map => ∀ value ∈ map.values, InRange value⟩

instance : Ranged Coefficients :=
  ⟨fun form => ∀ weight ∈ form.values, InRange weight⟩

theorem plain_encodeEntries
    (entries : List (String × Int)) :
    (encodeEntries entries).Plain :=
  Value.Plain.object _
    (List.forall_mem_map.2 fun entry _ => plain_encode entry.2)

/-- Entries with values in range are decoded from their members. -/
theorem decode_encodeEntries
    {entries : List (String × Int)}
    (inRange : ∀ entry ∈ entries, InRange entry.2) :
    decodeEntries (encodeEntries entries) = some entries := by
  refine mapM_decode fun entry member => ?_
  dsimp only
  rw [decode_encode (inRange entry member)]
  rfl

theorem inRange_of_decodeEntries
    {written : Value}
    {entries : List (String × Int)}
    (decoded : decodeEntries written = some entries) :
    ∀ entry ∈ entries, InRange entry.2 := by
  intro entry member
  cases written with
  | object members =>
      rcases exists_of_mem_mapM decoded member with ⟨form, here⟩
      rcases Option.map_eq_some_iff.1 here with ⟨value, found, rfl⟩
      exact inRange_of_decode found
  | _ => cases decoded

instance : Lawful (OrderedMap String Int) where
  plain_encode := fun map => plain_encodeEntries map.entries
  decode_encode := by
    intro map inRange
    show (decodeEntries (encodeEntries map.entries)).map OrderedMap.ofList =
      some map
    rw [decode_encodeEntries (List.forall_mem_map.1 inRange)]
    exact congrArg some
      (OrderedMap.ext (OrderedMap.entries_ofList map.nodup))
  inRange_of_decode := by
    intro written map decoded
    rcases Option.map_eq_some_iff.1 decoded with ⟨entries, listed, rfl⟩
    refine List.forall_mem_map.2 fun entry member => ?_
    exact inRange_of_decodeEntries listed entry
      (OrderedMap.mem_of_mem_entries_ofList member)

instance : Lawful Coefficients where
  plain_encode := fun form => plain_encodeEntries form.entries
  decode_encode := by
    intro form inRange
    show (decodeEntries (encodeEntries form.entries)).map
        Coefficients.ofList =
      some form
    rw [decode_encodeEntries (List.forall_mem_map.1 inRange)]
    exact congrArg some (Coefficients.ofList_entries form)
  inRange_of_decode := by
    intro written form decoded
    rcases Option.map_eq_some_iff.1 decoded with ⟨entries, listed, rfl⟩
    refine List.forall_mem_map.2 fun entry member => ?_
    exact inRange_of_decodeEntries listed entry
      (Coefficients.mem_of_mem_ofList member)

end Configurator.Persistence
