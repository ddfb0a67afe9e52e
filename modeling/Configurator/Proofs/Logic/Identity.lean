import Configurator.Proofs.Logic.WellFormed

/-!
# What an id identifies

The id of a constraint is the digest of a text that lists its names, its
coefficients and its bias without anything between them.  Names that one
cannot continue to another one by a coefficient keep these parts apart, and
then the text determines the constraint.  Other names do not: the support of
a constraint may then be reused for a different one.
-/

namespace Configurator.Logic

open Configurator.Collection Configurator.Digest Configurator.Linear

/-! ## Numbers and texts -/

theorem minus_notMem_decimal
    {number : Int}
    (nonnegative : 0 ≤ number) :
    '-' ∉ Text.decimal number := by
  intro member
  rw [Text.decimal, if_neg (Int.not_lt.2 nonnegative)] at member
  have digit := Nat.isDigit_of_mem_toDigits (by decide) (by decide) member
  revert digit
  decide

theorem decimal_of_neg
    {number : Int}
    (negative : number < 0) :
    Text.decimal number = '-' :: Text.decimalDigits number.natAbs :=
  if_pos negative

private theorem decimalDigits_injective
    {left right : Nat}
    (same : Text.decimalDigits left = Text.decimalDigits right) :
    left = right := by
  have values := congrArg Text.digitsValue same
  rwa [Text.digitsValue_decimalDigits, Text.digitsValue_decimalDigits]
    at values

theorem decimal_injective
    {left right : Int}
    (same : Text.decimal left = Text.decimal right) :
    left = right := by
  rcases Int.lt_or_le left 0 with leftNegative | leftNonnegative
  · rcases Int.lt_or_le right 0 with rightNegative | rightNonnegative
    · rw [decimal_of_neg leftNegative, decimal_of_neg rightNegative] at same
      have magnitudes := decimalDigits_injective (List.cons.inj same).2
      omega
    · rw [decimal_of_neg leftNegative] at same
      exact absurd (same ▸ List.mem_cons_self)
        (minus_notMem_decimal rightNonnegative)
  · rcases Int.lt_or_le right 0 with rightNegative | rightNonnegative
    · rw [decimal_of_neg rightNegative] at same
      exact absurd (same ▸ List.mem_cons_self)
        (minus_notMem_decimal leftNonnegative)
    · rw [Text.decimal, Text.decimal, if_neg (Int.not_lt.2 leftNonnegative),
        if_neg (Int.not_lt.2 rightNonnegative)] at same
      have magnitudes := decimalDigits_injective same
      omega

/-- Different texts have different bytes. -/
theorem utf8_injective
    {left right : List Char}
    (same :
      left.flatMap String.utf8EncodeChar =
        right.flatMap String.utf8EncodeChar) :
    left = right := by
  have encoded : left.utf8Encode = right.utf8Encode :=
    congrArg List.toByteArray same
  have decoded := congrArg ByteArray.utf8Decode? encoded
  rw [List.utf8Decode?_utf8Encode, List.utf8Decode?_utf8Encode] at decoded
  exact List.toArray_inj (Option.some.inj decoded)

/-! ## Names that coefficients keep apart -/

/--
No name continues another one as a coefficient would, or starts like a
negative bias.
-/
structure Separable (names : List String) : Prop where
  /-- No name starts with a minus sign. -/
  unsigned : ∀ name ∈ names, name.toList.head? ≠ some '-'
  /-- No name continues another one by the start of a coefficient. -/
  apart : ∀ name ∈ names, ∀ other ∈ names, ∀ sign ∈ ['1', '-'],
    ¬ name.toList ++ [sign] <+: other.toList

theorem separable_iff
    {names : List String} :
    Separable names ↔
      ∀ name ∈ names,
        name.toList.head? ≠ some '-' ∧
        ∀ other ∈ names,
          ¬ name.toList ++ ['1'] <+: other.toList ∧
          ¬ name.toList ++ ['-'] <+: other.toList := by
  constructor
  · intro separable name member
    exact ⟨separable.unsigned name member, fun other otherMember =>
      ⟨separable.apart name member other otherMember '1' List.mem_cons_self,
        separable.apart name member other otherMember '-'
          (List.mem_cons_of_mem _ List.mem_cons_self)⟩⟩
  · intro checked
    refine ⟨fun name member => (checked name member).1, ?_⟩
    intro name member other otherMember
    obtain ⟨one, minus⟩ := (checked name member).2 other otherMember
    exact List.forall_mem_cons.2 ⟨one, List.forall_mem_singleton.2 minus⟩

instance (names : List String) : Decidable (Separable names) :=
  decidable_of_iff' _ separable_iff

/-- The names with one coefficient, then the bias. -/
def spell (names : List String) (weight bias : Int) : List Char :=
  names.flatMap (fun name => name.toList ++ Text.decimal weight) ++
    Text.decimal bias

theorem spell_cons
    (name : String)
    (rest : List String)
    (weight bias : Int) :
    spell (name :: rest) weight bias =
      name.toList ++ (Text.decimal weight ++ spell rest weight bias) := by
  simp [spell, List.append_assoc]

/-- The coefficients and biases with which set calls count operands. -/
def Counts (weight bias : Int) : Prop :=
  weight = 1 ∧ bias ≤ 0 ∨ weight = -1 ∧ 0 ≤ bias

theorem Counts.decimal_cases
    {weight bias : Int}
    (counts : Counts weight bias) :
    Text.decimal weight = ['1'] ∨ Text.decimal weight = ['-', '1'] := by
  rcases counts with ⟨rfl, _⟩ | ⟨rfl, _⟩
  · exact Or.inl rfl
  · exact Or.inr rfl

namespace Separable

variable {names : List String}

private theorem tail_eq_nil
    (separable : Separable names)
    {left right : String}
    (leftMember : left ∈ names)
    (rightMember : right ∈ names)
    {weight bias : Int}
    (counts : Counts weight bias)
    {tail rest other : List Char}
    (continued : right.toList = left.toList ++ tail)
    (same : Text.decimal weight ++ rest = tail ++ other) :
    tail = [] := by
  cases tail with
  | nil => rfl
  | cons first others =>
      have sign : first ∈ ['1', '-'] := by
        rcases counts.decimal_cases with one | opposite
        · rw [one] at same
          have head := (List.cons.inj same).1
          exact head ▸ List.mem_cons_self
        · rw [opposite] at same
          have head := (List.cons.inj same).1
          exact head ▸ List.mem_cons_of_mem _ List.mem_cons_self
      refine absurd ?_
        (separable.apart left leftMember right rightMember first sign)
      exact ⟨others, by rw [continued, List.append_assoc]; rfl⟩

/-- Where a name and a coefficient end is determined by the text. -/
theorem first_eq
    (separable : Separable names)
    {left right : String}
    (leftMember : left ∈ names)
    (rightMember : right ∈ names)
    {leftWeight leftBias rightWeight rightBias : Int}
    (leftCounts : Counts leftWeight leftBias)
    (rightCounts : Counts rightWeight rightBias)
    {leftRest rightRest : List Char}
    (same :
      left.toList ++ (Text.decimal leftWeight ++ leftRest) =
        right.toList ++ (Text.decimal rightWeight ++ rightRest)) :
    left = right ∧ leftWeight = rightWeight ∧ leftRest = rightRest := by
  have equal : left.toList = right.toList := by
    rcases List.append_eq_append_iff.1 same with
      ⟨tail, continued, rest⟩ | ⟨tail, continued, rest⟩
    · rw [continued,
        separable.tail_eq_nil leftMember rightMember leftCounts continued
          rest, List.append_nil]
    · rw [continued,
        separable.tail_eq_nil rightMember leftMember rightCounts continued
          rest, List.append_nil]
  rw [equal, List.append_cancel_left_eq] at same
  refine ⟨String.toList_inj.1 equal, ?_⟩
  rcases leftCounts with ⟨rfl, _⟩ | ⟨rfl, _⟩
  · rcases rightCounts with ⟨rfl, _⟩ | ⟨rfl, _⟩
    · exact ⟨rfl, (List.cons.inj same).2⟩
    · exact absurd (List.cons.inj same).1 (by decide)
  · rcases rightCounts with ⟨rfl, _⟩ | ⟨rfl, _⟩
    · exact absurd (List.cons.inj same).1 (by decide)
    · exact ⟨rfl, (List.cons.inj (List.cons.inj same).2).2⟩

/-- A bias is no further name with its coefficient. -/
theorem decimal_ne_name
    (separable : Separable names)
    {name : String}
    (member : name ∈ names)
    (named : name ≠ "")
    {weight bias : Int}
    (counts : Counts weight bias)
    (rest : List Char) :
    Text.decimal bias ≠ name.toList ++ (Text.decimal weight ++ rest) := by
  intro same
  obtain ⟨first, others, spelled⟩ := List.exists_cons_of_ne_nil fun empty =>
    named (String.toList_eq_nil_iff.1 empty)
  rcases counts with ⟨rfl, nonpositive⟩ | ⟨rfl, nonnegative⟩
  · rcases Int.lt_or_eq_of_le nonpositive with negative | rfl
    · rw [decimal_of_neg negative, spelled] at same
      apply separable.unsigned name member
      rw [spelled, ← (List.cons.inj same).1]
      rfl
    · have lengths := congrArg List.length same
      rw [spelled] at lengths
      simp [Text.decimal, Text.decimalDigits] at lengths
  · apply minus_notMem_decimal nonnegative
    rw [same]
    exact List.mem_append_right _ List.mem_cons_self

/--
With the same coefficient throughout, the text determines the names and the
bias.
-/
theorem spell_injective
    (separable : Separable names)
    (named : "" ∉ names)
    {weight leftBias rightBias : Int}
    (leftCounts : Counts weight leftBias)
    (rightCounts : Counts weight rightBias)
    {left right : List String}
    (leftKnown : ∀ name ∈ left, name ∈ names)
    (rightKnown : ∀ name ∈ right, name ∈ names)
    (same : spell left weight leftBias = spell right weight rightBias) :
    left = right ∧ leftBias = rightBias := by
  induction left generalizing right with
  | nil =>
      cases right with
      | nil => exact ⟨rfl, decimal_injective same⟩
      | cons name rest =>
          have member := rightKnown name List.mem_cons_self
          rw [spell_cons] at same
          exact absurd same (separable.decimal_ne_name member
            (fun empty => named (empty ▸ member)) leftCounts _)
  | cons name rest ih =>
      have member := leftKnown name List.mem_cons_self
      cases right with
      | nil =>
          rw [spell_cons] at same
          exact absurd same.symm (separable.decimal_ne_name member
            (fun empty => named (empty ▸ member)) rightCounts _)
      | cons other others =>
          rw [spell_cons, spell_cons] at same
          obtain ⟨rfl, _, later⟩ :=
            separable.first_eq member (rightKnown other List.mem_cons_self)
              leftCounts rightCounts same
          obtain ⟨rfl, biases⟩ :=
            ih
              (fun name listed =>
                leftKnown name (List.mem_cons_of_mem _ listed))
              (fun name listed =>
                rightKnown name (List.mem_cons_of_mem _ listed)) later
          exact ⟨rfl, biases⟩

end Separable

/-! ## Constraints by the bytes of their id -/

theorem entries_eq_map
    {form : Coefficients}
    {weight : Int}
    (uniform : ∀ value ∈ form.values, value = weight) :
    form.entries = form.ids.map fun id => (id, weight) := by
  rw [Coefficients.ids, List.map_map]
  refine (List.map_id form.entries).symm.trans
    (List.map_congr_left fun entry member => ?_)
  have value := uniform entry.2 (List.mem_map_of_mem member)
  exact Prod.ext rfl value

namespace Constraint

/-- The bytes of which the id of a constraint is the digest. -/
def message (constraint : Constraint) : List UInt8 :=
  (canonicalText constraint.row.coefficients constraint.row.bias).flatMap
    String.utf8EncodeChar

variable {constraint left right : Constraint}

theorem WellMade.id_eq
    (wellMade : constraint.WellMade) :
    constraint.id = Sha1.hexDigest constraint.message :=
  wellMade.content

theorem canonicalText_eq_spell
    {weight : Int}
    (uniform :
      ∀ value ∈ constraint.row.coefficients.values, value = weight) :
    canonicalText constraint.row.coefficients constraint.row.bias =
      spell constraint.operands weight constraint.row.bias := by
  rw [canonicalText, spell, entries_eq_map uniform, List.flatMap_map]
  rfl

theorem IsCardinality.exists_counts
    (cardinality : constraint.IsCardinality) :
    ∃ weight,
      Counts weight constraint.row.bias ∧
      ∀ value ∈ constraint.row.coefficients.values, value = weight := by
  rcases cardinality with
    ⟨_, ⟨ones, _, nonpositive⟩ | ⟨opposites, nonnegative, _⟩⟩
  · exact ⟨1, Or.inl ⟨rfl, nonpositive⟩, ones⟩
  · exact ⟨-1, Or.inr ⟨rfl, nonnegative⟩, opposites⟩

/--
Over separable names the bytes determine the coefficients and the bias.
-/
theorem row_eq_of_message_eq
    {names : List String}
    (separable : Separable names)
    (named : "" ∉ names)
    (leftCardinality : left.IsCardinality)
    (rightCardinality : right.IsCardinality)
    (leftKnown : ∀ id ∈ left.operands, id ∈ names)
    (rightKnown : ∀ id ∈ right.operands, id ∈ names)
    (same : left.message = right.message) :
    left.row = right.row := by
  obtain ⟨leftWeight, leftCounts, leftUniform⟩ :=
    leftCardinality.exists_counts
  obtain ⟨rightWeight, rightCounts, rightUniform⟩ :=
    rightCardinality.exists_counts
  have texts := utf8_injective same
  rw [canonicalText_eq_spell leftUniform,
    canonicalText_eq_spell rightUniform] at texts
  have weights : leftWeight = rightWeight := by
    obtain ⟨first, others, leftListed⟩ :
        ∃ first others, left.operands = first :: others :=
      List.exists_cons_of_ne_nil leftCardinality.1
    obtain ⟨second, more, rightListed⟩ :
        ∃ second more, right.operands = second :: more :=
      List.exists_cons_of_ne_nil rightCardinality.1
    have firstKnown := leftKnown first (leftListed ▸ List.mem_cons_self)
    have secondKnown := rightKnown second (rightListed ▸ List.mem_cons_self)
    have spelled := texts
    rw [leftListed, rightListed, spell_cons, spell_cons] at spelled
    exact (separable.first_eq firstKnown secondKnown leftCounts rightCounts
            spelled).2.1
  subst weights
  obtain ⟨ids, biases⟩ :=
    separable.spell_injective named leftCounts rightCounts leftKnown
      rightKnown texts
  have forms : left.row.coefficients = right.row.coefficients := by
    apply Coefficients.ext
    rw [entries_eq_map leftUniform, entries_eq_map rightUniform]
    exact congrArg (List.map fun id => (id, leftWeight)) ids
  cases left with
  | mk leftId leftRow =>
      cases right with
      | mk rightId rightRow =>
          cases leftRow
          cases rightRow
          cases forms
          cases biases
          rfl

end Constraint

namespace Model

variable {model grown : Model}

/--
Unless digests collide, a constraint over separable names is stored once
introduced.
-/
theorem WellFormed.mem_of_introduce
    (wellFormed : model.WellFormed)
    (separable : Separable model.ids.toList)
    {constraint : Constraint}
    (wellMade : constraint.WellMade)
    (known : ∀ id ∈ constraint.operands, id ∈ model.ids)
    (collisionFree :
      ∀ stored ∈ model.constraints,
        Sha1.hexDigest stored.message = Sha1.hexDigest constraint.message →
        stored.message = constraint.message)
    (introduced : model.introduce constraint = .ok grown) :
    constraint ∈ grown.constraints := by
  rcases introduce_eq_ok introduced with
    ⟨⟨stored, member, sameId⟩, rfl⟩ | ⟨_, _, rfl⟩
  · have storedMade := wellFormed.wellMade stored member
    have bytes := collisionFree stored member
      (storedMade.id_eq.symm.trans (sameId.trans wellMade.id_eq))
    have rows :=
      Constraint.row_eq_of_message_eq separable wellFormed.named
        storedMade.cardinality wellMade.cardinality
        (fun id mentioned => wellFormed.operand_known member mentioned)
        known bytes
    have equal : stored = constraint := by
      cases stored
      cases constraint
      cases sameId
      cases rows
      rfl
    exact equal ▸ member
  · exact List.mem_append_right _ List.mem_cons_self

/--
Over separable names an id identifies its constraint: two cardinality
constraints with different coefficients or a different bias have different
bytes, and unless digests collide a support is reused only for the
constraint that is stored under it.
-/
theorem ids_identify
    (steps : List Step)
    (separable : Separable (empty.run steps).ids.toList) :
    (∀ left right : Constraint,
      left.IsCardinality →
      right.IsCardinality →
      (∀ id ∈ left.operands, id ∈ (empty.run steps).ids) →
      (∀ id ∈ right.operands, id ∈ (empty.run steps).ids) →
      left.row ≠ right.row →
      left.message ≠ right.message) ∧
    ∀ (constraint : Constraint) (grown : Model),
      constraint.WellMade →
      (∀ id ∈ constraint.operands, id ∈ (empty.run steps).ids) →
      (∀ stored ∈ (empty.run steps).constraints,
        Sha1.hexDigest stored.message = Sha1.hexDigest constraint.message →
        stored.message = constraint.message) →
      (empty.run steps).introduce constraint = .ok grown →
      constraint ∈ grown.constraints := by
  have wellFormed := wellFormed_run_empty steps
  constructor
  · intro left right leftCardinality rightCardinality leftKnown rightKnown
      different same
    exact different
      (Constraint.row_eq_of_message_eq separable wellFormed.named
        leftCardinality rightCardinality leftKnown rightKnown same)
  · intro constraint grown wellMade known collisionFree introduced
    exact wellFormed.mem_of_introduce separable wellMade known collisionFree
      introduced

/-- Three separable names and two counts of the same two of them. -/
theorem ids_identify_pair :
    (Constraint.uniform ["x", "y"] 1 (-1)).message ≠
      (Constraint.uniform ["x", "y"] 1 (-2)).message ∧
    ∃ grown,
      (empty.run
        [.addPrimitives ["x", "y", "z"],
          .set .conjunction ["x", "y"]]).introduce
          (Constraint.uniform ["x", "y"] 1 (-1)) =
        .ok grown ∧
      Constraint.uniform ["x", "y"] 1 (-1) ∈ grown.constraints := by
  have separable : Separable (empty.run [.addPrimitives ["x", "y", "z"],
      .set .conjunction ["x", "y"]]).ids.toList := by
    decide +kernel
  have known :
      ∀ id ∈ ["x", "y"],
        id ∈
          (empty.run
            [.addPrimitives ["x", "y", "z"],
              .set .conjunction ["x", "y"]]).ids := by
    decide +kernel
  have made : ∀ bound : Int, 0 ≤ bound → bound ≤ 2 →
      (Constraint.uniform ["x", "y"] 1 (-bound)).IsCardinality :=
    fun bound least greatest =>
      Constraint.isCardinality_uniform .least (by decide) (by decide) least
        greatest
  have one := made 1 (by decide) (by decide)
  obtain ⟨differ, reuse⟩ := ids_identify
    [.addPrimitives ["x", "y", "z"], .set .conjunction ["x", "y"]] separable
  refine ⟨differ _ _ one (made 2 (by decide) (by decide)) known known
    (by decide), ?_⟩
  have introduced : ∃ grown, (empty.run [.addPrimitives ["x", "y", "z"],
      .set .conjunction ["x", "y"]]).introduce
        (Constraint.uniform ["x", "y"] 1 (-1)) = .ok grown := by
    have checked :
        ((empty.run
           [.addPrimitives ["x", "y", "z"],
             .set .conjunction ["x", "y"]]).introduce
          (Constraint.uniform ["x", "y"] 1 (-1))).toOption.isSome =
          true := by
      decide +kernel
    simpa only [Option.isSome_iff_exists, toOption_eq_some_iff] using
      checked
  rcases introduced with ⟨grown, introduced⟩
  exact ⟨grown, introduced,
    reuse _ grown ⟨one, rfl⟩ known (by decide +kernel) introduced⟩

/--
Without separable names a disjunction reuses the support of another
constraint.
-/
theorem ids_confuse_continued_name :
    let model :=
      empty.run
        [.addPrimitives ["x", "y", "x1y"], .set (.atLeast 1) ["x1y"]]
    let stored := Constraint.uniform ["x1y"] 1 (-1)
    let inserted := Constraint.uniform ["x", "y"] 1 (-1)
    stored.IsCardinality ∧
    inserted.IsCardinality ∧
    (∀ id ∈ stored.operands, id ∈ model.ids) ∧
    (∀ id ∈ inserted.operands, id ∈ model.ids) ∧
    stored.row ≠ inserted.row ∧
    stored.message = inserted.message ∧
    model.constraints = [stored] ∧
    model.set .disjunction ["x", "y"] = (.ok stored.id, model) := by
  refine ⟨?_, ?_, by decide +kernel⟩
  · exact Constraint.isCardinality_uniform .least (by decide) (by decide)
      (by decide) (by decide)
  · exact Constraint.isCardinality_uniform .least (by decide) (by decide)
      (by decide) (by decide)

end Model

end Configurator.Logic
