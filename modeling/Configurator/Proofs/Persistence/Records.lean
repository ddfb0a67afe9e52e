import Configurator.Persistence.Optimizer
import Configurator.Persistence.Request
import Configurator.Persistence.Ruleset
import Configurator.Proofs.Calendar.Reading
import Configurator.Proofs.Json.Records
import Configurator.Proofs.Persistence.Lawful

/-!
# Persistent records are lawful

A record is lawful if the types of its fields are.  Selections, periods and
what is made of them hold no numbers, so every value of them is read back; a
linear form, a polyhedron, a matrix or a problem is in range if all of its
fields are.
-/

namespace Configurator.Persistence

open Configurator.Calendar Configurator.Collection Configurator.Json
  Configurator.Linear Configurator.Logic Configurator.Optimizer
  Configurator.Request Configurator.Schedule

/-! ## Selections -/

instance : Ranged Action :=
  ⟨fun _ => True⟩

instance : Lawful Action where
  plain_encode := fun action => Value.Plain.text action.name
  decode_encode := by
    intro action _
    cases action with
    | add => rfl
    | remove => rfl
  inRange_of_decode := fun _ => trivial

instance : Ranged Selection :=
  ⟨fun _ => True⟩

instance : Lawful Selection where
  plain_encode :=
    fun selection => Value.Plain.object _ (by simp [plain_encode])
  decode_encode := by
    rintro ⟨id, others, action⟩ _
    have name : decode (encode id) = some id := decode_encode trivial
    have names : decode (encode others) = some others :=
      decode_encode fun _ _ => trivial
    have verb : decode (encode action) = some action :=
      decode_encode trivial
    show decodeSelection (.object _) = _
    rw [decodeSelection, slots?_object rfl (by decide)]
    simp [name, names, verb]
  inRange_of_decode := fun _ => trivial

/-! ## Periods -/

instance : Ranged Instant :=
  ⟨fun _ => True⟩

instance : Lawful Instant where
  plain_encode := fun _ => Value.Plain.text _
  decode_encode := fun {instant} _ => instant.ofText?_text
  inRange_of_decode := fun _ => trivial

instance : Ranged Period :=
  ⟨fun _ => True⟩

instance : Lawful Period where
  plain_encode :=
    fun period => Value.Plain.object _ (by simp [plain_encode])
  decode_encode := by
    rintro ⟨start, finish⟩ _
    have first : decode (encode start) = some start := decode_encode trivial
    have last : decode (encode finish) = some finish :=
      decode_encode trivial
    show decodePeriod (.object _) = _
    rw [decodePeriod, required?_object (by rfl) (by decide)]
    simp [first, last]
  inRange_of_decode := fun _ => trivial

theorem plain_encodeTimed
    (id : String)
    (period : Period) :
    (encodeTimed id period).Plain :=
  Value.Plain.object _ (by simp [plain_encode])

theorem decodeTimed_encodeTimed
    (id : String)
    (period : Period) :
    decodeTimed (encodeTimed id period) = some (id, period) := by
  have name : decode (encode id) = some id := decode_encode trivial
  have time : decode (encode period) = some period := decode_encode trivial
  rw [decodeTimed, encodeTimed, required?_object (by rfl) (by decide)]
  simp [name, time]

instance : Ranged TimeBound :=
  ⟨fun _ => True⟩

instance : Lawful TimeBound where
  plain_encode := fun bound => plain_encodeTimed bound.id bound.period
  decode_encode := fun {bound} _ =>
    congrArg (Option.map _) (decodeTimed_encodeTimed bound.id bound.period)
  inRange_of_decode := fun _ => trivial

instance : Ranged PeriodVariable :=
  ⟨fun _ => True⟩

instance : Lawful PeriodVariable where
  plain_encode := fun timed => plain_encodeTimed timed.id timed.period
  decode_encode := fun {timed} _ =>
    congrArg (Option.map _) (decodeTimed_encodeTimed timed.id timed.period)
  inRange_of_decode := fun _ => trivial

/-! ## Records with numbers -/

section Fields

variable {α β γ δ : Type} [Persistent α] [Persistent β] [Persistent γ]
  [Persistent δ] [Ranged α] [Ranged β] [Ranged γ] [Ranged δ] [Lawful β]
  [Lawful γ] [Lawful δ]

/-- A record of two lawful fields is lawful. -/
theorem lawful_of_two
    (former latter : String)
    (distinct : [former, latter].Nodup)
    (make : β → γ → α)
    (first : α → β)
    (second : α → γ)
    (made : ∀ value, make (first value) (second value) = value)
    (ranged :
      ∀ one two, InRange (make one two) ↔ InRange one ∧ InRange two)
    (encoded :
      ∀ value, encode value =
        .object
          [(former, encode (first value)),
            (latter, encode (second value))])
    (decoded :
      ∀ written, decode written = do
        match ← required? [former, latter] written with
        | [one, two] => return make (← decode one) (← decode two)
        | _ => none) :
    Lawful α where
  plain_encode := by
    intro value
    rw [encoded]
    exact Value.Plain.object _ (by simp [plain_encode])
  decode_encode := by
    intro value inRange
    rw [← made value, ranged] at inRange
    rw [encoded, decoded, required?_object (by rfl) distinct]
    simp [decode_encode inRange.1, decode_encode inRange.2, made]
  inRange_of_decode := by
    intro written value given
    rw [decoded] at given
    rcases Option.bind_eq_some_iff.1 given with ⟨values, _, given⟩
    split at given
    · simp only [Option.bind_eq_bind, Option.bind_eq_some_iff] at given
      rcases given with ⟨one, here, two, there, finished⟩
      cases finished
      exact (ranged one two).2
        ⟨inRange_of_decode here, inRange_of_decode there⟩
    · cases given

/-- A record of three lawful fields is lawful. -/
theorem lawful_of_three
    (former middle latter : String)
    (distinct : [former, middle, latter].Nodup)
    (make : β → γ → δ → α)
    (first : α → β)
    (second : α → γ)
    (third : α → δ)
    (made :
      ∀ value, make (first value) (second value) (third value) = value)
    (ranged :
      ∀ one two three, InRange (make one two three) ↔
        InRange one ∧ InRange two ∧ InRange three)
    (encoded :
      ∀ value, encode value =
        .object
          [(former, encode (first value)),
            (middle, encode (second value)),
            (latter, encode (third value))])
    (decoded :
      ∀ written, decode written = do
        match ← required? [former, middle, latter] written with
        | [one, two, three] =>
            return make (← decode one) (← decode two) (← decode three)
        | _ => none) :
    Lawful α where
  plain_encode := by
    intro value
    rw [encoded]
    exact Value.Plain.object _ (by simp [plain_encode])
  decode_encode := by
    intro value inRange
    rw [← made value, ranged] at inRange
    rw [encoded, decoded, required?_object (by rfl) distinct]
    simp [decode_encode inRange.1, decode_encode inRange.2.1,
      decode_encode inRange.2.2, made]
  inRange_of_decode := by
    intro written value given
    rw [decoded] at given
    rcases Option.bind_eq_some_iff.1 given with ⟨values, _, given⟩
    split at given
    · simp only [Option.bind_eq_bind, Option.bind_eq_some_iff] at given
      rcases given with ⟨one, here, two, there, three, last, finished⟩
      cases finished
      exact (ranged one two three).2
        ⟨inRange_of_decode here, inRange_of_decode there,
          inRange_of_decode last⟩
    · cases given

end Fields

instance : Ranged Inequality :=
  ⟨fun inequality =>
    InRange inequality.coefficients ∧ InRange inequality.bias⟩

instance : Lawful Inequality :=
  lawful_of_two "coefficients" "bias" (by decide) Inequality.mk
    Inequality.coefficients Inequality.bias (fun _ => rfl)
    (fun _ _ => Iff.rfl) (fun _ => rfl) fun _ => rfl

instance : Ranged Constraint :=
  ⟨fun constraint => InRange constraint.row⟩

instance : Lawful Constraint :=
  lawful_of_two "id" "row" (by decide) Constraint.mk Constraint.id
    Constraint.row (fun _ => rfl)
    (fun _ _ => ⟨fun inRange => ⟨trivial, inRange⟩, And.right⟩)
    (fun _ => rfl) fun _ => rfl

instance : Ranged Polyhedron :=
  ⟨fun polyhedron =>
    InRange polyhedron.rows ∧
    InRange polyhedron.bounds ∧
    InRange polyhedron.columns⟩

instance : Lawful Polyhedron :=
  lawful_of_three "A" "b" "ncols" (by decide) Polyhedron.mk Polyhedron.rows
    Polyhedron.bounds Polyhedron.columns (fun _ => rfl)
    (fun _ _ _ => Iff.rfl) (fun _ => rfl) fun _ => rfl

instance : Ranged Shape :=
  ⟨fun shape => InRange shape.rows ∧ InRange shape.columns⟩

instance : Lawful Shape :=
  lawful_of_two "nrows" "ncols" (by decide) Shape.mk Shape.rows
    Shape.columns (fun _ => rfl) (fun _ _ => Iff.rfl) (fun _ => rfl)
    fun _ => rfl

instance : Ranged SparseMatrix :=
  ⟨fun matrix =>
    InRange matrix.rows ∧
    InRange matrix.columns ∧
    InRange matrix.values ∧
    InRange matrix.shape⟩

instance : Lawful SparseMatrix where
  plain_encode :=
    fun matrix => Value.Plain.object _ (by simp [plain_encode])
  decode_encode := by
    rintro ⟨rows, columns, values, shape⟩
      ⟨rowsRange, columnsRange, valuesRange, shapeRange⟩
    have rowsRead : decode (encode rows) = some rows :=
      decode_encode rowsRange
    have columnsRead : decode (encode columns) = some columns :=
      decode_encode columnsRange
    have valuesRead : decode (encode values) = some values :=
      decode_encode valuesRange
    have shapeRead : decode (encode shape) = some shape :=
      decode_encode shapeRange
    show decodeSparseMatrix (.object _) = _
    rw [decodeSparseMatrix, required?_object (by rfl) (by decide)]
    simp [rowsRead, columnsRead, valuesRead, shapeRead]
  inRange_of_decode := by
    intro written matrix given
    rcases Option.bind_eq_some_iff.1 given with ⟨fields, _, given⟩
    split at given
    · simp only [Option.bind_eq_bind, Option.bind_eq_some_iff] at given
      rcases given with
        ⟨rows, rowsRead, columns, columnsRead, values, valuesRead, shape,
          shapeRead, finished⟩
      cases finished
      exact ⟨inRange_of_decode rowsRead, inRange_of_decode columnsRead,
        inRange_of_decode valuesRead, inRange_of_decode shapeRead⟩
    · cases given

/-! ## Problems -/

instance : Ranged BoundedVariable :=
  ⟨fun bounded => InRange bounded.least ∧ InRange bounded.greatest⟩

instance : Lawful BoundedVariable where
  plain_encode :=
    fun bounded => Value.Plain.object _ (by simp [plain_encode])
  decode_encode := by
    rintro ⟨id, least, greatest⟩ ⟨leastRange, greatestRange⟩
    have name : decode (encode id) = some id := decode_encode trivial
    have bounds :
        decodeBounds (encode [least, greatest]) =
          some (least, greatest) := by
      show (do
          let first ← decode (encode least)
          return (first, ← decode (encode greatest))) = _
      simp [decode_encode leastRange, decode_encode greatestRange]
    show decodeBoundedVariable (.object _) = _
    rw [decodeBoundedVariable, required?_object (by rfl) (by decide)]
    simp [name, bounds]
  inRange_of_decode := by
    intro written bounded given
    rcases Option.bind_eq_some_iff.1 given with ⟨fields, _, given⟩
    split at given
    · simp only [Option.bind_eq_bind, Option.bind_eq_some_iff] at given
      rcases given with ⟨⟨least, greatest⟩, boundsRead, id, _, finished⟩
      cases finished
      unfold decodeBounds at boundsRead
      split at boundsRead
      · simp only [Option.bind_eq_bind, Option.bind_eq_some_iff]
          at boundsRead
        rcases boundsRead with ⟨_, leastRead, _, greatestRead, both⟩
        cases both
        exact ⟨inRange_of_decode leastRead, inRange_of_decode greatestRead⟩
      · cases boundsRead
    · cases given

instance : Ranged ProblemRows :=
  ⟨fun rows =>
    InRange rows.matrix ∧ InRange rows.bounds ∧ InRange rows.unknowns⟩

instance : Lawful ProblemRows :=
  lawful_of_three "A" "b" "variables" (by decide) ProblemRows.mk
    ProblemRows.matrix ProblemRows.bounds ProblemRows.unknowns
    (fun _ => rfl) (fun _ _ _ => Iff.rfl) (fun _ => rfl) fun _ => rfl

instance : Ranged Direction :=
  ⟨fun _ => True⟩

instance : Lawful Direction where
  plain_encode :=
    fun direction => Value.Plain.text (directionName direction)
  decode_encode := by
    intro direction _
    cases direction with
    | maximize => rfl
    | minimize => rfl
  inRange_of_decode := fun _ => trivial

instance : Ranged Problem :=
  ⟨fun problem => InRange problem.polyhedron ∧ InRange problem.objectives ∧
    InRange problem.direction⟩

instance : Lawful Problem :=
  lawful_of_three "polyhedron" "objectives" "direction" (by decide)
    Problem.mk Problem.polyhedron Problem.objectives Problem.direction
    (fun _ => rfl) (fun _ _ _ => Iff.rfl) (fun _ => rfl) fun _ => rfl

/-! ## Rule sets -/

theorem plain_encodeEnabledPeriod
    (enabled : Option Period) :
    (encodeEnabledPeriod enabled).Plain := by
  cases enabled with
  | none => exact Value.Plain.null
  | some period => exact plain_encode period

theorem decodeOption_encodeEnabledPeriod
    (enabled : Option Period) :
    decodeOption decode (some (encodeEnabledPeriod enabled)) =
      some enabled := by
  cases enabled with
  | none => rfl
  | some period =>
      have time : decode (encode period) = some period :=
        decode_encode trivial
      exact congrArg (Option.map some) time

instance : Ranged Ruleset :=
  ⟨fun ruleset => InRange ruleset.polyhedron⟩

instance : Lawful Ruleset where
  plain_encode := fun ruleset => Value.Plain.object _ (by
    simp [plain_encode, plain_encodeEnabledPeriod])
  decode_encode := by
    rintro
      ⟨polyhedron, ids, selectable, independent, supports, preferences,
        periods, enabled⟩ inRange
    have polyhedronRead : decode (encode polyhedron) = some polyhedron :=
      decode_encode inRange
    have set : ∀ ids : OrderedSet String, decode (encode ids) = some ids :=
      fun ids => decode_encode fun _ _ => trivial
    have periodsRead : decode (encode periods) = some periods :=
      decode_encode fun _ _ => trivial
    show decodeRuleset (.object _) = _
    rw [decodeRuleset, slots?_object rfl (by decide)]
    simp [polyhedronRead, set, periodsRead,
      decodeOption_encodeEnabledPeriod]
  inRange_of_decode := by
    intro written ruleset given
    rcases Option.bind_eq_some_iff.1 given with ⟨fields, _, given⟩
    split at given
    · -- The preferences may be missing; the polyhedron is read either way.
      rename_i preferences _ _ _
      cases preferences
      all_goals
        simp only [Option.bind_eq_bind, Option.bind_eq_some_iff] at given
        rcases given with
          ⟨_, _, polyhedron, polyhedronRead, _, _, _, _, _, _, _, _, _, _,
            _, _, finished⟩
        cases finished
        have inRange : InRange polyhedron :=
          inRange_of_decode polyhedronRead
        exact inRange
    · cases given

end Configurator.Persistence
