import Configurator.Proofs.Logic.Linking
import Configurator.Proofs.Persistence.Records
import Configurator.Proofs.Ruleset.Compilation
import Configurator.Proofs.Ruleset.Safety

/-!
# Reading undoes writing

Every value of a persisted type whose numbers are in range is read back from
the text that is written for it.  A rule set is also checked when it is
read.  What was read before passes the checks again; and what was built
passes them because its rows are those of its model and every number in them
was checked on the way there.
-/

namespace Configurator

open Configurator.Arithmetic Configurator.Calendar Configurator.Collection
  Configurator.Linear Configurator.Logic Configurator.Optimizer
  Configurator.Persistence Configurator.Request Configurator.Schedule

/-! ## Numbers of compiled rows -/

namespace Linear.Polyhedron

variable {polyhedron grown : Polyhedron} {ids : OrderedSet String}
  {inequality : Inequality} {inequalities : List Inequality}

/-- The row of a form has no other numbers than the form and zero. -/
theorem inRange_project
    {form : Coefficients}
    {columns : Nat}
    {row : List Int}
    (weights : InRange form)
    (projected : project form ids columns = .ok row) :
    InRange row := by
  refine invariant_of_foldlM (fun current : List Int => InRange current) ?_
    ?_ projected
  · intro entry member
    rw [(List.mem_replicate.1 member).2]
    exact (by decide : IsWord 0)
  · rintro ⟨id, value⟩ member current next words step
    dsimp only at step
    split at step
    · cases step
    · split at step
      · cases step
        intro entry entryMember
        rcases List.mem_or_eq_of_mem_set entryMember with old | rfl
        · exact words entry old
        · exact weights _ (List.mem_map_of_mem member)
      · cases step

/-- All entries and all bounds are words. -/
def Words (polyhedron : Polyhedron) : Prop :=
  InRange polyhedron.rows ∧ InRange polyhedron.bounds

theorem Words.appendInequality
    (words : polyhedron.Words)
    (weights : InRange inequality.coefficients)
    (appended : polyhedron.appendInequality inequality ids = .ok grown) :
    grown.Words := by
  obtain ⟨row, projected, boundWord, _, rfl⟩ :=
    appendInequality_eq_ok appended
  constructor
  · exact List.forall_mem_append.2 ⟨words.1,
      List.forall_mem_singleton.2 (inRange_project weights projected)⟩
  · exact List.forall_mem_append.2
      ⟨words.2, List.forall_mem_singleton.2 boundWord⟩

theorem Words.appendAll
    (words : polyhedron.Words)
    (weights : ∀ inequality ∈ inequalities, InRange inequality.coefficients)
    (appended : polyhedron.appendAll inequalities ids = .ok grown) :
    grown.Words :=
  invariant_of_foldlM Words words
    (fun inequality member _ _ current step =>
      current.appendInequality (weights inequality member) step) appended

end Linear.Polyhedron

/--
A form with an inner bound has words as coefficients, also with another one.
-/
theorem Linear.Coefficients.inRange_insert
    {form : Coefficients}
    {bound value : Int}
    (bounded : form.innerBound = .ok bound)
    (isWord : IsWord value)
    (id : String) :
    InRange (form.insert id value) := by
  have small := (innerBound_eq_ok_iff.1 bounded).2
  intro weight member
  rcases mem_values_insert member with rfl | old
  · exact isWord
  · have below := natAbs_le_reach old
    simp only [greatestWord] at small
    exact isWord_of_natAbs_le (by omega)

namespace Logic

/-- The linking rows of a constraint have words as coefficients. -/
theorem Constraint.inRange_of_linkingRows
    {constraint : Constraint}
    {rows : List Inequality}
    (linked : constraint.linkingRows = .ok rows) :
    ∀ row ∈ rows, InRange row.coefficients := by
  simp only [linkingRows, supportImplies, impliesSupport,
    Inequality.innerBound, bind_eq_ok_iff] at linked
  rcases linked with
    ⟨implies, ⟨bound, bounded, _, _, impliesEq⟩, implied,
      ⟨negated, _, slackBound, slackBounded, slack, slackEq, impliedEq⟩,
      finished⟩
  cases impliesEq
  cases impliedEq
  cases finished
  rcases word_eq_ok_iff.1 slackEq with ⟨slackWord, rfl⟩
  have opposite : IsWord (-bound) := by
    have nonneg := constraint.row.coefficients.reach_nonneg
    rcases Coefficients.innerBound_eq_ok_iff.1 bounded with ⟨rfl, small⟩
    simp only [IsWord, leastWord, greatestWord] at small ⊢
    omega
  refine List.forall_mem_cons.2
    ⟨Coefficients.inRange_insert bounded opposite _, ?_⟩
  exact List.forall_mem_singleton.2
    (Coefficients.inRange_insert slackBounded slackWord _)

/-- All numbers in the polyhedron of a model are words. -/
theorem Model.words_of_polyhedron
    {model : Model}
    {polyhedron : Polyhedron}
    (computed : model.polyhedron = .ok polyhedron) :
    polyhedron.Words := by
  simp only [Model.polyhedron, bind_eq_ok_iff] at computed
  rcases computed with ⟨linked, rows, required⟩
  have none : (Polyhedron.unbounded model.ids.size).Words :=
    ⟨fun _ member => (List.not_mem_nil member).elim,
      fun _ member => (List.not_mem_nil member).elim⟩
  have words : linked.Words := by
    refine invariant_of_foldlM Polyhedron.Words none ?_ rows
    intro constraint _ current next currentWords step
    simp only [bind_eq_ok_iff, faulting_eq_ok_iff] at step
    rcases step with ⟨links, linksEq, appended⟩
    exact currentWords.appendAll (Constraint.inRange_of_linkingRows linksEq)
      appended
  refine words.appendAll (List.forall_mem_map.2 fun id _ => ?_) required
  intro weight member
  rw [List.mem_singleton.1 member]
  exact (by decide : IsWord 1)

end Logic

/-! ## Rule sets -/

namespace Ruleset

variable {ruleset : Ruleset}

/-- A rule set whose polyhedron is well shaped passes the checks. -/
theorem check_of_wellShaped
    (shape :
      (NamedPolyhedron.mk ruleset.polyhedron ruleset.ids).WellShaped) :
    ruleset.check = .ok () := by
  rw [check, if_neg (not_not_intro shape.columns_eq),
    Polyhedron.misshape?_eq_none_iff.2 shape.shaped]

/-- A rule set in range that passes the checks is read back. -/
theorem readRuleset_write
    (inRange : InRange ruleset)
    (passed : ruleset.check = .ok ()) :
    readRuleset (write ruleset) = .ok ruleset :=
  readRuleset_eq_ok_iff.2 ⟨read_of_write inRange, passed⟩

/--
A rule set that was built is in range, its columns aside, and passes the
checks.
-/
theorem built_inRange
    {builder : Builder}
    (built : builder.build = .ok ruleset)
    (columns : ruleset.ids.size < indexBound) :
    InRange ruleset ∧ ruleset.check = .ok () := by
  rcases Builder.build_eq_ok built with ⟨lowered, _, computed, idsEq, _⟩
  have represents := Model.polyhedron_represents computed
  have counted : ruleset.polyhedron.columns = ruleset.ids.size :=
    idsEq ▸ represents.columns_eq
  have words := Model.words_of_polyhedron computed
  refine ⟨⟨words.1, words.2, ?_⟩,
    check_of_wellShaped ⟨counted, represents.wellShaped⟩⟩
  rw [counted]
  exact columns

end Ruleset

/-! ## Persisted types -/

namespace Persistence

/--
Reading undoes writing for every persisted type.  Selections, periods and
what is made of them are read back whatever they say.  Inequalities,
constraints, polyhedra, matrices and problems are read back if their numbers
are words, and so is every rule set that was read or was built with
countable columns.
-/
theorem read_write_persisted :
    (∀ action : Action, read (write action) = .ok action) ∧
    (∀ selection : Selection, read (write selection) = .ok selection) ∧
    (∀ period : Period, read (write period) = .ok period) ∧
    (∀ bound : TimeBound, read (write bound) = .ok bound) ∧
    (∀ timed : PeriodVariable, read (write timed) = .ok timed) ∧
    (∀ inequality : Inequality,
      InRange inequality → read (write inequality) = .ok inequality) ∧
    (∀ constraint : Constraint,
      InRange constraint → read (write constraint) = .ok constraint) ∧
    (∀ polyhedron : Polyhedron,
      InRange polyhedron → read (write polyhedron) = .ok polyhedron) ∧
    (∀ matrix : SparseMatrix,
      InRange matrix → read (write matrix) = .ok matrix) ∧
    (∀ problem : Problem,
      InRange problem → read (write problem) = .ok problem) ∧
    (∀ (text : String) (ruleset : Ruleset),
      readRuleset text = .ok ruleset →
      readRuleset (write ruleset) = .ok ruleset) ∧
    ∀ (builder : Builder) (ruleset : Ruleset),
      builder.build = .ok ruleset →
      ruleset.ids.size < indexBound →
      readRuleset (write ruleset) = .ok ruleset := by
  refine ⟨fun _ => read_of_write trivial, fun _ => read_of_write trivial,
    fun _ => read_of_write trivial, fun _ => read_of_write trivial,
    fun _ => read_of_write trivial, fun _ => read_of_write,
    fun _ => read_of_write, fun _ => read_of_write, fun _ => read_of_write,
    fun _ => read_of_write, ?_, ?_⟩
  · intro text ruleset accepted
    rcases Ruleset.readRuleset_eq_ok_iff.1 accepted with ⟨found, passed⟩
    exact Ruleset.readRuleset_write (inRange_of_read found) passed
  · intro builder ruleset built columns
    rcases Ruleset.built_inRange built columns with ⟨inRange, passed⟩
    exact Ruleset.readRuleset_write inRange passed

/-- From before the year 0 to a leap second of a year with five digits. -/
def longPeriod : Period :=
  ⟨⟨⟨-44, 3, 15, by decide⟩, 1, 2, 3, 4, by decide, by decide, by decide,
     by decide⟩,
    ⟨⟨12345, 12, 31, by decide⟩, 23, 59, 60, 500000, by decide, by decide,
      by decide, by decide⟩⟩

/-- The text of a rule set whose fields are listed in their order. -/
def listedText : String :=
  "[[[[-9223372036854775808]],[1],1],[\"é\"],[],[],[],[],[],null]"

/-- The rule set of the text. -/
def listedRuleset : Ruleset :=
  ⟨⟨[[leastWord]], [1], 1⟩, OrderedSet.ofList ["é"], ∅, ∅, ∅, ∅, [], none⟩

/--
A constraint on an id with a quotation mark and a line feed, with the
extreme words.
-/
def extremeConstraint : Constraint :=
  ⟨"", ⟨Coefficients.ofList [("\"\n", leastWord)], greatestWord⟩⟩

/-- A problem with the extreme words. -/
def extremeProblem : Problem :=
  ⟨⟨⟨[0], [0], [leastWord], ⟨1, 1⟩⟩, [greatestWord],
     [⟨"é", leastWord, greatestWord⟩]⟩,
    [OrderedMap.ofList [("é", greatestWord)]], .minimize⟩

theorem read_write_extremes :
    read (write longPeriod) = .ok longPeriod ∧
    read (write extremeConstraint.row) = .ok extremeConstraint.row ∧
    read (write extremeConstraint) = .ok extremeConstraint ∧
    read (write listedRuleset.polyhedron) = .ok listedRuleset.polyhedron ∧
    read (write extremeProblem.polyhedron.matrix) =
      .ok extremeProblem.polyhedron.matrix ∧
    read (write extremeProblem) = .ok extremeProblem ∧
    readRuleset (write listedRuleset) = .ok listedRuleset ∧
    ∃ ruleset,
      ((Builder.ofModel Model.empty).run Builder.monthSteps).build =
        .ok ruleset ∧
      readRuleset (write ruleset) = .ok ruleset := by
  obtain ⟨_, _, period, _, _, inequality, constraint, polyhedron, matrix,
    problem, accepted, built⟩ := read_write_persisted
  have rowRange : InRange extremeConstraint.row := by
    show (∀ weight ∈ _, IsWord weight) ∧ IsWord _
    decide
  have polyhedronRange : InRange listedRuleset.polyhedron := by
    show (∀ row ∈ _, ∀ entry ∈ row, IsWord entry) ∧
    (∀ bound ∈ _, IsWord bound) ∧
    _ < indexBound
    decide
  have matrixRange : InRange extremeProblem.polyhedron.matrix := by
    show (∀ row ∈ _, row < indexBound) ∧
    (∀ column ∈ _, column < indexBound) ∧
    (∀ value ∈ _, IsWord value) ∧
    _ < indexBound ∧
    _ < indexBound
    decide
  have problemRange : InRange extremeProblem := by
    refine ⟨⟨matrixRange, ?_, ?_⟩, ?_, trivial⟩
    · show ∀ bound ∈ _, IsWord bound
      decide
    · show ∀ bounded ∈ _,
        IsWord (BoundedVariable.least bounded) ∧ IsWord bounded.greatest
      decide
    · show ∀ objective ∈ _, ∀ value ∈ OrderedMap.values objective,
        IsWord value
      decide
  refine ⟨period _, inequality _ rowRange, constraint _ rowRange,
    polyhedron _ polyhedronRange, matrix _ matrixRange,
    problem _ problemRange, accepted listedText _ (by decide +kernel), ?_⟩
  have countable :
      ((Builder.ofModel Model.empty).run
        Builder.monthSteps).build.toOption.any
          (fun ruleset => ruleset.ids.size < indexBound) =
        true := by
    decide +kernel
  cases found :
    ((Builder.ofModel Model.empty).run Builder.monthSteps).build with
  | error cause =>
      rw [found] at countable
      cases countable
  | ok ruleset =>
      rw [found] at countable
      exact ⟨ruleset, rfl, built _ _ found (of_decide_eq_true countable)⟩

end Persistence

end Configurator
