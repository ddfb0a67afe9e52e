import Configurator.Proofs.Linear.Shape

/-!
# Appending in place

A polyhedron grows in place: an inequality between named variables is
projected onto a row, and the row and its bound are pushed one after the
other.  An attempt that fails has pushed nothing yet.  Two evaluations have
to agree afterwards: the row is multiplied with a point column by column,
and the inequality takes the values of its ids from an assignment.  Their
partial sums differ, so they agree wherever neither of them overflows.
-/

namespace Configurator

open Configurator.Arithmetic Configurator.Collection

namespace Linear

/-! ## Evaluation by name -/

/--
The assignment that names the entries of a point by the ids of their
columns.
-/
def naming
    (ids : OrderedSet String)
    (point : List Int)
    (id : String) :
    Option Int :=
  (ids.indexOf? id).bind fun column => point[column]?

theorem getD_naming
    (ids : OrderedSet String)
    (point : List Int)
    (id : String) :
    (naming ids point id).getD 0 = entryOf ids point id :=
  rfl

namespace Inequality

variable {inequality : Inequality} {assignment : String → Option Int}

/-- A verdict that is returned says whether the inequality holds. -/
theorem holdsAt_eq_ok
    {verdict : Bool}
    (computed : inequality.holdsAt assignment = .ok verdict) :
    verdict = true ↔ inequality.Holds fun id => (assignment id).getD 0 := by
  simp only [holdsAt, bind_eq_ok_iff, word_eq_ok_iff] at computed
  obtain ⟨form, multiplied, _, ⟨_, rfl⟩, finished⟩ := computed
  cases finished
  have formEq :
      form =
        inequality.coefficients.form fun id => (assignment id).getD 0 := by
    rw [dot_eq_ok multiplied, Arithmetic.inner, Coefficients.values,
      Coefficients.ids, List.map_map, List.zipWith_map_left,
      List.zipWith_map_right, List.zipWith_self]
    rfl
  rw [decide_eq_true_iff, formEq]
  rfl

theorem holdsAt_eq_error
    {fault : Fault}
    (failed : inequality.holdsAt assignment = .error fault) :
    fault = .overflow := by
  simp only [holdsAt, bind_eq_error_iff] at failed
  rcases failed with multiplied | ⟨_, _, biased | ⟨_, _, finished⟩⟩
  · exact dot_eq_error multiplied
  · exact (word_eq_error_iff.1 biased).2
  · cases finished

end Inequality

/-! ## Evaluation by position -/

namespace Polyhedron

variable {polyhedron grown : Polyhedron} {inequality : Inequality}
  {ids : OrderedSet String} {point : List Int}

theorem meets_eq_error
    {entries : List (List Int × Int)}
    {fault : Fault}
    (failed : meets point entries = .error fault) :
    fault = .overflow := by
  induction entries with
  | nil => cases failed
  | cons entry rest ih =>
      simp only [meets, bind_eq_error_iff] at failed
      rcases failed with multiplied | ⟨_, _, later⟩
      · exact dot_eq_error multiplied
      · split at later
        · exact ih later
        · cases later

/--
There is a verdict on every point with an entry for each column, unless a
sum overflows.
-/
theorem exists_verdict
    (width : point.length = polyhedron.columns)
    (bounded : polyhedron.satisfies point ≠ .error .overflow) :
    ∃ verdict, polyhedron.satisfies point = .ok verdict := by
  cases computed : polyhedron.satisfies point with
  | ok verdict => exact ⟨verdict, rfl⟩
  | error fault =>
      rw [satisfies, if_pos width] at computed
      rw [satisfies, if_pos width, computed, meets_eq_error computed]
        at bounded
      exact absurd rfl bounded

/-- Rows in front are met first. -/
theorem meets_append
    {first second : List (List Int × Int)} :
    meets point (first ++ second) =
      meets point first >>=
        fun met => if met then meets point second else .ok false := by
  induction first with
  | nil => rfl
  | cons entry rest ih =>
      rcases entry with ⟨row, bound⟩
      simp only [List.cons_append, meets]
      cases dot row point with
      | error fault => rfl
      | ok value =>
          show (if bound ≤ value then _ else _) =
            (if bound ≤ value then _ else _) >>= _
          split
          · exact ih
          · rfl

/-! ## Growing in place -/

/--
Push a row and then its bound onto the polyhedron at hand, if the row has
its width.
-/
def push
    (row : List Int)
    (bound : Int) :
    EStateM Failure Polyhedron Unit := do
  let columns := (← get).columns
  unless row.length = columns do
    throw (.error (.rowWidth row columns))
  modify fun current => { current with rows := current.rows ++ [row] }
  modify fun current => { current with bounds := current.bounds ++ [bound] }

/-- Push the row of an inequality onto the polyhedron at hand. -/
def pushInequality
    (inequality : Inequality)
    (ids : OrderedSet String) :
    EStateM Failure Polyhedron Unit := do
  let row ← ofExcept
    (liftError (project inequality.coefficients ids (← get).columns))
  let bound ← ofExcept (liftFault (word (-inequality.bias)))
  push row bound

theorem run_push
    (row : List Int)
    (bound : Int) :
    (push row bound).run polyhedron = match polyhedron.append row bound with
      | .ok grown => .ok () grown
      | .error cause => .error (.error cause) polyhedron := by
  have opened : (push row bound).run polyhedron =
      (if row.length = polyhedron.columns then
          (do
            modify fun current =>
              { current with rows := current.rows ++ [row] }
            modify fun current =>
              { current with bounds := current.bounds ++ [bound] })
        else throw (.error (.rowWidth row polyhedron.columns)) :
          EStateM Failure Polyhedron Unit).run polyhedron :=
    rfl
  rw [opened, append]
  by_cases width : row.length = polyhedron.columns
  · rw [if_pos width, if_pos width]
    rfl
  · rw [if_neg width, if_neg width]
    rfl

/-- A check in front leaves the polyhedron as it is. -/
private theorem run_ofExcept_bind
    {α β : Type}
    (check : Except Failure α)
    (next : α → EStateM Failure Polyhedron β) :
    (ofExcept check >>= next).run polyhedron = match check with
      | .ok value => (next value).run polyhedron
      | .error cause => .error cause polyhedron := by
  cases check with
  | ok value => rfl
  | error cause => rfl

/--
Growing in place ends as appending does, and what ends with a failure has
pushed nothing.
-/
theorem run_pushInequality :
    (pushInequality inequality ids).run polyhedron =
      match polyhedron.appendInequality inequality ids with
      | .ok grown => .ok () grown
      | .error cause => .error cause polyhedron := by
  have opened :
      (pushInequality inequality ids).run polyhedron =
        (ofExcept
          (liftError
            (project inequality.coefficients ids polyhedron.columns)) >>=
          fun row =>
            ofExcept (liftFault (word (-inequality.bias))) >>=
              push row).run polyhedron :=
    rfl
  rw [opened, run_ofExcept_bind, appendInequality]
  cases project inequality.coefficients ids polyhedron.columns with
  | error cause => rfl
  | ok row =>
      show (ofExcept (liftFault (word (-inequality.bias))) >>= push row).run
          polyhedron =
        _
      rw [run_ofExcept_bind]
      cases word (-inequality.bias) with
      | error fault => rfl
      | ok bound =>
          show (push row bound).run polyhedron =
            match liftError (polyhedron.append row bound) with
            | .ok grown => .ok () grown
            | .error cause => .error cause polyhedron
          rw [run_push]
          cases polyhedron.append row bound with
          | error cause => rfl
          | ok grown => rfl

/-! ## The appended row -/

/--
An inequality can be appended exactly if its ids have columns, unless its
bias overflows.
-/
theorem appendInequality_iff_known
    (width : polyhedron.columns = ids.size)
    (bounded :
      polyhedron.appendInequality inequality ids ≠
        .error (.fault .overflow)) :
    (∃ grown, polyhedron.appendInequality inequality ids = .ok grown) ↔
      ∀ id ∈ inequality.coefficients.ids, id ∈ ids := by
  constructor
  · rintro ⟨grown, appended⟩
    obtain ⟨row, projected, _⟩ := appendInequality_eq_ok appended
    rw [width] at projected
    exact (project_eq_ok_iff.1 projected).1
  · intro known
    have projected :
        project inequality.coefficients ids polyhedron.columns =
          .ok (inequality.coefficients.row ids) := by
      rw [width]
      exact project_eq_ok_iff.2 ⟨known, rfl⟩
    have fits :
        (inequality.coefficients.row ids).length = polyhedron.columns := by
      rw [width, Coefficients.row, List.length_map, OrderedSet.size]
    cases negated : word (-inequality.bias) with
    | error fault =>
        have overflown : polyhedron.appendInequality inequality ids =
            .error (.fault .overflow) := by
          rw [appendInequality, projected]
          show (liftFault (word (-inequality.bias)) >>= fun bound =>
              liftError (polyhedron.append
                (inequality.coefficients.row ids) bound)) =
            _
          rw [negated, (word_eq_error_iff.1 negated).2]
          rfl
        exact absurd overflown bounded
    | ok bound =>
        have pushed :
            ∃ grown,
              polyhedron.append (inequality.coefficients.row ids) bound =
                .ok grown :=
          ⟨_, by rw [append, if_pos fits]⟩
        obtain ⟨grown, pushed⟩ := pushed
        refine ⟨grown, ?_⟩
        simp only [appendInequality, bind_eq_ok_iff, refusable_eq_ok_iff,
          faulting_eq_ok_iff]
        exact ⟨_, projected, _, negated, pushed⟩

/--
The grown polyhedron contains the points of the old one at which the
inequality holds.
-/
theorem contains_appended_iff
    (shaped : polyhedron.WellShaped)
    (width : polyhedron.columns = ids.size)
    (appended : polyhedron.appendInequality inequality ids = .ok grown)
    (length : point.length = ids.size) :
    grown.Contains point ↔
      polyhedron.Contains point ∧ inequality.Holds (entryOf ids point) := by
  obtain ⟨row, projected, _, _, rfl⟩ := appendInequality_eq_ok appended
  rw [width] at projected
  obtain ⟨known, rfl⟩ := project_eq_ok_iff.1 projected
  simp only [Contains]
  rw [List.zip_append shaped.1.symm, List.forall_mem_append]
  refine and_congr Iff.rfl ?_
  show (∀ entry ∈ [(inequality.coefficients.row ids, -inequality.bias)],
    entry.2 ≤ inner entry.1 point) ↔ _
  rw [List.forall_mem_singleton, inner_row known length, Inequality.Holds]
  omega

/--
A point meets the grown polyhedron exactly if it met the old one and the
inequality holds at the assignment that names its entries.
-/
theorem satisfies_appended_iff
    (shaped : polyhedron.WellShaped)
    (width : polyhedron.columns = ids.size)
    (appended : polyhedron.appendInequality inequality ids = .ok grown)
    (length : point.length = ids.size)
    {before byName after : Bool}
    (met : polyhedron.satisfies point = .ok before)
    (named : inequality.holdsAt (naming ids point) = .ok byName)
    (grownMet : grown.satisfies point = .ok after) :
    after = (before && byName) := by
  rw [Bool.eq_iff_iff, Bool.and_eq_true, satisfies_eq_ok grownMet,
    satisfies_eq_ok met, Inequality.holdsAt_eq_ok named]
  simp only [getD_naming]
  exact contains_appended_iff shaped width appended length

/-- A verdict on the grown polyhedron needs one on the old polyhedron. -/
theorem exists_verdict_before
    (shaped : polyhedron.WellShaped)
    (appended : polyhedron.appendInequality inequality ids = .ok grown)
    {after : Bool}
    (grownMet : grown.satisfies point = .ok after) :
    ∃ before, polyhedron.satisfies point = .ok before := by
  obtain ⟨row, _, _, _, rfl⟩ := appendInequality_eq_ok appended
  simp only [satisfies] at grownMet ⊢
  split at grownMet
  · rename_i length
    rw [List.zip_append shaped.1.symm, meets_append, bind_eq_ok_iff]
      at grownMet
    obtain ⟨before, met, _⟩ := grownMet
    exact ⟨before, by rw [if_pos length, met]⟩
  · cases grownMet

/--
Named and positional evaluation agree.  Unless the opposite of the bias
overflows, an inequality can be appended to a well-shaped polyhedron exactly
if all of its ids have columns; an attempt that fails leaves the polyhedron
as it was, and one that succeeds keeps its shape.  Afterwards a point meets
the polyhedron exactly if it did before and the inequality holds at the
assignment that names its entries, unless a sum overflows on the way.
-/
theorem appended_agrees
    (shaped : polyhedron.WellShaped)
    (width : polyhedron.columns = ids.size)
    (bounded :
      polyhedron.appendInequality inequality ids ≠
        .error (.fault .overflow)) :
    ((∃ grown, polyhedron.appendInequality inequality ids = .ok grown) ↔
      ∀ id ∈ inequality.coefficients.ids, id ∈ ids) ∧
    (∀ cause,
      polyhedron.appendInequality inequality ids = .error cause →
      (pushInequality inequality ids).run polyhedron =
        .error cause polyhedron) ∧
    ∀ grown,
      polyhedron.appendInequality inequality ids = .ok grown →
      (pushInequality inequality ids).run polyhedron = .ok () grown ∧
      grown.WellShaped ∧
      grown.columns = ids.size ∧
      ∀ point,
        grown.satisfies point ≠ .error .overflow →
        inequality.holdsAt (naming ids point) ≠ .error .overflow →
        (grown.satisfies point = .ok true ↔
          polyhedron.satisfies point = .ok true ∧
          inequality.holdsAt (naming ids point) = .ok true) ∧
        (point.length = ids.size →
          ∃ before byName,
            polyhedron.satisfies point = .ok before ∧
            inequality.holdsAt (naming ids point) = .ok byName ∧
            grown.satisfies point = .ok (before && byName)) := by
  refine ⟨appendInequality_iff_known width bounded, ?_, ?_⟩
  · intro cause failed
    rw [run_pushInequality, failed]
  · intro grown appended
    obtain ⟨grownShaped, sameColumns⟩ := shaped.appendInequality appended
    refine ⟨by rw [run_pushInequality, appended], grownShaped,
      sameColumns.trans width, ?_⟩
    intro point positional named
    have verdicts (length : point.length = ids.size) :
        ∃ before byName, polyhedron.satisfies point = .ok before ∧
          inequality.holdsAt (naming ids point) = .ok byName ∧
          grown.satisfies point = .ok (before && byName) := by
      obtain ⟨after, grownMet⟩ :=
        exists_verdict (by rw [length, sameColumns, width]) positional
      obtain ⟨before, met⟩ := exists_verdict_before shaped appended grownMet
      cases held : inequality.holdsAt (naming ids point) with
      | error fault =>
          rw [held, Inequality.holdsAt_eq_error held] at named
          exact absurd rfl named
      | ok byName =>
          rw [satisfies_appended_iff shaped width appended length met held
              grownMet] at grownMet
          exact ⟨before, byName, met, rfl, grownMet⟩
    refine ⟨?_, verdicts⟩
    by_cases length : point.length = ids.size
    · obtain ⟨before, byName, met, held, grownMet⟩ := verdicts length
      rw [met, held, grownMet]
      simp
    · rw [satisfies, satisfies, sameColumns, width, if_neg length,
        if_neg length]
      simp

/--
Requiring the second of two variables takes the point away at which only the
first is one.
-/
theorem appended_agrees_require :
    ∃ grown : Polyhedron,
      (⟨[[1, 0]], [0], 2⟩ : Polyhedron).appendInequality (.require "b")
          (.ofList ["a", "b"]) =
        .ok grown ∧
      grown.WellShaped ∧
      ((pushInequality (.require "b") (.ofList ["a", "b"])).run
          ⟨[[1, 0]], [0], 2⟩ =
        .ok () grown) ∧
      ¬ grown.satisfies [1, 0] = .ok true ∧
      grown.satisfies [0, 1] = .ok true := by
  have shaped : (⟨[[1, 0]], [0], 2⟩ : Polyhedron).WellShaped := by
    simp [WellShaped]
  obtain ⟨_, _, whenever⟩ :=
    @appended_agrees _ (.require "b") (.ofList ["a", "b"]) shaped
      (by decide +kernel) (by decide +kernel)
  obtain ⟨run, grownShaped, _, verdict⟩ :=
    whenever ⟨[[1, 0], [0, 1]], [0, 1], 2⟩ (by decide +kernel)
  refine ⟨_, by decide +kernel, grownShaped, run, ?_, ?_⟩
  · rw [(verdict [1, 0] (by decide +kernel) (by decide +kernel)).1]
    decide +kernel
  · rw [(verdict [0, 1] (by decide +kernel) (by decide +kernel)).1]
    decide +kernel

end Polyhedron
end Linear
end Configurator
