import Configurator.Optimizer.Exhaustive
import Configurator.Proofs.Optimizer.Optimal

/-!
# The exhaustive optimiser is exact

Rebuilding the rows of a sparse matrix gives the rows that it was made from,
and every point of zeros and ones is an assignment.  The best assignment so
far is feasible and no tried one is better, so a problem that has a feasible
point is solved by the answer, and the answer to every other problem reports
a failure.  There is an answer if the rows and the objective do not leave
the words.
-/

namespace Configurator.Optimizer

open Configurator.Arithmetic Configurator.Collection Configurator.Linear

/-! ## Rebuilding rows -/

/-- Write entries into a matrix one after another. -/
def setEntries
    (rows : List (List Int))
    (entries : List Entry) :
    Except Fault (List (List Int)) :=
  entries.foldlM
    (fun rows entry => setEntry rows entry.row entry.column entry.value)
    rows

theorem setEntries_append
    {rows result : List (List Int)}
    {first second : List Entry} :
    setEntries rows (first ++ second) = .ok result ↔
      ∃ between,
        setEntries rows first = .ok between ∧
        setEntries between second = .ok result := by
  simp only [setEntries]
  rw [List.foldlM_append, bind_eq_ok_iff]

private theorem setEntries_row
    (index : Nat)
    (written rest : List Int)
    {rows : List (List Int)}
    (here : rows[index]? = some (written ++ List.replicate rest.length 0)) :
    setEntries rows
        ((rest.zipIdx written.length).filterMap fun (value, column) =>
          if value = 0 then none else some (Entry.mk index column value)) =
      .ok (rows.set index (written ++ rest)) := by
  induction rest generalizing written rows with
  | nil =>
      rcases List.getElem?_eq_some_iff.1 here with ⟨inside, same⟩
      rw [List.length_nil, List.replicate_zero] at same
      rw [← same, List.set_getElem_self]
      rfl
  | cons value rest ih =>
      have extended :
          written ++ value :: rest = (written ++ [value]) ++ rest := by
        simp
      have next := fun between => @ih (written ++ [value]) between
      rw [List.length_append, List.length_singleton] at next
      rw [List.zipIdx_cons, List.filterMap_cons, extended]
      dsimp only
      by_cases zero : value = 0
      · rw [if_pos zero]
        apply next
        rw [here, zero]
        simp [List.replicate_succ]
      · rw [if_neg zero]
        have inside := (List.getElem?_eq_some_iff.1 here).1
        have written :
            setEntry rows index written.length value =
              .ok
                (rows.set index
                  ((written ++ [value]) ++
                    List.replicate rest.length 0)) := by
          simp only [setEntry]
          rw [here]
          simp [List.replicate_succ]
        show (setEntry rows index _ value >>=
               fun rows => setEntries rows _) =
          _
        rw [written]
        show setEntries _ _ = _
        rw [next]
        · rw [List.set_set]
        · rw [List.getElem?_set_self inside]

private theorem setEntries_rows
    {columns : Nat}
    (written rest : List (List Int))
    (widths : ∀ row ∈ rest, row.length = columns) :
    setEntries
        (written ++ List.replicate rest.length (List.replicate columns 0))
        ((rest.zipIdx written.length).flatMap fun (row, index) =>
          rowEntries index row) =
      .ok (written ++ rest) := by
  induction rest generalizing written with
  | nil => rfl
  | cons row rest ih =>
      have width := widths row List.mem_cons_self
      have here : (written ++ List.replicate (row :: rest).length
          (List.replicate columns 0))[written.length]? =
            some ([] ++ List.replicate row.length 0) := by
        simp [List.replicate_succ, width]
      have first := setEntries_row written.length [] row here
      have filled :
          (written ++
            List.replicate (row :: rest).length
              (List.replicate columns 0)).set written.length ([] ++ row) =
            (written ++ [row]) ++
              List.replicate rest.length (List.replicate columns 0) := by
        simp [List.replicate_succ]
      have later := ih (written ++ [row]) fun other member =>
        widths other (List.mem_cons_of_mem _ member)
      rw [filled] at first
      rw [List.length_append, List.length_singleton] at later
      rw [List.zipIdx_cons, List.flatMap_cons, setEntries_append]
      refine ⟨_, first, ?_⟩
      rw [later]
      simp

/-- Rebuilding the rows of a matrix in coordinate form gives the rows. -/
theorem denseRows_sparse
    {polyhedron : Polyhedron}
    {columns : Nat}
    (widths : ∀ row ∈ polyhedron.rows, row.length = columns) :
    denseRows polyhedron.sparse columns = .ok polyhedron.rows := by
  have rebuilt := setEntries_rows [] polyhedron.rows widths
  unfold denseRows Polyhedron.sparse
  dsimp only
  rw [List.zip_map', List.zip_map', List.foldlM_map]
  exact rebuilt

/-! ## Assignments -/

theorem length_assignment
    (count number : Nat) :
    (assignment count number).length = count := by
  rw [assignment, List.length_map, List.length_range]

theorem isBinary_assignment
    (count number : Nat) :
    IsBinary (assignment count number) := by
  intro entry member
  rcases List.mem_map.1 member with ⟨bit, _, rfl⟩
  split
  · exact Or.inr rfl
  · exact Or.inl rfl

/-- Every point of zeros and ones is an assignment. -/
theorem exists_assignment
    {point : List Int}
    (binary : IsBinary point) :
    ∃ number < 2 ^ point.length,
      assignment point.length number = point := by
  refine ⟨Nat.ofBits fun index : Fin point.length =>
    decide (point[index] = 1), Nat.ofBits_lt_two_pow _, ?_⟩
  apply List.ext_getElem (length_assignment _ _)
  intro index _ inside
  have entry := binary point[index] (List.getElem_mem inside)
  simp only [assignment, List.getElem_map, List.getElem_range]
  rw [Nat.testBit_ofBits_lt _ _ inside]
  rcases entry with zero | one
  · simp [zero]
  · simp [one]

/-! ## The search -/

/--
The result of trying some assignments: a feasible one with the greatest
value.
-/
def IsBest
    (polyhedron : Polyhedron)
    (objective : List Int)
    (count : Nat)
    (numbers : List Nat) :
    Option (Int × Nat) → Prop
  | none =>
      ∀ number ∈ numbers, ¬ polyhedron.Contains (assignment count number)
  | some (value, chosen) =>
      polyhedron.Contains (assignment count chosen) ∧
        value = inner objective (assignment count chosen) ∧
        ∀ number ∈ numbers, polyhedron.Contains (assignment count number) →
          inner objective (assignment count number) ≤ value

variable {polyhedron : Polyhedron} {objective : List Int} {count : Nat}
  {numbers : List Nat}

/-- Trying one more assignment keeps the best one. -/
theorem IsBest.improve
    {best next : Option (Int × Nat)}
    {number : Nat}
    (isBest : IsBest polyhedron objective count numbers best)
    (computed :
      improve (polyhedron.rows.zip polyhedron.bounds) objective count best
          number =
        .ok next) :
    IsBest polyhedron objective count (numbers ++ [number]) next := by
  simp only [Optimizer.improve, bind_eq_ok_iff] at computed
  rcases computed with ⟨verdict, tested, computed⟩
  have contained :
      verdict = true ↔ polyhedron.Contains (assignment count number) :=
    Polyhedron.meets_eq_ok tested
  cases verdict with
  | false =>
      have refused : ¬ polyhedron.Contains (assignment count number) := by
        rw [← contained]
        exact Bool.false_ne_true
      cases computed
      cases best with
      | none =>
          exact List.forall_mem_append.2
            ⟨isBest, List.forall_mem_singleton.2 refused⟩
      | some found =>
          rcases isBest with ⟨feasible, valueEq, greatest⟩
          exact ⟨feasible, valueEq, List.forall_mem_append.2
            ⟨greatest, List.forall_mem_singleton.2 fun impossible =>
              absurd impossible refused⟩⟩
  | true =>
      have feasible := contained.1 rfl
      simp only [if_true, bind_eq_ok_iff] at computed
      rcases computed with ⟨value, scored, computed⟩
      have valueEq := dot_eq_ok scored
      cases best with
      | none =>
          cases computed
          exact ⟨feasible, valueEq,
            List.forall_mem_append.2
              ⟨fun other member possible =>
                absurd possible (isBest other member),
                List.forall_mem_singleton.2 fun _ =>
                  Int.le_of_eq valueEq.symm⟩⟩
      | some found =>
          rcases found with ⟨greatest, chosen⟩
          rcases isBest with ⟨chosenFeasible, greatestEq, bound⟩
          dsimp only at computed
          split at computed
          · rename_i better
            cases computed
            exact ⟨feasible, valueEq, List.forall_mem_append.2
              ⟨fun other member possible =>
                Int.le_trans (bound other member possible)
                  (Int.le_of_lt better),
                List.forall_mem_singleton.2 fun _ =>
                  Int.le_of_eq valueEq.symm⟩⟩
          · rename_i worse
            cases computed
            rw [valueEq] at worse
            exact ⟨chosenFeasible, greatestEq,
              List.forall_mem_append.2
                ⟨bound,
                  List.forall_mem_singleton.2 fun _ => Int.not_lt.1 worse⟩⟩

/--
One more assignment is tried if the rows and its value do not leave the
words.
-/
theorem exists_improve
    (smallRows :
      ∀ row ∈ polyhedron.rows, magnitude row ≤ 9223372036854775807)
    (number : Nat)
    (smallValue :
      polyhedron.Contains (assignment count number) →
      magnitude (List.zipWith (· * ·) objective (assignment count number)) ≤
        9223372036854775807)
    (best : Option (Int × Nat)) :
    ∃ next,
      improve (polyhedron.rows.zip polyhedron.bounds) objective count best
          number =
        .ok next := by
  obtain ⟨verdict, tested⟩ :=
    Polyhedron.meets_of_small (isBinary_assignment count number)
      fun entry (member : entry ∈ polyhedron.rows.zip polyhedron.bounds) =>
        smallRows _ (List.of_mem_zip member).1
  simp only [improve, bind_eq_ok_iff]
  cases verdict with
  | false => exact ⟨best, false, tested, rfl⟩
  | true =>
      have scored :=
        dot_of_small (smallValue ((Polyhedron.meets_eq_ok tested).1 rfl))
      cases best with
      | none => exact ⟨_, true, tested, bind_eq_ok_iff.2 ⟨_, scored, rfl⟩⟩
      | some found =>
          exact ⟨_, true, tested, bind_eq_ok_iff.2 ⟨_, scored, rfl⟩⟩

theorem exists_foldlM_improve
    (smallRows :
      ∀ row ∈ polyhedron.rows, magnitude row ≤ 9223372036854775807)
    (smallValues :
      ∀ number,
        polyhedron.Contains (assignment count number) →
        magnitude
            (List.zipWith (· * ·) objective (assignment count number)) ≤
          9223372036854775807)
    (best : Option (Int × Nat)) :
    ∃ result,
      numbers.foldlM
          (improve (polyhedron.rows.zip polyhedron.bounds) objective count)
          best =
        .ok result := by
  induction numbers generalizing best with
  | nil => exact ⟨best, rfl⟩
  | cons number rest ih =>
      obtain ⟨next, improved⟩ :=
        exists_improve smallRows number (smallValues number) best
      obtain ⟨result, later⟩ := ih next
      refine ⟨result, ?_⟩
      rw [List.foldlM_cons, bind_eq_ok_iff]
      exact ⟨next, improved, later⟩

theorem IsBest.foldlM
    {best result : Option (Int × Nat)}
    {more : List Nat}
    (isBest : IsBest polyhedron objective count numbers best)
    (computed :
      more.foldlM
          (Optimizer.improve (polyhedron.rows.zip polyhedron.bounds)
            objective count) best =
        .ok result) :
    IsBest polyhedron objective count (numbers ++ more) result := by
  induction more generalizing numbers best with
  | nil =>
      cases computed
      rwa [List.append_nil]
  | cons number rest ih =>
      rw [List.foldlM_cons, bind_eq_ok_iff] at computed
      rcases computed with ⟨next, improved, later⟩
      have whole := ih (isBest.improve improved) later
      rwa [List.append_assoc] at whole

variable {ids : List String} {weights : OrderedMap String Int}

/-- A problem has as many unknowns as there are ids. -/
theorem length_unknowns_maximizing
    (polyhedron : Polyhedron)
    (ids : List String)
    (weights : OrderedMap String Int) :
    (Problem.maximizing polyhedron ids
        weights).polyhedron.unknowns.length =
      ids.length :=
  List.length_map _

/--
The best assignment is found by trying all of them with the rows of the
polyhedron.
-/
theorem bestAssignment_maximizing
    (widths : ∀ row ∈ polyhedron.rows, row.length = ids.length) :
    bestAssignment (Problem.maximizing polyhedron ids weights) =
      (List.range (2 ^ ids.length)).foldlM
        (improve (polyhedron.rows.zip polyhedron.bounds)
          (ids.map fun id => (weights.get? id).getD 0) ids.length)
        none := by
  have objectives :
      objectiveRow (Problem.maximizing polyhedron ids weights) =
        .ok (ids.map fun id => (weights.get? id).getD 0) := by
    unfold objectiveRow Problem.maximizing
    dsimp only
    rw [List.mapM_map]
    exact mapM_eq_ok fun id _ => rfl
  have rebuilt :
      denseRows
          (Problem.maximizing polyhedron ids weights).polyhedron.matrix
          ids.length =
        .ok polyhedron.rows :=
    denseRows_sparse widths
  simp only [bestAssignment]
  rw [length_unknowns_maximizing, rebuilt, objectives]
  rfl

theorem bestAssignment_eq_ok
    {best : Option (Int × Nat)}
    (widths : ∀ row ∈ polyhedron.rows, row.length = ids.length)
    (computed :
      bestAssignment (Problem.maximizing polyhedron ids weights) =
        .ok best) :
    IsBest polyhedron (ids.map fun id => (weights.get? id).getD 0)
      ids.length (List.range (2 ^ ids.length)) best := by
  rw [bestAssignment_maximizing widths] at computed
  exact @IsBest.foldlM polyhedron _ _ [] none best _
    (fun _ member => nomatch member) computed

/-! ## The answer -/

private theorem map_point_zip
    (nodup : ids.Nodup)
    {entries : List Int}
    (width : entries.length = ids.length) :
    ids.map
        (fun id => ((OrderedMap.ofList (ids.zip entries)).get? id).getD 0) =
      entries := by
  have keys : (ids.zip entries).map Prod.fst = ids :=
    List.map_fst_zip (Nat.le_of_eq width.symm)
  apply List.ext_getElem (by rw [List.length_map, width])
  intro index left right
  have inside : index < ids.length := by rwa [List.length_map] at left
  have listed : (ids[index], entries[index]) ∈
      (OrderedMap.ofList (ids.zip entries)).entries := by
    rw [OrderedMap.entries_ofList (by rwa [keys])]
    exact List.mem_of_getElem? (List.getElem?_zip_eq_some.2
      ⟨List.getElem?_eq_getElem inside, List.getElem?_eq_getElem right⟩)
  rw [List.getElem_map, OrderedMap.mem_entries.1 listed]
  rfl

theorem map_point_answerOf
    (nodup : ids.Nodup)
    (value : Int)
    (chosen : Nat) :
    ids.map
        (answerOf (Problem.maximizing polyhedron ids weights)
          (some (value, chosen))).point =
      assignment ids.length chosen := by
  have named :
      (Problem.maximizing polyhedron ids weights).polyhedron.unknowns.map
          BoundedVariable.id =
        ids := by
    show (ids.map BoundedVariable.binary).map BoundedVariable.id = ids
    rw [List.map_map]
    exact List.map_id _
  unfold answerOf
  dsimp only
  rw [named]
  exact map_point_zip nodup (length_assignment ids.length chosen)

/-- The values of an assignment in the polyhedron are feasible. -/
theorem feasible_answerOf
    (nodup : ids.Nodup)
    (sized : polyhedron.rows.length = polyhedron.bounds.length)
    (value : Int)
    {chosen : Nat}
    (contained : polyhedron.Contains (assignment ids.length chosen)) :
    (Problem.maximizing polyhedron ids weights).Feasible
      (answerOf (Problem.maximizing polyhedron ids weights)
        (some (value, chosen))).point := by
  rw [feasible_maximizing_iff sized, map_point_answerOf nodup]
  exact ⟨isBinary_assignment _ _, contained⟩

theorem single_answerOf
    {problem : Problem}
    {value : Int}
    {number : Nat} :
    Response.single ⟨[answerOf problem (some (value, number))]⟩ =
      .ok (answerOf problem (some (value, number))) := by
  have status : Status.ofText "optimal" = .optimal := by decide
  unfold Response.single answerOf
  dsimp only
  rw [status]

theorem single_answerOf_none
    {problem : Problem} :
    Response.single ⟨[answerOf problem none]⟩ =
      .error (.solverFailed "infeasible") := by
  have status : Status.ofText "mipfailed" = .failed := by decide
  unfold Response.single answerOf
  dsimp only
  rw [status]

theorem exhaustive_eq_ok
    {problem : Problem}
    {limit : Nat}
    {response : Response}
    (answered : exhaustive limit problem = .ok response) :
    ∃ best,
      bestAssignment problem = .ok best ∧
      response = ⟨[answerOf problem best]⟩ := by
  simp only [exhaustive] at answered
  split at answered
  · cases answered
  · simp only [bind_eq_ok_iff, faulting_eq_ok_iff] at answered
    rcases answered with ⟨best, computed, finished⟩
    cases finished
    exact ⟨best, computed, rfl⟩

theorem exhaustive_of_bestAssignment
    {problem : Problem}
    {limit : Nat}
    {best : Option (Int × Nat)}
    (few : problem.polyhedron.unknowns.length ≤ limit)
    (computed : bestAssignment problem = .ok best) :
    exhaustive limit problem = .ok ⟨[answerOf problem best]⟩ := by
  simp only [exhaustive]
  rw [if_neg (Nat.not_lt.2 few)]
  simp only [bind_eq_ok_iff, faulting_eq_ok_iff]
  exact ⟨best, computed, rfl⟩

/--
There is an answer if the rows and the objective do not leave the words.
-/
theorem exists_exhaustive
    {limit : Nat}
    (few : ids.length ≤ limit)
    (nodup : ids.Nodup)
    (widths : ∀ row ∈ polyhedron.rows, row.length = ids.length)
    (sized : polyhedron.rows.length = polyhedron.bounds.length)
    (smallRows :
      ∀ row ∈ polyhedron.rows, magnitude row ≤ 9223372036854775807)
    (smallValues :
      ∀ point,
        (Problem.maximizing polyhedron ids weights).Feasible point →
        magnitude (ids.map fun id => (weights.get? id).getD 0 * point id) ≤
          9223372036854775807) :
    ∃ response,
      exhaustive limit (Problem.maximizing polyhedron ids weights) =
        .ok response := by
  have smallProducts :
      ∀ number,
        polyhedron.Contains (assignment ids.length number) →
        magnitude
            (List.zipWith (· * ·)
              (ids.map fun id => (weights.get? id).getD 0)
              (assignment ids.length number)) ≤
          9223372036854775807 := by
    intro number contained
    have small := smallValues _ (feasible_answerOf nodup sized 0 contained)
    rwa [← map_point_answerOf nodup 0 number, List.zipWith_map,
      List.zipWith_self]
  obtain ⟨best, computed⟩ :=
    @exists_foldlM_improve polyhedron
      (ids.map fun id => (weights.get? id).getD 0) ids.length
      (List.range (2 ^ ids.length)) smallRows smallProducts none
  rw [← bestAssignment_maximizing widths] at computed
  exact ⟨_, exhaustive_of_bestAssignment
    (by rwa [length_unknowns_maximizing]) computed⟩

/-- A feasible point is an assignment that is tried. -/
theorem assignment_of_feasible
    (sized : polyhedron.rows.length = polyhedron.bounds.length)
    {point : String → Int}
    (feasible :
      (Problem.maximizing polyhedron ids weights).Feasible point) :
    ∃ number ∈ List.range (2 ^ ids.length),
      assignment ids.length number = ids.map point ∧
      polyhedron.Contains (assignment ids.length number) := by
  rcases (feasible_maximizing_iff sized).1 feasible with ⟨binary, contained⟩
  rcases exists_assignment binary with ⟨number, small, same⟩
  rw [List.length_map] at small same
  exact ⟨number, List.mem_range.2 small, same, same ▸ contained⟩

/--
What the exhaustive optimiser answers is a best assignment, if there is any.
-/
theorem exhaustive_isBest
    {limit : Nat}
    {response : Response}
    (widths : ∀ row ∈ polyhedron.rows, row.length = ids.length)
    (answered :
      exhaustive limit (Problem.maximizing polyhedron ids weights) =
        .ok response) :
    ∃ best,
      response =
        ⟨[answerOf (Problem.maximizing polyhedron ids weights) best]⟩ ∧
      IsBest polyhedron (ids.map fun id => (weights.get? id).getD 0)
        ids.length (List.range (2 ^ ids.length)) best := by
  rcases exhaustive_eq_ok answered with ⟨best, computed, same⟩
  exact ⟨best, same, bestAssignment_eq_ok widths computed⟩

/--
The exhaustive optimiser solves every problem that has a feasible point.
-/
theorem exhaustive_solves
    {limit : Nat}
    {response : Response}
    (nodup : ids.Nodup)
    (widths : ∀ row ∈ polyhedron.rows, row.length = ids.length)
    (sized : polyhedron.rows.length = polyhedron.bounds.length)
    (answered :
      exhaustive limit (Problem.maximizing polyhedron ids weights) =
        .ok response)
    (possible :
      ∃ point, (Problem.maximizing polyhedron ids weights).Feasible point) :
    response.Solves (Problem.maximizing polyhedron ids weights) := by
  rcases exhaustive_isBest widths answered with ⟨best, rfl, isBest⟩
  rcases possible with ⟨other, otherFeasible⟩
  cases best with
  | none =>
      rcases assignment_of_feasible sized otherFeasible with
        ⟨number, member, _, contained⟩
      exact absurd contained (isBest number member)
  | some found =>
      rcases found with ⟨value, chosen⟩
      refine ⟨_, single_answerOf,
        feasible_answerOf nodup sized value isBest.1, ?_⟩
      rcases isBest with ⟨_, valueEq, greatest⟩
      intro point feasible
      rcases assignment_of_feasible sized feasible with
        ⟨number, member, same, pointContained⟩
      show (Problem.maximizing polyhedron ids weights).objectiveAt point ≤
        (Problem.maximizing polyhedron ids weights).objectiveAt _
      rw [objectiveAt_maximizing, objectiveAt_maximizing,
        map_point_answerOf nodup, ← same, ← valueEq]
      exact greatest number member pointContained

/--
The exhaustive optimiser reports that a problem without a feasible point is
infeasible.
-/
theorem exhaustive_fails
    {limit : Nat}
    {response : Response}
    (nodup : ids.Nodup)
    (widths : ∀ row ∈ polyhedron.rows, row.length = ids.length)
    (sized : polyhedron.rows.length = polyhedron.bounds.length)
    (answered :
      exhaustive limit (Problem.maximizing polyhedron ids weights) =
        .ok response)
    (impossible :
      ¬ ∃ point,
        (Problem.maximizing polyhedron ids weights).Feasible point) :
    response.single = .error (.solverFailed "infeasible") := by
  rcases exhaustive_isBest widths answered with ⟨best, rfl, isBest⟩
  cases best with
  | none => exact single_answerOf_none
  | some found =>
      rcases found with ⟨value, chosen⟩
      exact absurd ⟨_, feasible_answerOf nodup sized value isBest.1⟩
        impossible

end Configurator.Optimizer
