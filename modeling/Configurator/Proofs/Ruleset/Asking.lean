import Configurator.Proofs.Optimizer.Exhaustive
import Configurator.Ruleset.Query

/-!
# What an optimiser is asked

The problem of a query has the rows of its polyhedron and the weights of its
objective, both without the independent columns.  A point of the problem is
feasible exactly if the inequalities of the query hold at it when all other
variables are taken as zero, and its objective is then the weighted sum.
The exhaustive optimiser solves such a problem or reports that it is
infeasible.
-/

namespace Configurator

open Configurator.Arithmetic Configurator.Calendar Configurator.Collection
  Configurator.Linear Configurator.Optimizer

namespace Query

variable {query : Query}

/-- The variables of the problem. -/
def decided (query : Query) : List String :=
  query.ids.toList.filter fun id => id ∉ query.independent

theorem map_fst_decidedColumns
    (query : Query) :
    query.decidedColumns.map Prod.fst = query.decided := by
  have listed : query.ids.toList.zipIdx.map Prod.fst = query.ids.toList :=
    List.zipIdx_map_fst 0 _
  simp only [decided]
  rw [← listed, List.filter_map]
  rfl

theorem decided_nodup (query : Query) : query.decided.Nodup :=
  query.ids.nodup.sublist List.filter_sublist

theorem mem_decided
    {id : String} :
    id ∈ query.decided ↔ id ∈ query.ids ∧ id ∉ query.independent := by
  simp only [decided]
  rw [List.mem_filter, decide_eq_true_eq]
  exact Iff.rfl

/-- The columns of the problem hold the coefficients of its variables. -/
theorem pick_row
    (query : Query)
    (coefficients : Coefficients) :
    Polyhedron.pick (query.decidedColumns.map Prod.snd)
        (coefficients.row query.ids) =
      .ok (query.decided.map coefficients.coefficient) := by
  have column :
      ∀ entry ∈ query.decidedColumns,
        (coefficients.row query.ids)[entry.2]? =
          some (coefficients.coefficient entry.1) := by
    intro entry member
    have indexed := (List.mem_filter.1 member).1
    have here := List.mk_mem_zipIdx_iff_getElem?.1 indexed
    rw [Coefficients.row, List.getElem?_map, here]
    rfl
  have picked :
      Polyhedron.pick (query.decidedColumns.map Prod.snd)
          (coefficients.row query.ids) =
        .ok ((query.decidedColumns.map Prod.snd).map fun index =>
          ((coefficients.row query.ids)[index]?).getD 0) := by
    apply mapM_eq_ok
    intro index member
    rcases List.mem_map.1 member with ⟨entry, entryMember, rfl⟩
    rw [column entry entryMember]
    rfl
  rw [picked, ← map_fst_decidedColumns, List.map_map, List.map_map]
  congr 1
  apply List.map_congr_left
  intro entry member
  rw [Function.comp_apply, column entry member]
  rfl

/--
The columns of the problem, by the inequalities that the polyhedron
represents.
-/
def decidedRows (query : Query) (rows : List Inequality) : Polyhedron :=
  ⟨rows.map fun row => query.decided.map row.coefficients.coefficient,
    rows.map fun row => -row.bias, query.decided.length⟩

theorem length_decidedRows
    (query : Query)
    (rows : List Inequality) :
    ∀ entries ∈ (query.decidedRows rows).rows,
      entries.length = query.decided.length := by
  intro entries member
  rcases List.mem_map.1 member with ⟨row, _, rfl⟩
  exact List.length_map _

theorem sized_decidedRows
    (query : Query)
    (rows : List Inequality) :
    (query.decidedRows rows).rows.length =
      (query.decidedRows rows).bounds.length := by
  simp [decidedRows]

theorem selectColumns_eq
    (query : Query)
    {rows : List Inequality}
    (represents : query.polyhedron.Represents query.ids rows) :
    query.polyhedron.selectColumns (query.decidedColumns.map Prod.snd) =
      .ok (query.decidedRows rows) := by
  have picked :
      query.polyhedron.rows.mapM
          (Polyhedron.pick (query.decidedColumns.map Prod.snd)) =
        .ok
          (rows.map fun row =>
            query.decided.map row.coefficients.coefficient) := by
    rw [represents.rows_eq, List.mapM_map]
    exact mapM_eq_ok fun row _ => query.pick_row row.coefficients
  have width :
      (query.decidedColumns.map Prod.snd).length =
        query.decided.length := by
    rw [← map_fst_decidedColumns, List.length_map, List.length_map]
  rw [Polyhedron.selectColumns, picked, decidedRows, ← width,
    represents.bounds_eq]
  rfl

/-- The weights of the variables of the problem. -/
def objective (query : Query) : OrderedMap String Int :=
  OrderedMap.ofList (query.decided.filterMap fun id =>
    (query.weights.values.get? id).map fun weight => (id, weight))

/-- The problem, by the inequalities that the polyhedron represents. -/
def problemOf (query : Query) (rows : List Inequality) : Problem :=
  Problem.maximizing (query.decidedRows rows) query.decided query.objective

theorem problem_eq
    (query : Query)
    {rows : List Inequality}
    (represents : query.polyhedron.Represents query.ids rows) :
    query.problem = .ok (query.problemOf rows) := by
  rw [problem, query.selectColumns_eq represents]
  show Except.ok _ = _
  rw [map_fst_decidedColumns]
  rfl

/--
Products of listed values are those of a form where the other variables are
zero.
-/
private theorem inner_decided
    (query : Query)
    {entries : List (String × Int)}
    (nodup : (entries.map Prod.fst).Nodup)
    (point : String → Int) :
    inner (query.decided.map fun id => (entries.lookup id).getD 0)
        (query.decided.map point) =
      weighted entries (masked query.decided point) := by
  rw [Arithmetic.inner, List.zipWith_map, List.zipWith_self]
  exact sum_lookup query.decided_nodup nodup point

/--
A point is feasible exactly if the inequalities hold where the other
variables are zero.
-/
theorem feasible_iff
    (query : Query)
    (rows : List Inequality)
    (point : String → Int) :
    (query.problemOf rows).Feasible point ↔
      (∀ id ∈ query.decided, point id = 0 ∨ point id = 1) ∧
      ∀ row ∈ rows, row.Holds (masked query.decided point) := by
  have contained :
      (query.decidedRows rows).Contains (query.decided.map point) ↔
        ∀ row ∈ rows, row.Holds (masked query.decided point) := by
    simp only [Polyhedron.Contains, decidedRows]
    rw [List.zip_map', List.forall_mem_map]
    refine forall₂_congr fun row _ => ?_
    have value : inner (query.decided.map row.coefficients.coefficient)
        (query.decided.map point) =
          row.coefficients.form (masked query.decided point) :=
      query.inner_decided row.coefficients.ids_nodup point
    show -row.bias ≤ inner _ _ ↔ 0 ≤ _ + row.bias
    rw [value]
    omega
  rw [problemOf, feasible_maximizing_iff (query.sized_decidedRows rows),
    contained, IsBinary, List.forall_mem_map]

theorem get?_objective
    {id : String}
    (member : id ∈ query.decided) :
    query.objective.get? id = query.weights.values.get? id := by
  have keys : (query.decided.filterMap fun id =>
      (query.weights.values.get? id).map fun weight =>
        (id, weight)).map Prod.fst =
          query.decided.filter fun id =>
            (query.weights.values.get? id).isSome := by
    generalize query.decided = ids
    induction ids with
    | nil => rfl
    | cons first rest ih =>
        rw [List.filterMap_cons, List.filter_cons]
        cases query.weights.values.get? first with
        | none => simpa using ih
        | some weight => simpa using ih
  have nodup :=
    query.decided_nodup.sublist
      (List.filter_sublist
        (p := fun id => (query.weights.values.get? id).isSome))
  rw [← keys] at nodup
  apply Option.ext
  intro weight
  rw [← OrderedMap.mem_entries, objective, OrderedMap.entries_ofList nodup,
    List.mem_filterMap]
  constructor
  · rintro ⟨other, _, found⟩
    rcases Option.map_eq_some_iff.1 found with ⟨found, here, same⟩
    cases same
    exact here
  · intro found
    exact ⟨id, member, by rw [found]; rfl⟩

/--
The objective of the problem is the weighted sum where the other variables
are zero.
-/
theorem objectiveAt_problemOf
    (query : Query)
    (rows : List Inequality)
    (point : String → Int) :
    (query.problemOf rows).objectiveAt point =
      weighted query.weights.values.entries
        (masked query.decided point) := by
  have looked :
      (query.decided.map fun id => (query.objective.get? id).getD 0) =
        query.decided.map fun id =>
          (query.weights.values.entries.lookup id).getD 0 := by
    apply List.map_congr_left
    intro id member
    rw [get?_objective member]
    rfl
  rw [problemOf, objectiveAt_maximizing, looked]
  exact query.inner_decided query.weights.values.nodup point

/-! ## Answers of the exhaustive optimiser -/

variable {rows : List Inequality} {limit : Nat} {response : Response}

/--
There is an answer if the rows and the weights that count do not leave the
words.
-/
theorem exists_exhaustive
    (few : query.decided.length ≤ limit)
    (smallRows :
      ∀ row ∈ rows, magnitude row.coefficients.values ≤ 9223372036854775807)
    (smallLoads :
      ∀ point,
        (query.problemOf rows).Feasible point →
        load query.weights.values.entries (masked query.decided point) ≤
          9223372036854775807) :
    ∃ response, exhaustive limit (query.problemOf rows) = .ok response := by
  apply Optimizer.exists_exhaustive few query.decided_nodup
    (query.length_decidedRows rows) (query.sized_decidedRows rows)
  · intro entries member
    rcases List.mem_map.1 member with ⟨row, rowMember, rfl⟩
    exact (row.coefficients.magnitude_map_coefficient_le
            query.decided_nodup).trans (smallRows row rowMember)
  · intro point feasible
    have looked :
        (query.decided.map fun id =>
          (query.objective.get? id).getD 0 * point id) =
          query.decided.map fun id =>
            (query.weights.values.entries.lookup id).getD 0 *
              masked query.decided point id := by
      apply List.map_congr_left
      intro id member
      rw [get?_objective member, masked_of_mem member]
      rfl
    rw [looked]
    exact (magnitude_lookup_le query.decided_nodup
            query.weights.values.nodup _).trans (smallLoads point feasible)

/--
The exhaustive optimiser solves the problem of a query that has a feasible
point.
-/
theorem exhaustive_solves
    (answered : exhaustive limit (query.problemOf rows) = .ok response)
    (possible : ∃ point, (query.problemOf rows).Feasible point) :
    response.Solves (query.problemOf rows) :=
  Optimizer.exhaustive_solves query.decided_nodup
    (query.length_decidedRows rows) (query.sized_decidedRows rows) answered
    possible

/-- The exhaustive optimiser reports that no point is feasible. -/
theorem exhaustive_fails
    (answered : exhaustive limit (query.problemOf rows) = .ok response)
    (impossible : ¬ ∃ point, (query.problemOf rows).Feasible point) :
    response.single = .error (.solverFailed "infeasible") :=
  Optimizer.exhaustive_fails query.decided_nodup
    (query.length_decidedRows rows) (query.sized_decidedRows rows) answered
    impossible

end Query

end Configurator
