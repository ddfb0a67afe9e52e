import Configurator.Linear.Polyhedron
import Configurator.Proofs.Linear.Form
import Configurator.Proofs.Linear.Point

/-!
# Rows of named inequalities

An inequality between named variables becomes a row with the coefficients in
the columns of their variables.  `Represents` says that the rows of a
polyhedron are those of a list of inequalities; such a polyhedron holds
exactly the points at which all of the inequalities hold by name.
-/

namespace Configurator.Linear

open Configurator.Arithmetic Configurator.Collection

/-- The coefficients of a form in the columns of the ids. -/
def Coefficients.row
    (coefficients : Coefficients)
    (ids : OrderedSet String) :
    List Int :=
  ids.toList.map coefficients.coefficient

/-- Every id of the form has a column. -/
def Coefficients.Known
    (coefficients : Coefficients)
    (ids : OrderedSet String) :
    Prop :=
  ∀ id ∈ coefficients.ids, id ∈ ids

/-! ## Projection of a form onto columns -/

private theorem set_map
    {ids : OrderedSet String}
    {id : String}
    {column : Nat}
    (position : ids.indexOf? id = some column)
    (value : String → Int)
    (weight : Int) :
    (ids.toList.map value).set column weight =
      ids.toList.map (Function.update value id weight) := by
  rcases List.idxOf?_eq_some_iff.1 position with ⟨inside, here, _⟩
  apply List.ext_getElem
  · simp
  · intro other left right
    have bounded : other < ids.toList.length := by simpa using right
    rw [List.getElem_set, List.getElem_map, List.getElem_map]
    by_cases same : column = other
    · subst same
      rw [if_pos rfl, here, Function.update_self]
    · have different : ids.toList[other] ≠ id := by
        intro equality
        exact same
          ((List.getElem_inj ids.nodup).1 (here.trans equality.symm))
      rw [if_neg same, Function.update_of_ne different]

private theorem project_steps
    {ids : OrderedSet String}
    {entries : List (String × Int)}
    {row : List Int}
    (value : String → Int) :
    entries.foldlM (m := Except Error)
      (fun row (id, weight) => match ids.indexOf? id with
          | none => .error (.notFound id)
          | some column =>
              if column < ids.size then .ok (row.set column weight)
              else .error (.noColumn id))
        (ids.toList.map value) = .ok row ↔
      (∀ entry ∈ entries, entry.1 ∈ ids) ∧ row = ids.toList.map
          (entries.foldl
            (fun update entry => Function.update update entry.1 entry.2)
            value) := by
  induction entries generalizing value with
  | nil => simp [pure, Except.pure, eq_comm]
  | cons entry rest ih =>
      rcases entry with ⟨id, weight⟩
      rw [List.foldlM_cons, bind_eq_ok_iff]
      by_cases member : id ∈ ids
      · rcases indexOf?_of_mem member with ⟨column, position, _⟩
        rcases List.idxOf?_eq_some_iff.1 position with ⟨inside, _⟩
        have bounded : column < ids.size := inside
        simp only [position, bounded, if_true, Except.ok.injEq,
          exists_eq_left', set_map position, ih, List.forall_mem_cons,
          member, true_and, List.foldl_cons]
      · have missing : ids.indexOf? id = none :=
          List.idxOf?_eq_none_iff.2 member
        simp [missing, member]

private theorem foldl_update
    {entries : List (String × Int)}
    (nodup : (entries.map Prod.fst).Nodup)
    (value : String → Int)
    (id : String) :
    entries.foldl
        (fun update entry => Function.update update entry.1 entry.2) value
        id =
      (entries.lookup id).getD (value id) := by
  induction entries generalizing value with
  | nil => rfl
  | cons entry rest ih =>
      rcases entry with ⟨key, weight⟩
      rw [List.map_cons, List.nodup_cons] at nodup
      rw [List.foldl_cons, ih nodup.2, lookup_cons_eq]
      by_cases here : id = key
      · subst here
        simp [lookup_eq_none nodup.1]
      · rw [if_neg here, Function.update_of_ne here]

/--
A form is projected exactly if its ids have columns, and then onto its row.
-/
theorem project_eq_ok_iff
    {coefficients : Coefficients}
    {ids : OrderedSet String}
    {row : List Int} :
    Polyhedron.project coefficients ids ids.size = .ok row ↔
      coefficients.Known ids ∧ row = coefficients.row ids := by
  have zeros :
      List.replicate ids.size (0 : Int) = ids.toList.map fun _ => 0 := by
    rw [List.map_const', OrderedSet.size]
  have known :
      (∀ entry ∈ coefficients.entries, entry.1 ∈ ids) ↔
        coefficients.Known ids := by
    simp only [Coefficients.Known, Coefficients.ids, List.forall_mem_map]
  have steps := @project_steps ids coefficients.entries row fun _ => 0
  simp only [Polyhedron.project]
  rw [zeros]
  refine Iff.trans steps ?_
  rw [known]
  have sameRow :
      ids.toList.map
          (coefficients.entries.foldl
            (fun update entry => Function.update update entry.1 entry.2)
            fun _ => 0) =
        coefficients.row ids := by
    apply List.map_congr_left
    intro id _
    exact foldl_update coefficients.ids_nodup _ id
  rw [sameRow]

/-! ## Values of rows -/

/-- A row takes the value of its form at the names of the point. -/
theorem inner_row
    {coefficients : Coefficients}
    {ids : OrderedSet String}
    {point : List Int}
    (known : coefficients.Known ids)
    (width : point.length = ids.size) :
    inner (coefficients.row ids) point =
      coefficients.form (entryOf ids point) := by
  have listed : point = ids.toList.map (entryOf ids point) :=
    (map_entryOf width).symm
  calc
    inner (coefficients.row ids) point =
      inner (coefficients.row ids)
        (ids.toList.map (entryOf ids point)) := by
        rw [← listed]
    _ =
      (ids.toList.map fun id =>
        coefficients.coefficient id * entryOf ids point id).sum := by
        rw [Arithmetic.inner, Coefficients.row, List.zipWith_map_left,
          List.zipWith_map_right, List.zipWith_self]
    _ =
      weighted coefficients.entries
        (masked ids.toList (entryOf ids point)) :=
      sum_lookup ids.nodup coefficients.ids_nodup _
    _ = coefficients.form (entryOf ids point) := by
        refine weighted_congr fun entry member _ => ?_
        exact masked_of_mem (known _ (List.mem_map_of_mem member)) _

/-- The coefficients of distinct ids weigh no more than all coefficients. -/
theorem Coefficients.magnitude_map_coefficient_le
    (coefficients : Coefficients)
    {ids : List String}
    (nodup : ids.Nodup) :
    magnitude (ids.map coefficients.coefficient) ≤
      magnitude coefficients.values := by
  have looked := magnitude_lookup_le nodup coefficients.ids_nodup fun _ => 1
  simp only [load, Int.mul_one] at looked
  exact looked

/-- A new last column has the entry of its id. -/
theorem row_insert
    {coefficients : Coefficients}
    {ids : OrderedSet String}
    {id : String}
    (absent : id ∉ ids) :
    coefficients.row (ids.insert id) =
      coefficients.row ids ++ [coefficients.coefficient id] := by
  simp only [Coefficients.row]
  rw [OrderedSet.toList_insert, if_neg absent, List.map_append]
  rfl

/-! ## Polyhedra of named inequalities -/

namespace Polyhedron

/-- Every row, multiplied with the point, is at least its bound. -/
def Contains (polyhedron : Polyhedron) (point : List Int) : Prop :=
  ∀ entry ∈ polyhedron.rows.zip polyhedron.bounds,
    entry.2 ≤ inner entry.1 point

instance
    (polyhedron : Polyhedron)
    (point : List Int) :
    Decidable (polyhedron.Contains point) :=
  inferInstanceAs
    (Decidable (∀ entry ∈ polyhedron.rows.zip polyhedron.bounds,
      entry.2 ≤ inner entry.1 point))

/-- The polyhedron of the leading rows. -/
def leading (polyhedron : Polyhedron) (count : Nat) : Polyhedron :=
  ⟨polyhedron.rows.take count, polyhedron.bounds.take count,
    polyhedron.columns⟩

/-- The rows are those of the inequalities over the ids. -/
structure Represents
    (polyhedron : Polyhedron)
    (ids : OrderedSet String)
    (inequalities : List Inequality) :
    Prop where
  /-- There is one column for each id. -/
  columns_eq : polyhedron.columns = ids.size
  /-- The rows list the coefficients. -/
  rows_eq : polyhedron.rows = inequalities.map fun inequality =>
    inequality.coefficients.row ids
  /-- The bounds are the opposite biases. -/
  bounds_eq :
    polyhedron.bounds = inequalities.map fun inequality => -inequality.bias
  /-- The inequalities mention columns only. -/
  known : ∀ inequality ∈ inequalities, inequality.coefficients.Known ids

variable {polyhedron grown : Polyhedron} {ids : OrderedSet String}
  {inequalities more : List Inequality} {inequality : Inequality}
  {point : List Int}

theorem represents_unbounded
    (ids : OrderedSet String) :
    (unbounded ids.size).Represents ids [] where
  columns_eq := rfl
  rows_eq := rfl
  bounds_eq := rfl
  known := by
    intro inequality member
    cases member

/--
Appending an inequality adds a row of the right width and the opposite bias.
-/
theorem appendInequality_eq_ok
    (appended : polyhedron.appendInequality inequality ids = .ok grown) :
    ∃ row,
      project inequality.coefficients ids polyhedron.columns = .ok row ∧
      IsWord (-inequality.bias) ∧
      row.length = polyhedron.columns ∧
      grown = { polyhedron with
        rows := polyhedron.rows ++ [row]
        bounds := polyhedron.bounds ++ [-inequality.bias] } := by
  simp only [appendInequality, bind_eq_ok_iff, refusable_eq_ok_iff,
    faulting_eq_ok_iff] at appended
  rcases appended with ⟨row, projected, bound, negated, finished⟩
  rcases word_eq_ok_iff.1 negated with ⟨isWord, rfl⟩
  simp only [Polyhedron.append] at finished
  split at finished
  · rename_i width
    cases finished
    exact ⟨row, projected, isWord, width, rfl⟩
  · cases finished

/-- Appending a known inequality adds its row. -/
theorem Represents.append
    (represents : polyhedron.Represents ids inequalities)
    (appended : polyhedron.appendInequality inequality ids = .ok grown) :
    grown.Represents ids (inequalities ++ [inequality]) := by
  obtain ⟨row, projected, _, _, rfl⟩ := appendInequality_eq_ok appended
  rw [represents.columns_eq] at projected
  rcases project_eq_ok_iff.1 projected with ⟨known, rfl⟩
  constructor
  · exact represents.columns_eq
  · simp [represents.rows_eq]
  · simp [represents.bounds_eq]
  · intro other member
    rcases List.mem_append.1 member with old | new
    · exact represents.known other old
    · rw [List.mem_singleton.1 new]
      exact known

/-- A known inequality with a small bias can be appended. -/
theorem Represents.append_ok
    (represents : polyhedron.Represents ids inequalities)
    (known : inequality.coefficients.Known ids)
    (small : inequality.bias.natAbs ≤ 9223372036854775807) :
    ∃ grown, polyhedron.appendInequality inequality ids = .ok grown := by
  have projected : project inequality.coefficients ids polyhedron.columns =
      .ok (inequality.coefficients.row ids) := by
    rw [represents.columns_eq]
    exact project_eq_ok_iff.2 ⟨known, rfl⟩
  have negated : word (-inequality.bias) = .ok (-inequality.bias) :=
    word_of_natAbs_le (by rwa [Int.natAbs_neg])
  have width :
      (inequality.coefficients.row ids).length = polyhedron.columns := by
    rw [represents.columns_eq, Coefficients.row, List.length_map,
      OrderedSet.size]
  have appended :
      polyhedron.append (inequality.coefficients.row ids)
          (-inequality.bias) =
        .ok {polyhedron with
        rows := polyhedron.rows ++ [inequality.coefficients.row ids]
        bounds := polyhedron.bounds ++ [-inequality.bias] } := by
    rw [Polyhedron.append, if_pos width]
  simp only [appendInequality, bind_eq_ok_iff, refusable_eq_ok_iff,
    faulting_eq_ok_iff]
  exact ⟨_, _, projected, _, negated, appended⟩

/-- Appending known inequalities adds their rows in order. -/
theorem Represents.appendAll
    (represents : polyhedron.Represents ids inequalities)
    (appended : polyhedron.appendAll more ids = .ok grown) :
    grown.Represents ids (inequalities ++ more) := by
  simp only [Polyhedron.appendAll] at appended
  induction more generalizing polyhedron inequalities with
  | nil =>
      rw [List.foldlM_nil] at appended
      cases appended
      rwa [List.append_nil]
  | cons first rest ih =>
      rw [List.foldlM_cons, bind_eq_ok_iff] at appended
      rcases appended with ⟨next, step, others⟩
      have whole := ih (represents.append step) others
      rwa [List.append_assoc] at whole

/-- Known inequalities with small biases can be appended. -/
theorem Represents.appendAll_ok
    (represents : polyhedron.Represents ids inequalities)
    (known : ∀ inequality ∈ more, inequality.coefficients.Known ids)
    (small :
      ∀ inequality ∈ more, inequality.bias.natAbs ≤ 9223372036854775807) :
    ∃ grown, polyhedron.appendAll more ids = .ok grown := by
  simp only [Polyhedron.appendAll]
  induction more generalizing polyhedron inequalities with
  | nil => exact ⟨polyhedron, rfl⟩
  | cons first rest ih =>
      obtain ⟨next, step⟩ :=
        represents.append_ok (known first List.mem_cons_self)
          (small first List.mem_cons_self)
      obtain ⟨grown, others⟩ :=
        ih (represents.append step)
          (fun inequality member =>
            known inequality (List.mem_cons_of_mem _ member))
          (fun inequality member =>
            small inequality (List.mem_cons_of_mem _ member))
      refine ⟨grown, ?_⟩
      rw [List.foldlM_cons, bind_eq_ok_iff]
      exact ⟨next, step, others⟩

/-- A new last column is mentioned by no row. -/
theorem Represents.widen
    (represents : polyhedron.Represents ids inequalities)
    {id : String}
    (absent : id ∉ ids) :
    polyhedron.widen.Represents (ids.insert id) inequalities where
  columns_eq := by
    show polyhedron.columns + 1 = (ids.insert id).toList.length
    rw [represents.columns_eq, OrderedSet.toList_insert, if_neg absent,
      List.length_append]
    rfl
  rows_eq := by
    show polyhedron.rows.map (· ++ [0]) = _
    rw [represents.rows_eq, List.map_map]
    apply List.map_congr_left
    intro inequality member
    have unmentioned : id ∉ inequality.coefficients.ids := fun mentioned =>
      absent (represents.known inequality member id mentioned)
    rw [row_insert absent, Coefficients.coefficient_of_notMem unmentioned]
    rfl
  bounds_eq := represents.bounds_eq
  known := by
    intro inequality member other mentioned
    exact OrderedSet.mem_insert.2
      (Or.inl (represents.known inequality member other mentioned))

/-- The leading rows represent the leading inequalities. -/
theorem Represents.leading
    (represents : polyhedron.Represents ids inequalities)
    (count : Nat) :
    (polyhedron.leading count).Represents ids
      (inequalities.take count) where
  columns_eq := represents.columns_eq
  rows_eq := by
    simp only [Polyhedron.leading, represents.rows_eq, List.map_take]
  bounds_eq := by
    simp only [Polyhedron.leading, represents.bounds_eq, List.map_take]
  known := by
    intro inequality member
    exact represents.known inequality (List.mem_of_mem_take member)

theorem Represents.wellShaped
    (represents : polyhedron.Represents ids inequalities) :
    polyhedron.WellShaped := by
  constructor
  · rw [represents.bounds_eq, represents.rows_eq, List.length_map,
      List.length_map]
  · intro row member
    rw [represents.rows_eq] at member
    rcases List.mem_map.1 member with ⟨inequality, _, rfl⟩
    rw [Coefficients.row, List.length_map, represents.columns_eq,
      OrderedSet.size]

/--
A polyhedron contains the points at which its inequalities hold by name.
-/
theorem Represents.contains_iff
    (represents : polyhedron.Represents ids inequalities)
    (width : point.length = ids.size) :
    polyhedron.Contains point ↔
      ∀ inequality ∈ inequalities,
        inequality.Holds (entryOf ids point) := by
  simp only [Contains]
  rw [represents.rows_eq, represents.bounds_eq, List.zip_map',
    List.forall_mem_map]
  constructor
  · intro contained inequality member
    have row := contained inequality member
    rw [inner_row (represents.known inequality member) width] at row
    simp only [Inequality.Holds]
    omega
  · intro held inequality member
    have value := held inequality member
    simp only [Inequality.Holds] at value
    dsimp only
    rw [inner_row (represents.known inequality member) width]
    omega

/--
A represented polyhedron over the ids contains the vertices at which the
rows hold.
-/
theorem Represents.contains_vertex_iff
    (represents : polyhedron.Represents ids inequalities)
    (vertex : Vertex ids) :
    polyhedron.Contains vertex.entries ↔
      ∀ inequality ∈ inequalities, inequality.Holds vertex.value :=
  represents.contains_iff vertex.length_eq

theorem Represents.contains_iff_of_agree
    (represents : polyhedron.Represents ids inequalities)
    {vertex : Vertex ids}
    {value : String → Int}
    (agree : ∀ id ∈ ids, vertex.value id = value id) :
    polyhedron.Contains vertex.entries ↔
      ∀ inequality ∈ inequalities, inequality.Holds value := by
  rw [represents.contains_vertex_iff]
  exact forall₂_congr fun inequality member =>
    Inequality.holds_congr fun id mentioned =>
      agree id (represents.known inequality member id mentioned)

/-! ## Padding -/

/--
The rows come first, with zeros in some more columns, and have the same
bounds.
-/
structure PadsTo (polyhedron grown : Polyhedron) (count : Nat) : Prop where
  /-- The new columns come last. -/
  columns_eq : grown.columns = polyhedron.columns + count
  /-- The old rows come first and do not mention the new columns. -/
  rows : polyhedron.rows.map (· ++ List.replicate count 0) <+: grown.rows
  /-- The old rows keep their bounds. -/
  bounds : polyhedron.bounds <+: grown.bounds

theorem PadsTo.refl
    (polyhedron : Polyhedron) :
    polyhedron.PadsTo polyhedron 0 where
  columns_eq := rfl
  rows := by
    simp only [List.replicate_zero, List.append_nil, List.map_id']
    exact List.prefix_rfl
  bounds := List.prefix_rfl

theorem PadsTo.trans
    {final : Polyhedron}
    {first second : Nat}
    (start : polyhedron.PadsTo grown first)
    (next : grown.PadsTo final second) :
    polyhedron.PadsTo final (first + second) where
  columns_eq := by rw [next.columns_eq, start.columns_eq, Nat.add_assoc]
  rows := by
    have padded :=
      (start.rows.map (· ++ List.replicate second 0)).trans next.rows
    rw [List.map_map] at padded
    simpa only [Function.comp_def, List.append_assoc,
      List.replicate_append_replicate] using padded
  bounds := start.bounds.trans next.bounds

theorem padsTo_widen
    (polyhedron : Polyhedron) :
    polyhedron.PadsTo polyhedron.widen 1 where
  columns_eq := rfl
  rows := List.prefix_rfl
  bounds := List.prefix_rfl

theorem padsTo_appendInequality
    (appended : polyhedron.appendInequality inequality ids = .ok grown) :
    polyhedron.PadsTo grown 0 := by
  obtain ⟨row, _, _, _, rfl⟩ := appendInequality_eq_ok appended
  refine { PadsTo.refl polyhedron with
             rows := ?_,
             bounds := List.prefix_append _ _ }
  exact (PadsTo.refl polyhedron).rows.trans (List.prefix_append _ _)

theorem padsTo_appendAll
    (appended : polyhedron.appendAll more ids = .ok grown) :
    polyhedron.PadsTo grown 0 :=
  invariant_of_foldlM (fun current => polyhedron.PadsTo current 0)
    (PadsTo.refl polyhedron)
    (fun _ _ _ _ start step => start.trans (padsTo_appendInequality step))
    appended

/-! ## Checked satisfaction -/

theorem meets_eq_ok
    {entries : List (List Int × Int)}
    {verdict : Bool}
    (computed : meets point entries = .ok verdict) :
    verdict = true ↔ ∀ entry ∈ entries, entry.2 ≤ inner entry.1 point := by
  induction entries with
  | nil =>
      cases computed
      simp
  | cons entry rest ih =>
      rcases entry with ⟨row, bound⟩
      simp only [meets, bind_eq_ok_iff] at computed
      rcases computed with ⟨value, multiplied, finished⟩
      have exact := dot_eq_ok multiplied
      subst exact
      rw [List.forall_mem_cons]
      split at finished
      · rename_i met
        rw [ih finished]
        exact ⟨fun others => ⟨met, others⟩, fun both => both.2⟩
      · rename_i violated
        cases finished
        constructor
        · intro impossible
          cases impossible
        · intro both
          exact absurd both.1 violated

/--
A verdict that is returned says whether the polyhedron contains the point.
-/
theorem satisfies_eq_ok
    {verdict : Bool}
    (computed : polyhedron.satisfies point = .ok verdict) :
    verdict = true ↔ polyhedron.Contains point := by
  simp only [satisfies] at computed
  split at computed
  · exact meets_eq_ok computed
  · cases computed

/--
There is a verdict on every binary point if all rows weigh no more than a
word.
-/
theorem meets_of_small
    {entries : List (List Int × Int)}
    (binary : IsBinary point)
    (small : ∀ entry ∈ entries, magnitude entry.1 ≤ 9223372036854775807) :
    ∃ verdict, meets point entries = .ok verdict := by
  induction entries with
  | nil => exact ⟨true, rfl⟩
  | cons entry rest ih =>
      rcases entry with ⟨row, bound⟩
      have multiplied := dot_of_binary binary (small _ List.mem_cons_self)
      obtain ⟨verdict, others⟩ :=
        ih fun other member => small other (List.mem_cons_of_mem _ member)
      by_cases met : bound ≤ inner row point
      · refine ⟨verdict, ?_⟩
        simp only [meets, bind_eq_ok_iff]
        exact ⟨_, multiplied, by rw [if_pos met]; exact others⟩
      · refine ⟨false, ?_⟩
        simp only [meets, bind_eq_ok_iff]
        exact ⟨_, multiplied, by rw [if_neg met]⟩

/--
There is a verdict on every binary point if the rows weigh no more than a
word.
-/
theorem satisfies_of_small
    (width : point.length = polyhedron.columns)
    (binary : IsBinary point)
    (small : ∀ row ∈ polyhedron.rows, magnitude row ≤ 9223372036854775807) :
    polyhedron.satisfies point =
      .ok (decide (polyhedron.Contains point)) := by
  have smallEntries : ∀ entry ∈ polyhedron.rows.zip polyhedron.bounds,
      magnitude entry.1 ≤ 9223372036854775807 := by
    intro entry member
    exact small _ (List.of_mem_zip member).1
  rcases meets_of_small binary smallEntries with ⟨verdict, met⟩
  have computed : polyhedron.satisfies point = .ok verdict := by
    rw [satisfies, if_pos width, met]
  rw [computed]
  congr 1
  rw [Bool.eq_iff_iff, decide_eq_true_iff]
  exact satisfies_eq_ok computed

end Polyhedron

end Configurator.Linear
