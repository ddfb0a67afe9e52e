import Configurator.Schedule.Atoms
import Mathlib.Data.List.Chain

/-!
# Atomic periods tile their span

The cuts of a span ascend strictly from its start to its end, so the atoms
between them follow one another without a gap and every instant of the span
lies in exactly one of them.  No time bound starts or ends within an atom,
wherever else it does: a bound covers an atom or has no instant in common
with it.
-/

namespace Configurator.Schedule

open Configurator.Calendar

/-! ## Cuts -/

theorem mem_insertCut
    {cut time : Instant}
    {sorted : List Instant} :
    time ∈ insertCut cut sorted ↔ time = cut ∨ time ∈ sorted := by
  induction sorted with
  | nil => simp [insertCut]
  | cons first rest ih =>
      simp only [insertCut]
      split
      · simp
      · split
        · rw [List.mem_cons, ih, List.mem_cons]
          exact or_left_comm
        · rename_i notBefore notAfter
          have same : cut = first := by
            simp only [Instant.lt_iff] at notBefore notAfter
            exact Instant.position_injective (by omega)
          simp [same]

theorem ascending_insertCut
    {cut : Instant}
    {sorted : List Instant}
    (ascending : sorted.Pairwise (· < ·)) :
    (insertCut cut sorted).Pairwise (· < ·) := by
  induction sorted with
  | nil => exact List.pairwise_singleton _ _
  | cons first rest ih =>
      obtain ⟨before, tail⟩ := List.pairwise_cons.1 ascending
      simp only [insertCut]
      split
      · rename_i earlier
        refine List.pairwise_cons.2
          ⟨List.forall_mem_cons.2 ⟨earlier, ?_⟩, ascending⟩
        intro later member
        exact Int.lt_trans earlier (before later member)
      · split
        · rename_i later
          refine List.pairwise_cons.2 ⟨?_, ih tail⟩
          intro other member
          rcases mem_insertCut.1 member with rfl | old
          · exact later
          · exact before other old
        · exact ascending

private theorem mem_foldl_insertCut
    {time : Instant}
    {inserted sorted : List Instant} :
    time ∈ inserted.foldl (fun sorted cut => insertCut cut sorted) sorted ↔
      time ∈ inserted ∨ time ∈ sorted := by
  induction inserted generalizing sorted with
  | nil => simp
  | cons first rest ih =>
      rw [List.foldl_cons, ih, mem_insertCut, List.mem_cons, or_assoc]
      exact or_left_comm

private theorem ascending_foldl_insertCut
    {inserted sorted : List Instant}
    (ascending : sorted.Pairwise (· < ·)) :
    (inserted.foldl (fun sorted cut => insertCut cut sorted)
      sorted).Pairwise (· < ·) := by
  induction inserted generalizing sorted with
  | nil => exact ascending
  | cons first rest ih => exact ih (ascending_insertCut ascending)

variable {span : Period} {bounds : List TimeBound} {time : Instant}

theorem mem_cuts :
    time ∈ cuts span bounds ↔
      time = span.start ∨
      time = span.finish ∨
      time ∈ innerCuts span bounds := by
  rw [cuts, mem_foldl_insertCut, List.mem_cons, List.mem_cons]
  simp

theorem ascending_cuts
    (span : Period)
    (bounds : List TimeBound) :
    (cuts span bounds).Pairwise (· < ·) :=
  ascending_foldl_insertCut List.Pairwise.nil

/-- All cuts lie in the span. -/
theorem cut_inside
    (proper : span.start < span.finish)
    (member : time ∈ cuts span bounds) :
    span.start ≤ time ∧ time ≤ span.finish := by
  rw [Instant.lt_iff] at proper
  rw [Instant.le_iff, Instant.le_iff]
  rcases mem_cuts.1 member with rfl | rfl | inner
  · omega
  · omega
  · simp only [innerCuts, List.mem_filter, decide_eq_true_eq,
      Instant.lt_iff] at inner
    omega

theorem mem_innerCuts :
    time ∈ innerCuts span bounds ↔
      span.start < time ∧
      time < span.finish ∧
      ∃ bound ∈ bounds,
        time = bound.period.start ∨ time = bound.period.finish := by
  simp only [innerCuts]
  rw [List.mem_filter, List.mem_flatMap, decide_eq_true_eq, and_comm,
    and_assoc]
  simp only [List.mem_cons, List.not_mem_nil, or_false]

/--
An ascending list with a least and a greatest member runs from the one to
the other.
-/
private theorem exists_inner
    {sorted : List Instant}
    (ascending : sorted.Pairwise (· < ·))
    {first last : Instant}
    (ordered : first < last)
    (firstMember : first ∈ sorted)
    (lastMember : last ∈ sorted)
    (bounded : ∀ time ∈ sorted, first ≤ time ∧ time ≤ last) :
    ∃ inner, sorted = first :: (inner ++ [last]) := by
  obtain ⟨before, rest, rfl⟩ := List.append_of_mem firstMember
  have leading : before = [] := by
    refine List.eq_nil_iff_forall_not_mem.2 fun time early => ?_
    have earlier :=
      (List.pairwise_append.1 ascending).2.2 time early first
        List.mem_cons_self
    exact Int.not_lt.2 (bounded time (List.mem_append_left _ early)).1
      earlier
  subst leading
  rcases List.mem_cons.1 lastMember with same | later
  · exact absurd (same ▸ ordered) (Int.lt_irrefl _)
  · obtain ⟨inner, after, rfl⟩ := List.append_of_mem later
    have closing : after = [] := by
      refine List.eq_nil_iff_forall_not_mem.2 fun time late => ?_
      have tail :=
        (List.pairwise_append.1 (List.pairwise_cons.1 ascending).2).2.1
      have upper := (bounded time (List.mem_cons_of_mem _
        (List.mem_append_right _ (List.mem_cons_of_mem _ late)))).2
      exact Int.not_lt.2 upper ((List.pairwise_cons.1 tail).1 time late)
    subst closing
    exact ⟨inner, rfl⟩

/-- The cuts are the start of the span, those inside it, and its end. -/
theorem exists_cuts_eq
    (proper : span.start < span.finish)
    (bounds : List TimeBound) :
    ∃ inner,
      cuts span bounds = span.start :: (inner ++ [span.finish]) ∧
      inner.Pairwise (· < ·) ∧
      ∀ time, time ∈ inner ↔ time ∈ innerCuts span bounds := by
  have ascending := ascending_cuts span bounds
  obtain ⟨inner, whole⟩ :=
    exists_inner ascending proper (mem_cuts.2 (Or.inl rfl))
      (mem_cuts.2 (Or.inr (Or.inl rfl)))
      fun _ member => cut_inside proper member
  rw [whole] at ascending
  obtain ⟨after, tail⟩ := List.pairwise_cons.1 ascending
  obtain ⟨innerAscending, _, before⟩ := List.pairwise_append.1 tail
  refine ⟨inner, whole, innerAscending, fun time => ?_⟩
  constructor
  · intro member
    have late := after time (List.mem_append_left _ member)
    have early := before time member span.finish List.mem_cons_self
    have cut : time ∈ cuts span bounds := by
      rw [whole]
      exact List.mem_cons_of_mem _ (List.mem_append_left _ member)
    rcases mem_cuts.1 cut with rfl | rfl | inside
    · exact absurd late (Int.lt_irrefl _)
    · exact absurd early (Int.lt_irrefl _)
    · exact inside
  · intro inside
    obtain ⟨late, early, _⟩ := mem_innerCuts.1 inside
    have cut : time ∈ cuts span bounds :=
      mem_cuts.2 (Or.inr (Or.inr inside))
    rw [whole, List.mem_cons, List.mem_append, List.mem_singleton] at cut
    rcases cut with rfl | member | rfl
    · exact absurd late (Int.lt_irrefl _)
    · exact member
    · exact absurd early (Int.lt_irrefl _)

/-! ## Consecutive periods -/

/--
A consecutive period runs from one cut to another, and no cut lies between
them.
-/
theorem mem_consecutive
    {sorted : List Instant}
    (ascending : sorted.Pairwise (· < ·))
    {atom : Period}
    (member : atom ∈ consecutive sorted) :
    atom.start ∈ sorted ∧
    atom.finish ∈ sorted ∧
    ∀ cut ∈ sorted, cut ≤ atom.start ∨ atom.finish ≤ cut := by
  induction sorted using consecutive.induct with
  | case1 first second rest ih =>
      obtain ⟨before, tail⟩ := List.pairwise_cons.1 ascending
      rw [consecutive, List.mem_cons] at member
      rcases member with rfl | later
      · refine ⟨List.mem_cons_self,
          List.mem_cons_of_mem _ List.mem_cons_self, ?_⟩
        intro cut cutMember
        simp only [Instant.le_iff]
        rcases List.mem_cons.1 cutMember with rfl | cutLater
        · exact Or.inl (Int.le_refl _)
        · rcases List.mem_cons.1 cutLater with rfl | cutLater
          · exact Or.inr (Int.le_refl _)
          · have ordered := (List.pairwise_cons.1 tail).1 cut cutLater
            simp only [Instant.lt_iff] at ordered
            omega
      · obtain ⟨start, finish, between⟩ := ih tail later
        refine ⟨List.mem_cons_of_mem _ start, List.mem_cons_of_mem _ finish,
          ?_⟩
        refine List.forall_mem_cons.2 ⟨Or.inl ?_, between⟩
        exact Int.le_of_lt (before _ start)
  | case2 sorted short =>
      rw [consecutive] at member
      · cases member
      · exact short

theorem map_start_consecutive
    (sorted : List Instant) :
    (consecutive sorted).map Period.start = sorted.dropLast := by
  induction sorted using consecutive.induct with
  | case1 first second rest ih =>
      rw [consecutive, List.map_cons, ih, List.dropLast_cons_cons]
  | case2 sorted short =>
      rcases sorted with _ | ⟨only, _ | ⟨second, others⟩⟩
      · rfl
      · rfl
      · exact absurd rfl (short only second others)

theorem map_finish_consecutive
    (sorted : List Instant) :
    (consecutive sorted).map Period.finish = sorted.tail := by
  induction sorted using consecutive.induct with
  | case1 first second rest ih =>
      rw [consecutive, List.map_cons, ih]
      rfl
  | case2 sorted short =>
      rcases sorted with _ | ⟨only, _ | ⟨second, others⟩⟩
      · rfl
      · rfl
      · exact absurd rfl (short only second others)

/-- Every consecutive period ends where the next one starts. -/
theorem consecutive_joined
    (sorted : List Instant) :
    (consecutive sorted).IsChain fun earlier later =>
      earlier.finish = later.start := by
  induction sorted using consecutive.induct with
  | case1 first second rest ih =>
      rw [consecutive]
      cases rest with
      | nil => exact List.IsChain.singleton _
      | cons third others => exact List.isChain_cons_cons.2 ⟨rfl, ih⟩
  | case2 sorted short =>
      rw [consecutive]
      · exact List.IsChain.nil
      · exact short

theorem consecutive_proper
    {sorted : List Instant}
    (ascending : sorted.Pairwise (· < ·)) :
    ∀ atom ∈ consecutive sorted, atom.start < atom.finish := by
  induction sorted using consecutive.induct with
  | case1 first second rest ih =>
      obtain ⟨before, tail⟩ := List.pairwise_cons.1 ascending
      rw [consecutive]
      exact List.forall_mem_cons.2
        ⟨before second List.mem_cons_self, ih tail⟩
  | case2 sorted short =>
      rw [consecutive]
      · exact fun _ impossible => nomatch impossible
      · exact short

/-- Each of the consecutive periods ends before the next ones start. -/
theorem consecutive_disjoint
    {sorted : List Instant}
    (ascending : sorted.Pairwise (· < ·)) :
    (consecutive sorted).Pairwise fun earlier later =>
      earlier.finish ≤ later.start := by
  induction sorted using consecutive.induct with
  | case1 first second rest ih =>
      have tail := (List.pairwise_cons.1 ascending).2
      rw [consecutive]
      refine List.pairwise_cons.2 ⟨?_, ih tail⟩
      intro later member
      rcases List.mem_cons.1 (mem_consecutive tail member).1 with
        same | after
      · exact same ▸ Int.le_refl _
      · exact Int.le_of_lt ((List.pairwise_cons.1 tail).1 _ after)
  | case2 sorted short =>
      rw [consecutive]
      · exact List.Pairwise.nil
      · exact short

/-- Between the first and the last cut there is no gap. -/
theorem exists_mem_consecutive
    {sorted : List Instant}
    (ascending : sorted.Pairwise (· < ·))
    (begun : ∃ cut ∈ sorted, cut ≤ time)
    (unfinished : ∃ cut ∈ sorted, time < cut) :
    ∃ atom ∈ consecutive sorted, atom.Contains time := by
  rcases begun with ⟨lower, lowerMember, reached⟩
  rcases unfinished with ⟨upper, upperMember, ahead⟩
  induction sorted using consecutive.induct generalizing lower upper with
  | case1 first second rest ih =>
      obtain ⟨before, tail⟩ := List.pairwise_cons.1 ascending
      have secondAfter := before second List.mem_cons_self
      rw [consecutive]
      by_cases here : time < second
      · refine ⟨_, List.mem_cons_self, ?_, here⟩
        simp only [Instant.lt_iff, Instant.le_iff] at here reached ⊢
        rcases List.mem_cons.1 lowerMember with rfl | lowerLater
        · exact reached
        · rcases List.mem_cons.1 lowerLater with rfl | lowerLater
          · omega
          · have ordered := (List.pairwise_cons.1 tail).1 lower lowerLater
            simp only [Instant.lt_iff] at ordered
            omega
      · simp only [Instant.lt_iff] at here secondAfter
        have upperLater : upper ∈ second :: rest := by
          rcases List.mem_cons.1 upperMember with rfl | upperLater
          · simp only [Instant.lt_iff] at ahead
            omega
          · exact upperLater
        obtain ⟨atom, member, inside⟩ := ih tail second List.mem_cons_self
          (by simp only [Instant.le_iff]; omega) upper upperLater ahead
        exact ⟨atom, List.mem_cons_of_mem _ member, inside⟩
  | case2 sorted short =>
      cases sorted with
      | nil => cases lowerMember
      | cons only rest =>
          cases rest with
          | nil =>
              rw [List.mem_singleton.1 lowerMember] at reached
              rw [List.mem_singleton.1 upperMember] at ahead
              simp only [Instant.lt_iff, Instant.le_iff] at reached ahead
              omega
          | cons second others =>
              exact absurd rfl (short only second others)

/-! ## Atoms -/

/-- Every instant of the span lies in an atom. -/
theorem exists_atom
    (inside : span.Contains time) :
    ∃ atom ∈ atoms span bounds, atom.Contains time := by
  apply exists_mem_consecutive (ascending_cuts span bounds)
  · exact ⟨span.start, mem_cuts.2 (Or.inl rfl), inside.1⟩
  · exact ⟨span.finish, mem_cuts.2 (Or.inr (Or.inl rfl)), inside.2⟩

/-- The atoms lie in the span. -/
theorem contains_of_atom
    (proper : span.start < span.finish)
    {atom : Period}
    (member : atom ∈ atoms span bounds)
    (inside : atom.Contains time) :
    span.Contains time := by
  obtain ⟨start, finish, _⟩ :=
    mem_consecutive (ascending_cuts span bounds) member
  have lower := (cut_inside proper start).1
  have upper := (cut_inside proper finish).2
  simp only [Period.Contains, Instant.lt_iff, Instant.le_iff]
    at lower upper inside ⊢
  omega

/-- No two atoms have an instant in common. -/
theorem atom_index_unique
    {first second : Nat}
    {left right : Period}
    (leftHere : (atoms span bounds)[first]? = some left)
    (rightHere : (atoms span bounds)[second]? = some right)
    (leftInside : left.Contains time)
    (rightInside : right.Contains time) :
    first = second := by
  have disjoint := List.pairwise_iff_getElem.1
    (consecutive_disjoint (ascending_cuts span bounds))
  obtain ⟨leftBound, rfl⟩ := List.getElem?_eq_some_iff.1 leftHere
  obtain ⟨rightBound, rfl⟩ := List.getElem?_eq_some_iff.1 rightHere
  simp only [Period.Contains, Instant.lt_iff, Instant.le_iff]
    at leftInside rightInside disjoint
  rcases Nat.lt_trichotomy first second with before | same | after
  · have apart := disjoint first second leftBound rightBound before
    exact absurd apart
      (Int.not_le.2 (Int.lt_of_le_of_lt rightInside.1 leftInside.2))
  · exact same
  · have apart := disjoint second first rightBound leftBound after
    exact absurd apart
      (Int.not_le.2 (Int.lt_of_le_of_lt leftInside.1 rightInside.2))

/--
A bound with an instant in an atom covers the atom, wherever it starts and
ends.
-/
theorem covers_of_contains
    (proper : span.start < span.finish)
    {bound : TimeBound}
    (boundMember : bound ∈ bounds)
    {atom : Period}
    (member : atom ∈ atoms span bounds)
    (inside : atom.Contains time)
    (common : bound.period.Contains time) :
    bound.period.Covers atom := by
  obtain ⟨startCut, finishCut, between⟩ :=
    mem_consecutive (ascending_cuts span bounds) member
  have lower := (cut_inside proper startCut).1
  have upper := (cut_inside proper finishCut).2
  have cut :
      ∀ stop,
        stop = bound.period.start ∨ stop = bound.period.finish →
        span.start < stop →
        stop < span.finish →
        stop ≤ atom.start ∨ atom.finish ≤ stop :=
    fun stop which late early =>
      between stop
        (mem_cuts.2
          (Or.inr
            (Or.inr
              (mem_innerCuts.2 ⟨late, early, bound, boundMember, which⟩))))
  have start := cut bound.period.start (Or.inl rfl)
  have finish := cut bound.period.finish (Or.inr rfl)
  simp only [Period.Contains, Period.Covers, Instant.lt_iff, Instant.le_iff]
    at *
  omega

/-- A bound covers an atom exactly if it contains any one instant of it. -/
theorem covers_atom_iff
    {bound : TimeBound}
    (boundMember : bound ∈ bounds)
    (fits : span.Covers bound.period)
    (proper : bound.period.start < bound.period.finish)
    {atom : Period}
    (member : atom ∈ atoms span bounds)
    (inside : atom.Contains time) :
    bound.period.Covers atom ↔ bound.period.Contains time := by
  constructor
  · intro covers
    simp only [Period.Contains, Period.Covers, Instant.lt_iff,
      Instant.le_iff] at covers inside ⊢
    omega
  · refine covers_of_contains ?_ boundMember member inside
    simp only [Period.Covers, Instant.lt_iff, Instant.le_iff]
      at fits proper ⊢
    omega

/--
Pieces of a span that follow one another from its start to its end.  They
are cut where a bound starts or ends inside the span and nowhere else, so
that a bound covers a piece or has no instant in common with it.
-/
structure Tiles
    (span : Period)
    (bounds : List TimeBound)
    (pieces : List Period) :
    Prop where
  begins : pieces.head?.map Period.start = some span.start
  ends : pieces.getLast?.map Period.finish = some span.finish
  nonempty : ∀ piece ∈ pieces, piece.start < piece.finish
  joined : pieces.IsChain fun earlier later => earlier.finish = later.start
  cuts_ascending : (pieces.tail.map Period.start).Pairwise (· < ·)
  cut_iff :
    ∀ time,
      time ∈ pieces.tail.map Period.start ↔
        span.start < time ∧
        time < span.finish ∧
        ∃ bound ∈ bounds,
          time = bound.period.start ∨ time = bound.period.finish
  covered_or_apart :
    ∀ bound ∈ bounds, ∀ piece ∈ pieces,
      bound.period.Covers piece ∨
      ∀ time, piece.Contains time → ¬ bound.period.Contains time

theorem tiles_atoms
    (proper : span.start < span.finish)
    (bounds : List TimeBound) :
    Tiles span bounds (atoms span bounds) := by
  obtain ⟨inner, whole, innerAscending, inside⟩ :=
    exists_cuts_eq proper bounds
  have starts :
      (atoms span bounds).map Period.start = span.start :: inner := by
    rw [atoms, map_start_consecutive, whole, ← List.cons_append,
      List.dropLast_concat]
  have finishes :
      (atoms span bounds).map Period.finish = inner ++ [span.finish] := by
    rw [atoms, map_finish_consecutive, whole, List.tail_cons]
  have later : (atoms span bounds).tail.map Period.start = inner := by
    rw [List.map_tail, starts, List.tail_cons]
  refine
    { begins := by rw [← List.head?_map, starts, List.head?_cons]
      ends := by rw [← List.getLast?_map, finishes, List.getLast?_concat]
      nonempty := consecutive_proper (ascending_cuts span bounds)
      joined := consecutive_joined _
      cuts_ascending := later ▸ innerAscending
      cut_iff := fun time => by rw [later, inside, mem_innerCuts]
      covered_or_apart := ?_ }
  intro bound boundMember atom member
  by_cases covers : bound.period.Covers atom
  · exact Or.inl covers
  · exact Or.inr fun time contains common =>
      covers (covers_of_contains proper boundMember member contains common)

/-! ## Locating instants -/

theorem locate_eq_findIdx?
    (compiled : List PeriodVariable)
    (time : Instant) :
    locate compiled time =
      (compiled.map PeriodVariable.period).findIdx? fun piece =>
        piece.Contains time := by
  rw [locate, List.findIdx?_map]
  rfl

/--
Atoms tile their span.  They follow one another without gaps from its start
to its end, are cut at the ends of bounds inside it and nowhere else, and a
bound covers an atom or has no instant in common with it.  An instant of the
span is located in the only atom that contains it, and no other instant is
located.
-/
theorem atoms_tile
    (span : Period)
    (bounds : List TimeBound)
    (proper : span.start < span.finish) :
    Tiles span bounds (atoms span bounds) ∧
    ∀ compiled : List PeriodVariable,
      compiled.map PeriodVariable.period = atoms span bounds →
      ∀ time,
        (∀ index,
          locate compiled time = some index ↔
            index < (atoms span bounds).length ∧
            ∀ other atom,
              (atoms span bounds)[other]? = some atom →
              (atom.Contains time ↔ other = index)) ∧
        (locate compiled time = none ↔ ¬ span.Contains time) := by
  refine ⟨tiles_atoms proper bounds, ?_⟩
  intro compiled listed time
  rw [locate_eq_findIdx?, listed]
  constructor
  · intro index
    rw [List.findIdx?_eq_some_iff_getElem]
    constructor
    · rintro ⟨bound, contains, _⟩
      refine ⟨bound, fun other atom here => ⟨fun inside => ?_, ?_⟩⟩
      · exact atom_index_unique here (List.getElem?_eq_getElem bound) inside
          (of_decide_eq_true contains)
      · rintro rfl
        rw [List.getElem?_eq_getElem bound] at here
        cases here
        exact of_decide_eq_true contains
    · rintro ⟨bound, only⟩
      refine ⟨bound,
        decide_eq_true
          ((only index _ (List.getElem?_eq_getElem bound)).2 rfl), ?_⟩
      intro other before contains
      have same :=
        (only other _
          (List.getElem?_eq_getElem (Nat.lt_trans before bound))).1
          (of_decide_eq_true contains)
      exact Nat.ne_of_lt before same
  · rw [List.findIdx?_eq_none_iff]
    constructor
    · intro none inside
      obtain ⟨atom, member, contains⟩ :=
        @exists_atom span bounds time inside
      exact of_decide_eq_false (none atom member) contains
    · intro outside atom member
      exact decide_eq_false fun contains =>
        outside (contains_of_atom proper member contains)

/--
The last nanosecond of a minute after noon, on the first day of the year
2024.
-/
def minuteOf (minute : Nat) : Instant :=
  ⟨⟨2024, 1, 1, by decide⟩, 12, minute % 60, 59, 999999999, by decide,
    Nat.mod_lt minute (by decide), by decide, by decide⟩

/-- From one minute to another. -/
def minutesOf (start finish : Nat) : Period :=
  ⟨minuteOf start, minuteOf finish⟩

/--
Bounds that overlap, touch, and reach out of the minutes from 10 to 50.
-/
def overlappingBounds : List TimeBound :=
  [⟨"a", minutesOf 0 20⟩, ⟨"b", minutesOf 20 30⟩, ⟨"c", minutesOf 20 40⟩,
    ⟨"a", minutesOf 40 59⟩]

/--
Only the third atom contains the thirtieth minute, and none the fiftieth.
-/
theorem atoms_tile_overlapping :
    let span := minutesOf 10 50
    let pieces :=
      [minutesOf 10 20, minutesOf 20 30, minutesOf 30 40, minutesOf 40 50]
    let compiled := pieces.map (PeriodVariable.mk "period")
    span.start < span.finish ∧
    atoms span overlappingBounds = pieces ∧
    Tiles span overlappingBounds pieces ∧
    (locate compiled (minuteOf 30) = some 2 ∧
      ∀ other atom,
        pieces[other]? = some atom →
        (atom.Contains (minuteOf 30) ↔ other = 2)) ∧
    locate compiled (minuteOf 50) = none := by
  intro span pieces compiled
  have proper : span.start < span.finish := by decide
  have computed : atoms span overlappingBounds = pieces := by decide
  obtain ⟨tiles, located⟩ := atoms_tile span overlappingBounds proper
  rw [computed] at tiles located
  have third : locate compiled (minuteOf 30) = some 2 := by decide
  exact ⟨proper, computed, tiles,
    ⟨third, (((located compiled rfl _).1 2).1 third).2⟩,
    (located compiled rfl _).2.2 (by decide)⟩

/-! ## The span of bounds -/

private theorem foldl_hull
    {span : Period}
    (proper : span.start < span.finish)
    {bounds : List TimeBound} :
    let grown :=
      bounds.foldl (fun span bound => span.hull bound.period) span
    grown.start < grown.finish ∧
    grown.Covers span ∧
    ∀ bound ∈ bounds, grown.Covers bound.period := by
  induction bounds generalizing span with
  | nil =>
      exact ⟨proper, ⟨Int.le_refl _, Int.le_refl _⟩,
        fun _ member => nomatch member⟩
  | cons first rest ih =>
      have hullStart :
          (span.hull first.period).start.position ≤ span.start.position ∧
          (span.hull first.period).start.position ≤
            first.period.start.position := by
        simp only [Period.hull, Instant.earlier]
        split
        · rename_i ordered
          rw [Instant.le_iff] at ordered
          omega
        · rename_i ordered
          rw [Instant.le_iff] at ordered
          omega
      have hullFinish :
          span.finish.position ≤ (span.hull first.period).finish.position ∧
          first.period.finish.position ≤
            (span.hull first.period).finish.position := by
        simp only [Period.hull, Instant.later]
        split
        · rename_i ordered
          rw [Instant.le_iff] at ordered
          omega
        · rename_i ordered
          rw [Instant.le_iff] at ordered
          omega
      have wide :
          (span.hull first.period).start <
            (span.hull first.period).finish := by
        simp only [Instant.lt_iff] at proper ⊢
        omega
      obtain ⟨grownProper, grownCovers, others⟩ := ih wide
      simp only [Period.Covers, Instant.le_iff] at grownCovers others ⊢
      refine ⟨grownProper, by rw [List.foldl_cons]; omega, ?_⟩
      refine List.forall_mem_cons.2 ⟨?_, others⟩
      rw [List.foldl_cons]
      omega

/-- The span of proper bounds is proper and covers all of them. -/
theorem spanOf_covers
    (present : spanOf bounds = some span)
    (proper : ∀ bound ∈ bounds, bound.period.start < bound.period.finish) :
    span.start < span.finish ∧
    ∀ bound ∈ bounds, span.Covers bound.period := by
  cases bounds with
  | nil => cases present
  | cons first rest =>
      cases present
      obtain ⟨grownProper, grownCovers, others⟩ :=
        @foldl_hull first.period (proper first List.mem_cons_self) rest
      exact ⟨grownProper, List.forall_mem_cons.2 ⟨grownCovers, others⟩⟩

end Configurator.Schedule
