import Configurator.Error

/-!
# Results of computations in several steps

A computation of several steps has a result exactly if all of its steps have
one.  Steps that can only be refused or can only fault are lifted into
computations that can do both, with the same results.
-/

namespace Configurator

/-- Two steps have a result exactly if both of them have one. -/
theorem bind_eq_ok_iff
    {ε α β : Type}
    {first : Except ε α}
    {next : α → Except ε β}
    {result : β} :
    (first >>= next) = .ok result ↔
      ∃ value, first = .ok value ∧ next value = .ok result := by
  cases first with
  | error cause => simp [bind, Except.bind]
  | ok value => simp [bind, Except.bind]

/--
Two steps end with an error exactly if the first one does, or the second one
after it.
-/
theorem bind_eq_error_iff
    {ε α β : Type}
    {first : Except ε α}
    {next : α → Except ε β}
    {cause : ε} :
    (first >>= next) = .error cause ↔
      first = .error cause ∨
      ∃ value, first = .ok value ∧ next value = .error cause := by
  cases first with
  | error other => simp [bind, Except.bind]
  | ok value => simp [bind, Except.bind]

/-- A step that can only be refused keeps its results. -/
theorem refusable_eq_ok_iff
    {α : Type}
    {computation : Except Error α}
    {value : α} :
    (liftM computation : Except Failure α) = .ok value ↔
      computation = .ok value :=
  liftError_eq_ok_iff

/-- A step that can only fault keeps its results. -/
theorem faulting_eq_ok_iff
    {α : Type}
    {computation : Except Fault α}
    {value : α} :
    (liftM computation : Except Failure α) = .ok value ↔
      computation = .ok value :=
  liftFault_eq_ok_iff

/--
A step that can only be refused ends with a refusal of its own, if with any
error.
-/
theorem refusable_eq_error_iff
    {α : Type}
    {computation : Except Error α}
    {failure : Failure} :
    (liftM computation : Except Failure α) = .error failure ↔
      ∃ cause, computation = .error cause ∧ failure = .error cause := by
  cases computation with
  | error cause =>
      show Except.error (Failure.error cause) = .error failure ↔ _
      simp only [Except.error.injEq, exists_eq_left']
      exact eq_comm
  | ok value =>
      show Except.ok value = .error failure ↔ _
      simp

/--
A step that can only fault ends with a fault of its own, if with any error.
-/
theorem faulting_eq_error_iff
    {α : Type}
    {computation : Except Fault α}
    {failure : Failure} :
    (liftM computation : Except Failure α) = .error failure ↔
      ∃ cause, computation = .error cause ∧ failure = .fault cause := by
  cases computation with
  | error cause =>
      show Except.error (Failure.fault cause) = .error failure ↔ _
      simp only [Except.error.injEq, exists_eq_left']
      exact eq_comm
  | ok value =>
      show Except.ok value = .error failure ↔ _
      simp

/-- Whether a computation ends with an error. -/
instance decidableFailed
    {ε α : Type}
    (computation : Except ε α) :
    Decidable (∃ cause, computation = .error cause) :=
  match computation with
  | .error cause => isTrue ⟨cause, rfl⟩
  | .ok _ => isFalse fun ⟨_, impossible⟩ => nomatch impossible

/-- A computation that does not end with an error has a result. -/
theorem exists_ok_of_not_failed
    {ε α : Type}
    {computation : Except ε α}
    (succeeded : ¬ ∃ cause, computation = .error cause) :
    ∃ value, computation = .ok value := by
  cases computation with
  | error cause => exact absurd ⟨cause, rfl⟩ succeeded
  | ok value => exact ⟨value, rfl⟩

/-- A computation has a result exactly if it is the one that is kept. -/
theorem toOption_eq_some_iff
    {ε α : Type}
    {computation : Except ε α}
    {value : α} :
    computation.toOption = some value ↔ computation = .ok value := by
  cases computation with
  | error cause => simp [Except.toOption]
  | ok result => simp [Except.toOption]

/-- Checks of all places pass exactly if the check of every place does. -/
theorem forM_eq_ok_iff
    {ε α : Type}
    {check : α → Except ε Unit}
    {places : List α} :
    places.forM check = .ok () ↔
      ∀ place ∈ places, check place = .ok () := by
  induction places with
  | nil => simp [pure, Except.pure]
  | cons first rest ih =>
      show (check first >>= fun _ => rest.forM check) = .ok () ↔ _
      rw [bind_eq_ok_iff, List.forall_mem_cons]
      simp only [ih]
      constructor
      · rintro ⟨_, here, later⟩
        exact ⟨here, later⟩
      · rintro ⟨here, later⟩
        exact ⟨(), here, later⟩

/-- What every step of a loop keeps holds of its result. -/
theorem invariant_of_foldlM
    {ε α β : Type}
    {step : β → α → Except ε β}
    {items : List α}
    {start result : β}
    (Invariant : β → Prop)
    (holds : Invariant start)
    (kept :
      ∀ item ∈ items, ∀ current next,
        Invariant current → step current item = .ok next → Invariant next)
    (computed : items.foldlM step start = .ok result) :
    Invariant result := by
  induction items generalizing start with
  | nil =>
      cases computed
      exact holds
  | cons first rest ih =>
      rw [List.foldlM_cons, bind_eq_ok_iff] at computed
      rcases computed with ⟨next, here, later⟩
      exact ih (kept first List.mem_cons_self start next holds here)
        (fun item member => kept item (List.mem_cons_of_mem _ member)) later

/-- A loop ends with an error only if a step of it does. -/
theorem exists_of_foldlM_eq_error
    {ε α β : Type}
    {step : β → α → Except ε β}
    {items : List α}
    {start : β}
    {cause : ε}
    (failed : items.foldlM step start = .error cause) :
    ∃ item ∈ items, ∃ current, step current item = .error cause := by
  induction items generalizing start with
  | nil => cases failed
  | cons first rest ih =>
      rw [List.foldlM_cons, bind_eq_error_iff] at failed
      rcases failed with here | ⟨next, _, later⟩
      · exact ⟨first, List.mem_cons_self, start, here⟩
      · rcases ih later with ⟨item, member, current, step⟩
        exact ⟨item, List.mem_cons_of_mem _ member, current, step⟩

/--
Steps at all places of a list end with an error only if a single one does.
-/
theorem exists_of_mapM_eq_error
    {ε α β : Type}
    {step : α → Except ε β}
    {places : List α}
    {cause : ε}
    (failed : places.mapM step = .error cause) :
    ∃ place ∈ places, step place = .error cause := by
  induction places with
  | nil => cases failed
  | cons first rest ih =>
      simp only [List.mapM_cons, bind_eq_error_iff] at failed
      rcases failed with here | ⟨_, _, later | ⟨_, _, finished⟩⟩
      · exact ⟨first, List.mem_cons_self, here⟩
      · rcases ih later with ⟨place, member, step⟩
        exact ⟨place, List.mem_cons_of_mem _ member, step⟩
      · cases finished

/-- A step that always has a result has one at every place of a list. -/
theorem mapM_eq_ok
    {ε α β : Type}
    {step : α → Except ε β}
    {result : α → β}
    {places : List α}
    (computed : ∀ place ∈ places, step place = .ok (result place)) :
    places.mapM step = .ok (places.map result) := by
  induction places with
  | nil => rfl
  | cons first rest ih =>
      rw [List.mapM_cons, bind_eq_ok_iff]
      refine ⟨result first, computed first List.mem_cons_self, ?_⟩
      rw [bind_eq_ok_iff]
      exact ⟨_,
        ih fun place member =>
          computed place (List.mem_cons_of_mem _ member), rfl⟩

/--
Steps at all places of a list have results only if every single one has.
-/
theorem exists_of_mapM_eq_ok
    {ε α β : Type}
    {step : α → Except ε β}
    {places : List α}
    {results : List β}
    (computed : places.mapM step = .ok results) :
    ∀ place ∈ places, ∃ value, step place = .ok value := by
  induction places generalizing results with
  | nil => exact fun _ impossible => nomatch impossible
  | cons first rest ih =>
      simp only [List.mapM_cons, bind_eq_ok_iff] at computed
      rcases computed with ⟨value, here, values, later, _⟩
      exact List.forall_mem_cons.2 ⟨⟨value, here⟩, ih later⟩

/-- The results at the places of a list are those of the single steps. -/
theorem eq_map_of_mapM_eq_ok
    {ε α β : Type}
    {step : α → Except ε β}
    {result : α → β}
    {places : List α}
    {results : List β}
    (single :
      ∀ place ∈ places, ∀ value,
        step place = .ok value → value = result place)
    (computed : places.mapM step = .ok results) :
    results = places.map result := by
  induction places generalizing results with
  | nil =>
      cases computed
      rfl
  | cons first rest ih =>
      simp only [List.mapM_cons, bind_eq_ok_iff] at computed
      rcases computed with ⟨value, here, values, later, finished⟩
      cases finished
      rw [single first List.mem_cons_self value here,
        ih
          (fun place member => single place (List.mem_cons_of_mem _ member))
          later]
      rfl

end Configurator
