import Configurator.Proofs.Outcome

/-!
# Computations without faults

A computation is faultless if it ends with a result or with a refusal.  A
computation of several steps is faultless if its first step is, and the
later ones are for every result of it; a loop is faultless if its step is
wherever an invariant holds that the step keeps.
-/

namespace Configurator

/-- The computation ends with a result or with a refusal. -/
def Faultless {α : Type} (computation : Except Failure α) : Prop :=
  ∀ cause, computation ≠ .error (.fault cause)

namespace Faultless

variable {α β : Type}

theorem of_ok (value : α) : Faultless (.ok value) :=
  fun _ faulty => nomatch faulty

theorem of_refusal
    (cause : Error) :
    Faultless (.error (.error cause) : Except Failure α) :=
  fun _ faulty => nomatch faulty

/-- A step that can only be refused is faultless. -/
theorem refusable
    (computation : Except Error α) :
    Faultless (liftM computation : Except Failure α) := by
  cases computation with
  | error cause => exact of_refusal cause
  | ok value => exact of_ok value

/-- A step that can only fault is faultless if it has a result. -/
theorem faulting
    {computation : Except Fault α}
    {value : α}
    (computed : computation = .ok value) :
    Faultless (liftM computation : Except Failure α) := by
  rw [computed]
  exact of_ok value

theorem bind
    {first : Except Failure α}
    {next : α → Except Failure β}
    (start : Faultless first)
    (later : ∀ value, first = .ok value → Faultless (next value)) :
    Faultless (first >>= next) := by
  cases first with
  | error cause =>
      intro fault faulty
      cases faulty
      exact start fault rfl
  | ok value => exact later value rfl

/--
A loop is faultless if its step is, wherever an invariant holds that the
step keeps.
-/
theorem foldlM
    {step : β → α → Except Failure β}
    {items : List α}
    {start : β}
    (Invariant : β → Prop)
    (holds : Invariant start)
    (kept :
      ∀ item ∈ items, ∀ current next,
        Invariant current → step current item = .ok next → Invariant next)
    (safe :
      ∀ item ∈ items, ∀ current,
        Invariant current → Faultless (step current item)) :
    Faultless (items.foldlM step start) := by
  induction items generalizing start with
  | nil => exact of_ok start
  | cons first rest ih =>
      rw [List.foldlM_cons]
      refine (safe first List.mem_cons_self start holds).bind
        fun next here => ?_
      exact ih (kept first List.mem_cons_self start next holds here)
        (fun item member => kept item (List.mem_cons_of_mem _ member))
        (fun item member => safe item (List.mem_cons_of_mem _ member))

/-- Checks of all places are faultless if the check of every place is. -/
theorem forM
    {check : α → Except Failure Unit}
    {places : List α}
    (safe : ∀ place ∈ places, Faultless (check place)) :
    Faultless (places.forM check) := by
  induction places with
  | nil => exact of_ok ()
  | cons first rest ih =>
      exact (safe first List.mem_cons_self).bind fun _ _ =>
        ih fun place member => safe place (List.mem_cons_of_mem _ member)

end Faultless

end Configurator
