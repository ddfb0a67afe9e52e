import Configurator.Proofs.Outcome

/-!
# Computations in step

Two computations are in step if they end with the same error or with related
results.  Computations of several steps are in step if their first ones are,
and the later ones are for all related results; loops are in step if every
pass keeps the states related.
-/

namespace Configurator

variable {ε α β α' β' : Type}

/-- The computations end with the same error or with related results. -/
def InStep (related : α → α' → Prop) : Except ε α → Except ε α' → Prop
  | .ok left, .ok right => related left right
  | .error left, .error right => left = right
  | _, _ => False

namespace InStep

variable {related : α → α' → Prop} {relatedNext : β → β' → Prop}

/-- Computations in step end with the same error or with related results. -/
theorem cases
    {left : Except ε α}
    {right : Except ε α'}
    (inStep : InStep related left right) :
    (∃ value value',
      left = .ok value ∧ right = .ok value' ∧ related value value') ∨
    ∃ cause, left = .error cause ∧ right = .error cause := by
  cases left with
  | ok value =>
      cases right with
      | ok value' => exact Or.inl ⟨value, value', rfl, rfl, inStep⟩
      | error cause => exact inStep.elim
  | error cause =>
      cases right with
      | ok value' => exact inStep.elim
      | error cause' =>
          exact Or.inr ⟨cause, rfl, congrArg Except.error inStep.symm⟩

/-- Computations in step with equal results are the same. -/
theorem eq
    {left right : Except ε α}
    (inStep : InStep Eq left right) :
    left = right := by
  rcases inStep.cases with ⟨value, _, rfl, rfl, rfl⟩ | ⟨cause, rfl, rfl⟩
  · rfl
  · rfl

/--
Computations go on in step if they do so from all related results of their
first steps.
-/
theorem bind
    {left : Except ε α}
    {right : Except ε α'}
    {next : α → Except ε β}
    {next' : α' → Except ε β'}
    (first : InStep related left right)
    (later :
      ∀ value value',
        left = .ok value →
        right = .ok value' →
        related value value' →
        InStep relatedNext (next value) (next' value')) :
    InStep relatedNext (left >>= next) (right >>= next') := by
  rcases first.cases with
    ⟨value, value', rfl, rfl, related⟩ | ⟨cause, rfl, rfl⟩
  · exact later value value' rfl rfl related
  · exact rfl

/-- Loops over the same items are in step if every pass is. -/
theorem foldlM
    {ι : Type}
    {step : α → ι → Except ε α}
    {step' : α' → ι → Except ε α'}
    {items : List ι}
    (pass :
      ∀ item ∈ items, ∀ value value',
        related value value' →
        InStep related (step value item) (step' value' item))
    {start : α}
    {start' : α'}
    (begun : related start start') :
    InStep related (items.foldlM step start)
      (items.foldlM step' start') := by
  induction items generalizing start start' with
  | nil => exact begun
  | cons first rest ih =>
      rw [List.foldlM_cons, List.foldlM_cons]
      refine (pass first List.mem_cons_self start start' begun).bind
        fun value value' _ _ next => ?_
      exact ih
        (fun item member => pass item (List.mem_cons_of_mem _ member)) next

end InStep

end Configurator
