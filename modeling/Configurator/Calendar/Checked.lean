import Configurator.Error

/-!
# Checked periods

A request names a period by its start and its end.  The end has to come
later, so a checked period holds at least its own start.
-/

namespace Configurator.Calendar

/-- The period from `start` to `finish`, which must come later. -/
def Period.between (start finish : Instant) : Except Error Period :=
  if start < finish then .ok ⟨start, finish⟩
  else .error (.emptyPeriod ⟨start, finish⟩)

@[simp]
theorem Period.between_eq_ok_iff
    {start finish : Instant}
    {period : Period} :
    Period.between start finish = .ok period ↔
      start < finish ∧ ⟨start, finish⟩ = period := by
  unfold Period.between
  split <;> simp_all

end Configurator.Calendar
