import Mathlib.Logic.Basic

/-! Non-interference by unwinding. A machine answers every input; some inputs are hidden
from an observer, and a relation says which states look the same. When a hidden input
keeps the look and every other one depends on it alone, hidden inputs can be purged. -/
namespace ArosKernel.Unwinding
variable {σ ι ω : Type} (step : σ → ι → ω × σ)

def final (s : σ) (inputs : List ι) : σ := inputs.foldl (fun s i => (step s i).2) s

def answers : σ → List ι → List (ι × ω)
  | _, [] => []
  | s, i :: rest => (i, (step s i).1) :: answers (step s i).2 rest

structure Unwinds (hidden : ι → Bool) (Same : σ → σ → Prop) : Prop where
  silent : ∀ s t i, hidden i = true → Same s t → Same (step s i).2 t
  answer : ∀ s t i, hidden i = false → Same s t → (step s i).1 = (step t i).1
  respects : ∀ s t i, hidden i = false → Same s t → Same (step s i).2 (step t i).2

variable {step} {hidden : ι → Bool} {Same : σ → σ → Prop}

theorem finalAppend (s : σ) (first second : List ι) :
    final step s (first ++ second) = final step (final step s first) second := List.foldl_append ..

theorem purgeFinal (unwinds : Unwinds step hidden Same) (inputs : List ι) {s t : σ} (same : Same s t) :
    Same (final step s inputs) (final step t (inputs.filter (fun i => !hidden i))) := by
  induction inputs generalizing s t with
  | nil => exact same
  | cons i rest ih =>
    cases seen : hidden i with
    | true =>
      rw [List.filter_cons_of_neg (by simp [seen])]
      exact ih (unwinds.silent s t i seen same)
    | false =>
      rw [List.filter_cons_of_pos (by simp [seen])]
      exact ih (unwinds.respects s t i seen same)

theorem purgeAnswers (unwinds : Unwinds step hidden Same) (inputs : List ι) {s t : σ} (same : Same s t) :
    (answers step s inputs).filter (fun a => !hidden a.1) = answers step t (inputs.filter (fun i => !hidden i)) := by
  induction inputs generalizing s t with
  | nil => rfl
  | cons i rest ih =>
    cases seen : hidden i with
    | true =>
      rw [answers, List.filter_cons_of_neg (by simp [seen]), List.filter_cons_of_neg (by simp [seen])]
      exact ih (unwinds.silent s t i seen same)
    | false =>
      rw [answers, List.filter_cons_of_pos (by simp [seen]), List.filter_cons_of_pos (by simp [seen]), answers,
        unwinds.answer s t i seen same]
      exact congrArg _ (ih (unwinds.respects s t i seen same))

end ArosKernel.Unwinding
