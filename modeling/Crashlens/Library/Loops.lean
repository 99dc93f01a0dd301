import Mathlib.Logic.Function.Iterate
import Mathlib.Data.Nat.Init

/-!
# Loops as iterated steps

A loop is a step function applied again and again. What one step preserves holds at every moment,
and a loop whose variant each step before the end makes smaller comes to an end.
-/

namespace Loops

variable {σ : Type} {step : σ → σ} {I : σ → Prop}

theorem iterate_invariant (hstep : ∀ s, I s → I (step s)) {s : σ} (hs : I s) (n : ℕ) :
    I (step^[n] s) := by
  induction n generalizing s with
  | zero => exact hs
  | succ n ih => exact ih (hstep s hs)

theorem exists_iterate_done {Done : σ → Prop} (variant : σ → ℕ) (hstep : ∀ s, I s → I (step s))
    (hless : ∀ s, I s → ¬ Done s → variant (step s) < variant s) {s : σ} (hs : I s) :
    ∃ n, Done (step^[n] s) := by
  induction hv : variant s using Nat.strong_induction_on generalizing s with
  | h v ih =>
      by_cases hdone : Done s
      · exact ⟨0, hdone⟩
      · obtain ⟨n, hn⟩ := ih _ (hv ▸ hless s hs hdone) (hstep s hs) rfl
        exact ⟨n + 1, hn⟩

end Loops
