import Mathlib.Data.List.Basic

/-!
# Machines that answer every input

What a machine answers along a run, each answer with the state it leaves. An invariant of the step
holds in every state of a run, and a machine that simulates another step by step, as long as the
invariant of the other holds, gives its answers along every run.
-/

namespace Mealy

variable {σ σ' α ω : Type}

def trace (step : σ → α → ω × σ) : σ → List α → List (ω × σ)
  | _, [] => []
  | s, a :: inputs => step s a :: trace step (step s a).2 inputs

variable {step : σ → α → ω × σ} {step' : σ' → α → ω × σ'}

theorem trace_invariant {I : σ → Prop} (hstep : ∀ s a, I s → I (step s a).2) {s : σ} (hs : I s)
    (inputs : List α) : ∀ r ∈ trace step s inputs, I r.2 := by
  induction inputs generalizing s with
  | nil =>
      intro r hr
      cases hr
  | cons a inputs ih =>
      have hs' : I (step s a).2 := hstep s a hs
      intro r hr
      rcases List.mem_cons.mp hr with rfl | hr
      · exact hs'
      · exact ih hs' r hr

/-- A function that commutes with the step, where the invariant holds, commutes with the run. -/
theorem trace_refinement {I : σ → Prop} {f : σ → σ'} (hinv : ∀ s a, I s → I (step s a).2)
    (hstep : ∀ s a, I s → step' (f s) a = ((step s a).1, f (step s a).2)) {s : σ} (hs : I s)
    (inputs : List α) :
    trace step' (f s) inputs = (trace step s inputs).map (Prod.map id f) := by
  induction inputs generalizing s with
  | nil => rfl
  | cons a inputs ih =>
      have hs' : I (step s a).2 := hinv s a hs
      rw [trace, trace, List.map_cons, hstep s a hs, ih hs']
      rfl

/-! ## What an observer sees -/

section Observer

variable {σ α ω : Type} {step : σ → α → ω × σ} (visible : α → Bool)

/-- The answers to the inputs that are visible. -/
def observed (step : σ → α → ω × σ) : σ → List α → List ω
  | _, [] => []
  | s, a :: inputs =>
    if visible a then (step s a).1 :: observed step (step s a).2 inputs
    else observed step (step s a).2 inputs

/-- The state a run ends in. -/
def final (step : σ → α → ω × σ) (s : σ) (inputs : List α) : σ :=
  inputs.foldl (fun s a => (step s a).2) s

theorem final_invariant {I : σ → Prop} (hstep : ∀ s a, I s → I (step s a).2) {s : σ} (hs : I s)
    (inputs : List α) : I (final step s inputs) := by
  induction inputs generalizing s with
  | nil => exact hs
  | cons a inputs ih => exact ih (hstep s a hs)

/-- If visible inputs are answered alike in related states and the others keep the relation to a
machine that never gets them, then the others are not observed, neither in the answers nor in the
end. The relation may depend on the inputs to come. -/
theorem observed_purge {R : List α → σ → σ → Prop}
    (hvisible : ∀ a inputs s s', visible a = true → R (a :: inputs) s s' →
      (step s a).1 = (step s' a).1 ∧ R inputs (step s a).2 (step s' a).2)
    (hhidden : ∀ a inputs s s', visible a = false → R (a :: inputs) s s' →
      R inputs (step s a).2 s')
    {s s' : σ} {inputs : List α} (hs : R inputs s s') :
    observed visible step s inputs = (trace step s' (inputs.filter visible)).map Prod.fst ∧
      R [] (final step s inputs) (final step s' (inputs.filter visible)) := by
  induction inputs generalizing s s' with
  | nil => exact ⟨rfl, hs⟩
  | cons a inputs ih =>
      cases ha : visible a with
      | true =>
          obtain ⟨hanswer, hs'⟩ := hvisible a inputs s s' ha hs
          obtain ⟨hanswers, hend⟩ := ih hs'
          rw [observed, if_pos ha, List.filter_cons_of_pos ha, trace, List.map_cons, hanswer,
            hanswers]
          exact ⟨rfl, hend⟩
      | false =>
          have hs' := hhidden a inputs s s' ha hs
          rw [observed, if_neg (Bool.eq_false_iff.mp ha), List.filter_cons_of_neg (by simp [ha])]
          exact ih hs'

end Observer

end Mealy
