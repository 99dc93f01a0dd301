import Mathlib.Logic.Basic
import Mathlib.Data.List.Basic

/-!
# Runs of a partial step function

A labelled transition system is a partial step function `step : σ → α → Option σ`. `run` executes a
list of actions and fails when one of them is not enabled. `Along P s acts` says that `P` holds of
every state and action met on the way, and `countAlong p s acts` counts the actions at which `p`
holds. Invariants are proved for one step and lifted to runs here.
-/

namespace Transactional

section Runs

variable {σ α : Type} (step : σ → α → Option σ)

def run : σ → List α → Option σ
  | s, [] => some s
  | s, a :: acts => (step s a).bind fun s' => run s' acts

def Along (P : σ → α → Prop) : σ → List α → Prop
  | _, [] => True
  | s, a :: acts => P s a ∧ ∀ s', step s a = some s' → Along P s' acts

def countAlong (p : σ → α → Bool) : σ → List α → ℕ
  | _, [] => 0
  | s, a :: acts => (if p s a then 1 else 0) +
      match step s a with
      | some s' => countAlong p s' acts
      | none => 0

instance Along.decidable (P : σ → α → Prop) [∀ s a, Decidable (P s a)] :
    (s : σ) → (acts : List α) → Decidable (Along step P s acts)
  | _, [] => .isTrue trivial
  | s, a :: acts =>
    have (s' : σ) : Decidable (Along step P s' acts) := Along.decidable P s' acts
    inferInstanceAs (Decidable (P s a ∧ ∀ s' ∈ step s a, Along step P s' acts))

@[simp] theorem run_nil (s : σ) : run step s [] = some s := rfl

theorem run_cons (s : σ) (a : α) (acts : List α) :
    run step s (a :: acts) = (step s a).bind fun s' => run step s' acts := rfl

variable {step}

theorem run_cons_of_step {s s' : σ} {a : α} {acts : List α} (h : step s a = some s') :
    run step s (a :: acts) = run step s' acts := by rw [run_cons, h, Option.bind_some]

theorem run_cons_eq_some {s s'' : σ} {a : α} {acts : List α}
    (h : run step s (a :: acts) = some s'') :
    ∃ s', step s a = some s' ∧ run step s' acts = some s'' := Option.bind_eq_some_iff.mp h

theorem countAlong_cons_of_step {p : σ → α → Bool} {s s' : σ} {a : α} {acts : List α}
    (h : step s a = some s') :
    countAlong step p s (a :: acts) = (if p s a then 1 else 0) + countAlong step p s' acts := by
  simp only [countAlong, h]

/-- An invariant of one step is an invariant of every run. -/
theorem run_invariant {I : σ → Prop} (hstep : ∀ s a s', I s → step s a = some s' → I s')
    {s s' : σ} {acts : List α} (hs : I s) (h : run step s acts = some s') : I s' := by
  induction acts generalizing s with
  | nil => exact Option.some.inj h ▸ hs
  | cons a acts ih =>
      obtain ⟨s₁, h₁, h₂⟩ := run_cons_eq_some h
      exact ih (hstep s a s₁ hs h₁) h₂

/-- Two step predicates that agree under an invariant agree along every run. -/
theorem along_congr {I : σ → Prop} {P Q : σ → α → Prop}
    (hstep : ∀ s a s', I s → step s a = some s' → I s')
    (hPQ : ∀ s a, I s → (P s a ↔ Q s a)) {s : σ} (hs : I s) (acts : List α) :
    Along step P s acts ↔ Along step Q s acts := by
  induction acts generalizing s with
  | nil => exact Iff.rfl
  | cons a acts ih =>
      refine and_congr (hPQ s a hs) (forall_congr' fun s' => ?_)
      exact forall_congr' fun h => ih (hstep s a s' hs h)

/-- What follows at one step from an invariant and `R` holds along every run along which `R`
does. -/
theorem along_of_along {I : σ → Prop} {R P : σ → α → Prop}
    (hstep : ∀ s a s', I s → R s a → step s a = some s' → I s')
    (hP : ∀ s a, I s → R s a → P s a) {s : σ} {acts : List α} (hs : I s)
    (hR : Along step R s acts) : Along step P s acts := by
  induction acts generalizing s with
  | nil => trivial
  | cons a acts ih =>
      exact ⟨hP s a hs hR.1, fun s' h => ih (hstep s a s' hs hR.1 h) (hR.2 s' h)⟩

/-- An invariant of the steps that meet a condition holds at the end of a run of such steps. -/
theorem run_invariant_of_along {I : σ → Prop} {R : σ → α → Prop}
    (hstep : ∀ s a s', I s → R s a → step s a = some s' → I s') {s s' : σ} {acts : List α}
    (hs : I s) (hR : Along step R s acts) (h : run step s acts = some s') : I s' := by
  induction acts generalizing s with
  | nil => exact Option.some.inj h ▸ hs
  | cons a acts ih =>
      obtain ⟨s₁, h₁, h₂⟩ := run_cons_eq_some h
      exact ih (hstep s a s₁ hs hR.1 h₁) (hR.2 s₁ h₁) h₂

/-- Two step predicates that agree where `R` holds agree along every run along which `R` does. -/
theorem along_congr_of_along {I : σ → Prop} {R P Q : σ → α → Prop}
    (hstep : ∀ s a s', I s → R s a → step s a = some s' → I s')
    (hPQ : ∀ s a, I s → (P s a ↔ Q s a)) {s : σ} {acts : List α} (hs : I s)
    (hR : Along step R s acts) : Along step P s acts ↔ Along step Q s acts := by
  induction acts generalizing s with
  | nil => exact Iff.rfl
  | cons a acts ih =>
      refine and_congr (hPQ s a hs) (forall_congr' fun s' => ?_)
      exact forall_congr' fun h => ih (hstep s a s' hs hR.1 h) (hR.2 s' h)

/-- Two counters that agree where `P` holds agree along every run along which `P` does. -/
theorem countAlong_congr {I : σ → Prop} {P : σ → α → Prop} {p q : σ → α → Bool}
    (hstep : ∀ s a s', I s → P s a → step s a = some s' → I s')
    (hpq : ∀ s a, I s → p s a = q s a) {s : σ} {acts : List α} (hs : I s)
    (hP : Along step P s acts) : countAlong step p s acts = countAlong step q s acts := by
  induction acts generalizing s with
  | nil => rfl
  | cons a acts ih =>
      cases h : step s a with
      | none => simp only [countAlong, h, hpq s a hs]
      | some s' =>
          rw [countAlong_cons_of_step h, countAlong_cons_of_step h, hpq s a hs]
          rw [ih (hstep s a s' hs hP.1 h) (hP.2 s' h)]

/-- A run ends well exactly when no step of it breaks the condition, provided steps that meet the
condition keep the good invariant, one that does not leads to the bad one, and the bad one stays. -/
theorem ends_well_iff_along {I J E G : σ → Prop} {C : σ → α → Prop}
    (hgood : ∀ s a s', I s → C s a → step s a = some s' → I s')
    (hbreak : ∀ s a s', I s → ¬ C s a → step s a = some s' → J s')
    (hbad : ∀ s a s', J s → step s a = some s' → J s')
    (hI : ∀ s, I s → E s → G s) (hJ : ∀ s, J s → E s → ¬ G s)
    {s s' : σ} {acts : List α} (hs : I s) (h : run step s acts = some s') (hend : E s') :
    G s' ↔ Along step C s acts := by
  induction acts generalizing s with
  | nil =>
      obtain rfl : s = s' := Option.some.inj h
      exact iff_of_true (hI s hs hend) trivial
  | cons a acts ih =>
      obtain ⟨s₁, h₁, h₂⟩ := run_cons_eq_some h
      by_cases hC : C s a
      · rw [ih (hgood s a s₁ hs hC h₁) h₂]
        constructor
        · intro hrest
          refine ⟨hC, fun s₂ hs₂ => ?_⟩
          obtain rfl : s₁ = s₂ := Option.some.inj (h₁.symm.trans hs₂)
          exact hrest
        · exact fun halong => halong.2 s₁ h₁
      · have hfail : ¬ G s' := hJ s' (run_invariant hbad (hbreak s a s₁ hs hC h₁) h₂) hend
        exact iff_of_false hfail fun halong => hC halong.1

end Runs

end Transactional
