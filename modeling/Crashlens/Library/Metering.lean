import Crashlens.Library.Transition
import Mathlib.Algebra.Order.Group.Defs
import Mathlib.Algebra.Order.Ring.Defs
import Mathlib.Algebra.BigOperators.Group.List.Basic
import Mathlib.Algebra.Order.Group.Unbundled.Basic
import Mathlib.Algebra.Order.Group.MinMax
import Mathlib.Data.Nat.Cast.Order.Basic
import Mathlib.Tactic.Abel
import Mathlib.Tactic.Linarith

/-!
# Metered runs

A run is metered by a potential that every counted step spends from and every step may top up: the
number of counted steps is at most the potential at the start plus everything that came in. Where
what comes in is the time a clock has moved forward, `sum_lengths_le_spread` bounds it by the span
of the clock's readings, provided the clock never moves forward over the same stretch twice.
-/

namespace Metering

open Transactional

section Potential

variable {σ α K : Type} [CommRing K] (step : σ → α → Option σ)

/-- A quantity of the steps of a run, added up. -/
def totalAlong (f : σ → α → K) : σ → List α → K
  | _, [] => 0
  | s, a :: acts => f s a +
      match step s a with
      | some s' => totalAlong f s' acts
      | none => 0

variable {step}

theorem totalAlong_cons_of_step {f : σ → α → K} {s s' : σ} {a : α} {acts : List α}
    (h : step s a = some s') :
    totalAlong step f s (a :: acts) = f s a + totalAlong step f s' acts := by
  simp only [totalAlong, h]

variable [LinearOrder K] [IsStrictOrderedRing K]

/-- Counted steps pay one unit each, so a run has no more of them than it was given. -/
theorem countAlong_le_potential {I : σ → Prop} {P : σ → α → Prop} {p : σ → α → Bool} {φ : σ → K}
    {gain : σ → α → K} (hφ : ∀ s, I s → 0 ≤ φ s)
    (hstep : ∀ s a, I s → P s a → ∃ s', step s a = some s' ∧ I s' ∧
      φ s' + (if p s a then 1 else 0) ≤ φ s + gain s a)
    {s : σ} {acts : List α} (hs : I s) (hP : Along step P s acts) :
    (countAlong step p s acts : K) ≤ φ s + totalAlong step gain s acts := by
  induction acts generalizing s with
  | nil =>
      have hpos := hφ s hs
      simp only [countAlong, totalAlong, Nat.cast_zero, add_zero]
      exact hpos
  | cons a acts ih =>
      obtain ⟨s', h, hs', hpay⟩ := hstep s a hs hP.1
      have hrest := ih hs' (hP.2 s' h)
      rw [countAlong_cons_of_step h, totalAlong_cons_of_step h]
      have hcast : (((if p s a then 1 else 0 : ℕ)) : K) = if p s a then 1 else 0 := by
        rw [Nat.cast_ite, Nat.cast_one, Nat.cast_zero]
      rw [Nat.cast_add, hcast]
      linarith

end Potential

section Lengths

variable {K : Type} [AddCommGroup K]

def lengths (moves : List (K × K)) : K := (moves.map fun p => p.2 - p.1).sum

theorem lengths_filter (moves : List (K × K)) (side : K × K → Bool) :
    lengths moves = lengths (moves.filter side) + lengths (moves.filter fun p => !side p) := by
  induction moves with
  | nil => simp [lengths]
  | cons p moves ih =>
      simp only [lengths, List.map_cons, List.sum_cons] at ih ⊢
      rw [ih]
      by_cases hp : side p = true
      · simp only [List.filter_cons, hp, if_true, Bool.not_true, Bool.false_eq_true, if_false,
          List.map_cons, List.sum_cons, add_assoc]
      · simp only [Bool.not_eq_true] at hp
        simp only [List.filter_cons, hp, if_true, Bool.not_false, Bool.false_eq_true, if_false,
          List.map_cons, List.sum_cons]
        abel

end Lengths

section Clock

variable {K : Type} [LinearOrder K]

/-- The stretches a clock moves forward over, from each reading to the next later one. -/
def forwardMoves : List K → List (K × K)
  | t :: t' :: ts => if t < t' then (t, t') :: forwardMoves (t' :: ts) else forwardMoves (t' :: ts)
  | _ => []

/-- The two stretches share no instant. -/
def Apart (p q : K × K) : Prop := p.2 ≤ q.1 ∨ q.2 ≤ p.1

instance (p q : K × K) : Decidable (Apart p q) := inferInstanceAs (Decidable (_ ∨ _))

theorem mem_forwardMoves {ts : List K} {p : K × K} (hp : p ∈ forwardMoves ts) :
    p.1 ∈ ts ∧ p.2 ∈ ts ∧ p.1 < p.2 := by
  induction ts with
  | nil => simp [forwardMoves] at hp
  | cons t ts ih =>
      cases ts with
      | nil => simp [forwardMoves] at hp
      | cons t' ts =>
          have htail (h : p ∈ forwardMoves (t' :: ts)) :
              p.1 ∈ t :: t' :: ts ∧ p.2 ∈ t :: t' :: ts ∧ p.1 < p.2 := by
            obtain ⟨h1, h2, hlt⟩ := ih h
            exact ⟨List.mem_cons_of_mem _ h1, List.mem_cons_of_mem _ h2, hlt⟩
          by_cases hlt : t < t'
          · rw [forwardMoves, if_pos hlt, List.mem_cons] at hp
            rcases hp with rfl | hp
            · exact ⟨by simp, by simp, hlt⟩
            · exact htail hp
          · rw [forwardMoves, if_neg hlt] at hp
            exact htail hp

variable [AddCommGroup K]

/-- Latest reading less earliest. -/
def spread (ts : List K) : K :=
  match ts.max?, ts.min? with
  | some hi, some lo => hi - lo
  | _, _ => 0

variable [IsOrderedAddMonoid K]

/-- Stretches within bounds, no two of which share an instant, are no longer than the bounds are
apart. Every stretch lies on one side of the first one. -/
theorem lengths_le {moves : List (K × K)} {lo hi : K} (hle : lo ≤ hi)
    (hin : ∀ p ∈ moves, lo ≤ p.1 ∧ p.1 < p.2 ∧ p.2 ≤ hi) (hapart : moves.Pairwise Apart) :
    lengths moves ≤ hi - lo := by
  induction hn : moves.length using Nat.strong_induction_on generalizing moves lo hi with
  | _ n ih =>
    cases moves with
    | nil =>
        simp only [lengths, List.map_nil, List.sum_nil]
        exact sub_nonneg.mpr hle
    | cons p moves =>
        subst hn
        obtain ⟨hp, hmoves⟩ := List.pairwise_cons.mp hapart
        obtain ⟨hlo, hlt, hhi⟩ := hin p List.mem_cons_self
        let before : K × K → Bool := fun q => decide (q.2 ≤ p.1)
        have hshort (side : K × K → Bool) : (moves.filter side).length < (p :: moves).length := by
          have h := List.length_filter_le side moves
          rw [List.length_cons]
          omega
        have hleft : lengths (moves.filter before) ≤ p.1 - lo := by
          refine ih _ (hshort before) hlo (fun q hq => ?_) (hmoves.filter _) rfl
          obtain ⟨hmem, hside⟩ := List.mem_filter.mp hq
          obtain ⟨h1, h2, -⟩ := hin q (List.mem_cons_of_mem _ hmem)
          exact ⟨h1, h2, of_decide_eq_true hside⟩
        have hright : lengths (moves.filter fun q => !before q) ≤ hi - p.2 := by
          refine ih _ (hshort _) hhi (fun q hq => ?_) (hmoves.filter _) rfl
          obtain ⟨hmem, hside⟩ := List.mem_filter.mp hq
          obtain ⟨-, h2, h3⟩ := hin q (List.mem_cons_of_mem _ hmem)
          have hnot : ¬ q.2 ≤ p.1 := by simpa [before] using hside
          exact ⟨(hp q hmem).resolve_right hnot, h2, h3⟩
        have hsplit := lengths_filter moves before
        have hcons : lengths (p :: moves) = (p.2 - p.1) + lengths moves := by
          simp only [lengths, List.map_cons, List.sum_cons]
        calc lengths (p :: moves)
            = (p.2 - p.1) + (lengths (moves.filter before) +
                lengths (moves.filter fun q => !before q)) := by rw [hcons, hsplit]
          _ ≤ (p.2 - p.1) + ((p.1 - lo) + (hi - p.2)) :=
              add_le_add_right (add_le_add hleft hright) _
          _ = hi - lo := by abel

/-- A clock that moves forward over no instant twice has moved forward at most by its spread. -/
theorem lengths_le_spread {ts : List K} (hapart : (forwardMoves ts).Pairwise Apart) :
    lengths (forwardMoves ts) ≤ spread ts := by
  cases ts with
  | nil => simp [forwardMoves, lengths, spread]
  | cons t ts =>
      obtain ⟨hi, hmax⟩ : ∃ hi, (t :: ts).max? = some hi := ⟨_, List.max?_cons'⟩
      obtain ⟨lo, hmin⟩ : ∃ lo, (t :: ts).min? = some lo := ⟨_, List.min?_cons'⟩
      have hupper := (List.max?_eq_some_iff.mp hmax).2
      have hlower := (List.min?_eq_some_iff.mp hmin).2
      have hspread : spread (t :: ts) = hi - lo := by simp only [spread, hmax, hmin]
      rw [hspread]
      have hle : lo ≤ hi := (hlower t List.mem_cons_self).trans (hupper t List.mem_cons_self)
      refine lengths_le hle (fun p hp => ?_) hapart
      obtain ⟨h1, h2, hlt⟩ := mem_forwardMoves hp
      exact ⟨hlower _ h1, hlt, hupper _ h2⟩

end Clock

end Metering
