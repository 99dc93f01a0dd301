import Mathlib.Algebra.BigOperators.Group.List.Basic
import Mathlib.Algebra.GroupWithZero.Nat
import Mathlib.Data.List.Dedup
import Mathlib.Data.Int.Notation

/-!
# Counting by a key

`GROUP BY key` with `count(*)`, what a dictionary of the groups answers, and the count over a window
of integer keys as the sum of the counts of its keys.
-/

namespace Tally

variable {α κ : Type} [DecidableEq κ] (key : α → κ)

/-- One row for each key that occurs, with the number of its elements. -/
def tally (xs : List α) : List (κ × ℕ) :=
  (xs.map key).dedup.map fun k => (k, xs.countP fun a => key a = k)

theorem lookup_map_of_mem {f : κ → ℕ} {ks : List κ} {k : κ} (h : k ∈ ks) :
    (ks.map fun k => (k, f k)).lookup k = some (f k) := by
  induction ks with
  | nil => cases h
  | cons k' ks ih =>
      rw [List.map_cons, List.lookup_cons]
      by_cases hk : k = k'
      · simp [hk]
      · rw [beq_false_of_ne hk]
        exact ih ((List.mem_cons.mp h).resolve_left hk)

theorem lookup_map_of_not_mem {f : κ → ℕ} {ks : List κ} {k : κ} (h : k ∉ ks) :
    (ks.map fun k => (k, f k)).lookup k = none := by
  rw [List.lookup_eq_none_iff]
  intro row hrow
  obtain ⟨k', hk', rfl⟩ := List.mem_map.mp hrow
  have hne : k ≠ k' := by
    rintro rfl
    exact h hk'
  exact bne_iff_ne.mpr hne

variable {key}

/-- A key without a row counts nothing. -/
theorem lookup_tally (xs : List α) (k : κ) :
    ((tally key xs).lookup k).getD 0 = xs.countP fun a => key a = k := by
  unfold tally
  by_cases h : k ∈ (xs.map key).dedup
  · rw [lookup_map_of_mem h, Option.getD_some]
  · have hnone : xs.countP (fun a => key a = k) = 0 := by
      rw [List.countP_eq_zero]
      intro a ha heq
      exact h (List.mem_dedup.mpr (List.mem_map.mpr ⟨a, ha, of_decide_eq_true heq⟩))
    rw [lookup_map_of_not_mem h, hnone, Option.getD_none]

theorem countP_add_of_disjoint {p q r : α → Bool} (hr : ∀ a, r a = (p a || q a))
    (hdisjoint : ∀ a, p a = true → q a = false) (xs : List α) :
    xs.countP p + xs.countP q = xs.countP r := by
  induction xs with
  | nil => rfl
  | cons a xs ih =>
      rw [List.countP_cons, List.countP_cons, List.countP_cons, ← ih, hr]
      cases hp : p a with
      | true =>
          rw [hdisjoint a hp]
          simp only [Bool.or_false, if_true, Bool.false_eq_true, if_false]
          omega
      | false =>
          rw [Bool.false_or, if_neg Bool.false_ne_true]
          omega

/-- The counts of consecutive keys add up to the count of the window. -/
theorem sum_countP_window (key : α → ℤ) (xs : List α) (start : ℤ) (n : ℕ) :
    ((List.range n).map fun k : ℕ => xs.countP fun a => key a = start + (k : ℤ)).sum =
      xs.countP fun a => start ≤ key a ∧ key a < start + n := by
  induction n with
  | zero =>
      rw [List.range_zero, List.map_nil, List.sum_nil, eq_comm, List.countP_eq_zero]
      intro a _ h
      have hwindow := of_decide_eq_true h
      omega
  | succ n ih =>
      rw [List.range_succ, List.map_append, List.sum_append, ih, List.map_singleton,
        List.sum_singleton]
      apply countP_add_of_disjoint
      · intro a
        rw [Bool.eq_iff_iff, Bool.or_eq_true, decide_eq_true_eq, decide_eq_true_eq,
          decide_eq_true_eq]
        omega
      · intro a ha
        have hwindow := of_decide_eq_true ha
        exact decide_eq_false (by omega)

end Tally
