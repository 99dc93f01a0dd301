import Mathlib.Data.List.Basic

/-!
# Pages of a list

A page is a slice of a list, and the pages up to the last are the list, cut in pieces.
-/

namespace Paging

variable {α : Type}

/-- `LIMIT perPage OFFSET offset` -/
def slice (perPage offset : ℕ) (xs : List α) : List α := (xs.drop offset).take perPage

/-- The number of pages, a last one that is not full among them. -/
def pageCount (total perPage : ℕ) : ℕ := (total + perPage - 1) / perPage

theorem le_pageCount_mul (total : ℕ) {perPage : ℕ} (h : 0 < perPage) :
    total ≤ pageCount total perPage * perPage := by
  have hdiv := Nat.div_add_mod (total + perPage - 1) perPage
  have hmod := Nat.mod_lt (total + perPage - 1) h
  rw [pageCount, Nat.mul_comm]
  omega

theorem flatten_slices (perPage n : ℕ) (xs : List α) :
    ((List.range n).map fun i => slice perPage (i * perPage) xs).flatten =
      xs.take (n * perPage) := by
  induction n with
  | zero => simp
  | succ n ih =>
      rw [List.range_succ, List.map_append, List.flatten_append, ih, List.map_singleton,
        List.flatten_singleton, slice, ← List.take_add, Nat.succ_mul]

theorem flatMap_pages {β : Type} (f : α → β) {perPage : ℕ} (h : 0 < perPage) (xs : List α) :
    ((List.range (pageCount xs.length perPage)).flatMap fun i =>
      (slice perPage (i * perPage) xs).map f) = xs.map f := by
  have hpages := flatten_slices perPage (pageCount xs.length perPage) xs
  rw [List.take_of_length_le (le_pageCount_mul _ h)] at hpages
  have hmap := congrArg (List.map f) hpages
  rw [List.map_flatten, List.map_map] at hmap
  rw [List.flatMap_def]
  exact hmap

end Paging
