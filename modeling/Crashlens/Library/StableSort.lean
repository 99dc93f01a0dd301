import Mathlib.Data.List.Sort

/-!
# Stable sorting by a key

What a stable sort makes of a list, and what is found in the result by going along it as far as a
bound on the key.
-/

namespace StableSort

variable {α κ : Type} [LinearOrder κ] (key : α → κ)

/-- Elements with the same key keep their order. -/
structure StablySorted (xs ys : List α) : Prop where
  perm : ys.Perm xs
  sorted : ys.Pairwise fun a b => key a ≤ key b
  stable : ∀ k, ys.filter (fun a => key a = k) = xs.filter fun a => key a = k

theorem stablySorted_insertionSort (xs : List α) :
    StablySorted key xs (xs.insertionSort fun a b => key a ≤ key b) := by
  have htotal : Std.Total fun a b : α => key a ≤ key b := ⟨fun a b => le_total (key a) (key b)⟩
  have htrans : IsTrans α fun a b => key a ≤ key b := ⟨fun _ _ _ => le_trans⟩
  have hperm := List.perm_insertionSort (fun a b : α => key a ≤ key b) xs
  refine ⟨hperm, List.pairwise_insertionSort _ xs, fun k => ?_⟩
  have heq : (xs.filter fun a => key a = k).Pairwise fun a b => key a ≤ key b := by
    refine List.pairwise_of_forall_mem_list fun a ha b hb => ?_
    have hka := of_decide_eq_true (List.mem_filter.mp ha).2
    have hkb := of_decide_eq_true (List.mem_filter.mp hb).2
    exact (hka.trans hkb.symm).le
  have hsub := (List.sublist_insertionSort heq List.filter_sublist).filter fun a => key a = k
  rw [List.filter_filter] at hsub
  simp only [Bool.and_self] at hsub
  exact (hsub.eq_of_length (hperm.filter _).length_eq.symm).symm

variable {key}

/-- Going along a sorted list finds all that is within the bound. -/
theorem takeWhile_eq_filter {ys : List α} (h : ys.Pairwise fun a b => key a ≤ key b) (k : κ) :
    ys.takeWhile (fun a => key a ≤ k) = ys.filter fun a => key a ≤ k := by
  induction ys with
  | nil => rfl
  | cons a ys ih =>
      obtain ⟨ha, hys⟩ := List.pairwise_cons.mp h
      by_cases hk : key a ≤ k
      · rw [List.takeWhile_cons, List.filter_cons, if_pos (decide_eq_true hk),
          if_pos (decide_eq_true hk), ih hys]
      · have hnone : ys.filter (fun a => key a ≤ k) = [] :=
          List.filter_eq_nil_iff.mpr fun b hb hle =>
            hk ((ha b hb).trans (of_decide_eq_true hle))
        have hstop : ¬ decide (key a ≤ k) = true := fun h => hk (of_decide_eq_true h)
        rw [List.takeWhile_cons, List.filter_cons, if_neg hstop, if_neg hstop, hnone]

end StableSort
