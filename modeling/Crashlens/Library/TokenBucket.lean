import Mathlib.Algebra.Order.Floor.Ring
import Mathlib.Algebra.Order.Field.Basic
import Mathlib.Tactic.Linarith

/-!
# Token buckets

A bucket holds what was left after the last request and the time of it. The next request finds
that and the refill since then, up to the capacity, and takes its cost if there is enough; where
nothing is stored it finds a full bucket. What is stored stays between nothing and the capacity, so
a bucket that has been idle for as long as an empty one takes to refill is as good as none.
-/

namespace TokenBucket

structure Stored (K : Type) where
  tokens : K
  ts : K
deriving DecidableEq

section Rules

variable {K : Type} [CommRing K] [LinearOrder K]

structure Rules (K : Type) [CommRing K] [LinearOrder K] where
  capacity : K
  refill : K
  cost : K
  capacity_nonneg : 0 ≤ capacity
  refill_nonneg : 0 ≤ refill
  cost_nonneg : 0 ≤ cost

namespace Rules

variable (r : Rules K)

/-- The tokens a request finds at time `now`. -/
def level : Option (Stored K) → K → K
  | none, _ => r.capacity
  | some b, now => min r.capacity (b.tokens + max 0 (now - b.ts) * r.refill)

def left (b : Option (Stored K)) (now : K) : K :=
  if r.cost ≤ r.level b now then r.level b now - r.cost else r.level b now

def Sound (b : Stored K) : Prop := 0 ≤ b.tokens ∧ b.tokens ≤ r.capacity

variable {r} {b : Stored K} {now : K}

theorem level_le_capacity (b : Option (Stored K)) (now : K) : r.level b now ≤ r.capacity := by
  cases b with
  | none => exact le_rfl
  | some b => exact min_le_left _ _

/-- The level as a program computes it that reads the two fields apart. -/
theorem level_eq_getD (b : Option (Stored K)) (now : K) :
    r.level b now = min r.capacity ((b.map Stored.tokens).getD r.capacity +
      max 0 (now - (b.map Stored.ts).getD now) * r.refill) := by
  cases b with
  | none => simp [level]
  | some b => rfl

variable [IsStrictOrderedRing K]

theorem level_nonneg {b : Option (Stored K)} (h : ∀ b' ∈ b, 0 ≤ b'.tokens) (now : K) :
    0 ≤ r.level b now := by
  cases b with
  | none => exact r.capacity_nonneg
  | some b =>
      have hrefilled : 0 ≤ max 0 (now - b.ts) * r.refill :=
        mul_nonneg (le_max_left _ _) r.refill_nonneg
      exact le_min r.capacity_nonneg (add_nonneg (h b rfl) hrefilled)

theorem left_nonneg {b : Option (Stored K)} (h : ∀ b' ∈ b, 0 ≤ b'.tokens) (now : K) :
    0 ≤ r.left b now := by
  unfold left
  split_ifs with hcase
  · exact sub_nonneg.mpr hcase
  · exact level_nonneg h now

theorem left_le_capacity (b : Option (Stored K)) (now : K) : r.left b now ≤ r.capacity := by
  have hlevel : r.level b now ≤ r.capacity := level_le_capacity b now
  have hcost := r.cost_nonneg
  unfold left
  split_ifs with hcase
  · linarith
  · exact hlevel

theorem left_sound {b : Option (Stored K)} (h : ∀ b' ∈ b, r.Sound b') (now : K) :
    r.Sound ⟨r.left b now, now⟩ :=
  ⟨left_nonneg (fun b' hb' => (h b' hb').1) now, left_le_capacity b now⟩

/-- After a long enough pause the bucket is full, whatever was left in it. -/
theorem level_of_idle {ttl : K} (hb : r.Sound b) (httl : r.capacity ≤ ttl * r.refill)
    (hidle : b.ts + ttl ≤ now) : r.level (some b) now = r.level none now := by
  have hpause : ttl ≤ max 0 (now - b.ts) := le_max_of_le_right (by linarith)
  have hrefilled : ttl * r.refill ≤ max 0 (now - b.ts) * r.refill :=
    mul_le_mul_of_nonneg_right hpause r.refill_nonneg
  have htokens := hb.1
  exact min_eq_left (by linarith)

end Rules

end Rules

/-- Whole seconds up to the time to refill, and at least one more, are enough. -/
theorem le_floor_add_mul {K : Type} [Field K] [LinearOrder K] [IsStrictOrderedRing K] [FloorRing K]
    {capacity refill margin : K} (hrefill : 0 < refill) (hmargin : 1 ≤ margin) :
    capacity ≤ (⌊capacity / refill⌋ + margin) * refill := by
  have hfloor : capacity / refill < ⌊capacity / refill⌋ + 1 := Int.lt_floor_add_one _
  rw [← div_le_iff₀ hrefill]
  linarith

end TokenBucket
