import Mathlib.Algebra.Order.Field.Rat

/-!
# JavaScript numbers

As far as the SDKs use them: as a bound on the length of a queue, with `Math.max` and the comparison
with a length, exact on every number a length is compared with; and as the value of a run of decimal
digits, rounded to the 53 bits of a double.
-/

namespace Crashlens

inductive JsNumber where
  | nan
  | negInfinity
  | posInfinity
  | finite (q : ℚ)
deriving DecidableEq

namespace JsNumber

/-- `n > x` for a length `n`. -/
def lt : JsNumber → ℕ → Bool
  | nan, _ => false
  | negInfinity, _ => true
  | posInfinity, _ => false
  | finite q, n => q < n

/-- `Math.max(q, x)` -/
def max (q : ℚ) : JsNumber → JsNumber
  | nan => nan
  | negInfinity => finite q
  | posInfinity => posInfinity
  | finite x => finite (Max.max q x)

/-- The first power of two that is too large for a double. -/
def doubleLimit : ℕ := 2 ^ 1024

/-- The double nearest to `n`, ties to the even one of two neighbours. -/
def ofNat (n : ℕ) : JsNumber :=
  let unit := 2 ^ (n.log2 - 52)
  let rest := n % unit
  let units := n / unit + if unit < 2 * rest ∨ unit = 2 * rest ∧ n / unit % 2 = 1 then 1 else 0
  if units * unit < doubleLimit then finite (units * unit : ℕ) else posInfinity

/-- Below `2 ^ 53` every natural is a double. -/
theorem ofNat_of_lt {n : ℕ} (h : n < 2 ^ 53) : ofNat n = finite n := by
  have hlog : n.log2 - 52 = 0 := by
    rcases Nat.eq_zero_or_pos n with rfl | hpos
    · rfl
    · have hlt := (Nat.log2_lt hpos.ne').mpr h
      omega
  have hpow : ∀ k, 53 ≤ k → n < 2 ^ k := fun k hk =>
    h.trans_le (Nat.pow_le_pow_right Nat.two_pos hk)
  have hbound : n < doubleLimit := hpow 1024 (by omega)
  have hexact : ¬ (1 < 0 ∨ 1 = 0 ∧ n % 2 = 1) := by omega
  simp only [ofNat, hlog, Nat.pow_zero, Nat.mod_one, Nat.div_one, Nat.mul_one, Nat.mul_zero]
  rw [if_neg hexact, Nat.add_zero, if_pos hbound]

theorem max_one_not_lt (x : JsNumber) : (max 1 x).lt 1 = false := by
  cases x <;> simp [max, lt]

end JsNumber

end Crashlens
