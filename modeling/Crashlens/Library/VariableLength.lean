import Mathlib.Data.Nat.Digits.Defs

/-!
# Variable-length quantities

A number is its digits to a base, least significant first, and a digit that others of the same
number follow is larger by the base. A sequence of numbers is their digits one after the other. What
a reader makes of a sequence is again the numbers, and it fails only where the last digit promises
another one.

Integers are numbers with the sign in the lowest bit.
-/

namespace VariableLength

/-! ## Integers as numbers -/

def ofInt : ℤ → ℕ
  | .ofNat n => 2 * n
  | .negSucc n => 2 * (n + 1) + 1

def toInt (n : ℕ) : ℤ := if n % 2 = 1 then -(n / 2 : ℕ) else (n / 2 : ℕ)

theorem toInt_ofInt (z : ℤ) : toInt (ofInt z) = z := by
  cases z with
  | ofNat n =>
      rw [ofInt, toInt, if_neg (by omega)]
      have hhalf : 2 * n / 2 = n := by omega
      rw [hhalf]
      rfl
  | negSucc n =>
      rw [ofInt, toInt, if_pos (by omega)]
      have hhalf : (2 * (n + 1) + 1) / 2 = n + 1 := by omega
      rw [hhalf]
      rfl

/-! ## Sequences of numbers -/

section Sequences

variable (b : ℕ)

/-- Every digit but the last is marked; no digits are the number zero. -/
def mark : List ℕ → List ℕ
  | [] => [0]
  | [d] => [d]
  | d :: ds => (d + b) :: mark ds

def encode (n : ℕ) : List ℕ := mark b (b.digits n)

/-- `unit` is what the next digit of the open number counts for, and `acc` what those before it
count for. -/
def decodeFrom : List ℕ → (unit acc : ℕ) → (incomplete : Bool) → Option (List ℕ)
  | [], _, _, incomplete => if incomplete then none else some []
  | d :: ds, unit, acc, _ =>
    if b ≤ d then decodeFrom ds (unit * b) (acc + d % b * unit) true
    else (decodeFrom ds 1 0 false).map ((acc + d % b * unit) :: ·)

def decode (ds : List ℕ) : Option (List ℕ) := decodeFrom b ds 1 0 false

variable {b}

theorem decodeFrom_mark {ds : List ℕ} (hds : ∀ d ∈ ds, d < b) (hb : 0 < b) (rest : List ℕ)
    (unit acc : ℕ) (incomplete : Bool) :
    decodeFrom b (mark b ds ++ rest) unit acc incomplete =
      (decodeFrom b rest 1 0 false).map ((acc + Nat.ofDigits b ds * unit) :: ·) := by
  fun_induction mark b ds generalizing unit acc incomplete with
  | case1 =>
      rw [List.singleton_append, decodeFrom, if_neg (by omega), Nat.zero_mod, Nat.ofDigits_nil]
  | case2 d =>
      have hd : d < b := hds d List.mem_cons_self
      rw [List.singleton_append, decodeFrom, if_neg (by omega), Nat.mod_eq_of_lt hd,
        Nat.ofDigits_singleton]
  | case3 d ds hne ih =>
      have hd : d < b := hds d List.mem_cons_self
      rw [List.cons_append, decodeFrom, if_pos (Nat.le_add_left b d), Nat.add_mod_right,
        Nat.mod_eq_of_lt hd, ih (fun d hd => hds d (List.mem_cons_of_mem _ hd)),
        Nat.ofDigits_cons]
      refine congrArg (fun n => (decodeFrom b rest 1 0 false).map (n :: ·)) ?_
      ring

theorem decodeFrom_encode (hb : 1 < b) (n : ℕ) (rest : List ℕ) :
    decodeFrom b (encode b n ++ rest) 1 0 false =
      (decodeFrom b rest 1 0 false).map (n :: ·) := by
  rw [encode, decodeFrom_mark (fun d hd => Nat.digits_lt_base hb hd) (by omega),
    Nat.ofDigits_digits, Nat.zero_add, Nat.mul_one]

theorem decode_encode (hb : 1 < b) (ns : List ℕ) : decode b (ns.flatMap (encode b)) = some ns := by
  induction ns with
  | nil => rfl
  | cons n ns ih =>
      unfold decode at ih
      rw [List.flatMap_cons, decode, decodeFrom_encode hb, ih, Option.map_some]

theorem mark_lt {ds : List ℕ} (hds : ∀ d ∈ ds, d < b) (hb : 0 < b) :
    ∀ d ∈ mark b ds, d < 2 * b := by
  fun_induction mark b ds with
  | case1 =>
      intro d hd
      rw [List.mem_singleton.mp hd]
      omega
  | case2 d =>
      intro d' hd'
      rw [List.mem_singleton.mp hd']
      have hd := hds d List.mem_cons_self
      omega
  | case3 d ds hne ih =>
      rw [List.forall_mem_cons] at hds ⊢
      exact ⟨by have := hds.1; omega, ih hds.2⟩

theorem encode_lt (hb : 1 < b) (n : ℕ) : ∀ d ∈ encode b n, d < 2 * b :=
  mark_lt (fun _ hd => Nat.digits_lt_base hb hd) (by omega)

/-- The last digit promises another one. -/
def Unfinished (b : ℕ) (ds : List ℕ) : Prop := ∃ d, ds.getLast? = some d ∧ b ≤ d

theorem decodeFrom_eq_none_iff {ds : List ℕ} {unit acc : ℕ} {incomplete : Bool} :
    decodeFrom b ds unit acc incomplete = none ↔
      Unfinished b ds ∨ ds = [] ∧ incomplete = true := by
  induction ds generalizing unit acc incomplete with
  | nil => simp [decodeFrom, Unfinished]
  | cons d ds ih =>
      have hlast : Unfinished b (d :: ds) ↔ Unfinished b ds ∨ ds = [] ∧ b ≤ d := by
        cases ds with
        | nil => simp [Unfinished]
        | cons d' ds => simp [Unfinished, List.getLast?_cons]
      rw [decodeFrom, hlast]
      split_ifs with hd
      · rw [ih]
        simp [hd]
      · rw [Option.map_eq_none_iff, ih]
        simp [hd]

theorem decode_eq_none_iff {ds : List ℕ} : decode b ds = none ↔ Unfinished b ds := by
  rw [decode, decodeFrom_eq_none_iff]
  simp

end Sequences

end VariableLength
