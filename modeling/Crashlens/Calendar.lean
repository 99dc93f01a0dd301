import Crashlens.Database

/-!
# Dates and instants as text

`date.isoformat` and `datetime.isoformat` of a UTC time. Days are counted from the epoch; the year
of the calculation starts in March, so that the leap day is its last.
-/

namespace Crashlens

/-- A date, with the year of the calculation and the month counted from March. -/
@[ext] structure Civil where
  year : ℤ
  month : ℤ
  day : ℤ
deriving DecidableEq

def daysBeforeMonth (month : ℤ) : ℤ := (153 * month + 2) / 5

/-- The day of a date. -/
def Civil.toDay (c : Civil) : ℤ :=
  365 * c.year + c.year / 4 - c.year / 100 + c.year / 400 + daysBeforeMonth c.month + c.day - 719469

/-- The date of a day: whole spans of 400, 100, 4 years and 1 year are taken off in turn. -/
def civil (n : ℤ) : Civil :=
  let n400 := (n + 719468) / 146097
  let r400 := (n + 719468) % 146097
  let n100 := min 3 (r400 / 36524)
  let r100 := r400 - 36524 * n100
  let n4 := r100 / 1461
  let r4 := r100 % 1461
  let n1 := min 3 (r4 / 365)
  let r1 := r4 - 365 * n1
  let month := (5 * r1 + 2) / 153
  ⟨400 * n400 + 100 * n100 + 4 * n4 + n1, month, r1 - daysBeforeMonth month + 1⟩

/-- The years of a split day count, whose leap days the divisions count. -/
theorem year_quotients (n400 : ℤ) {n100 n4 n1 : ℤ} (h100 : 0 ≤ n100 ∧ n100 ≤ 3)
    (h4 : 0 ≤ n4 ∧ n4 ≤ 24) (h1 : 0 ≤ n1 ∧ n1 ≤ 3) :
    (400 * n400 + 100 * n100 + 4 * n4 + n1) / 4 = 100 * n400 + 25 * n100 + n4 ∧
      (400 * n400 + 100 * n100 + 4 * n4 + n1) / 100 = 4 * n400 + n100 ∧
      (400 * n400 + 100 * n100 + 4 * n4 + n1) / 400 = n400 := by
  omega

theorem civil_toDay (n : ℤ) : (civil n).toDay = n := by
  have h100 : 0 ≤ min 3 ((n + 719468) % 146097 / 36524) ∧
      min 3 ((n + 719468) % 146097 / 36524) ≤ 3 := by omega
  have hr100 : 0 ≤ (n + 719468) % 146097 - 36524 * min 3 ((n + 719468) % 146097 / 36524) ∧
      (n + 719468) % 146097 - 36524 * min 3 ((n + 719468) % 146097 / 36524) < 36525 := by omega
  simp only [civil, Civil.toDay]
  have hn := Int.mul_ediv_add_emod (n + 719468) 146097
  generalize (n + 719468) / 146097 = n400 at *
  generalize hn100 : min 3 ((n + 719468) % 146097 / 36524) = n100 at *
  generalize hr : (n + 719468) % 146097 - 36524 * n100 = r100 at *
  have h4 : 0 ≤ r100 / 1461 ∧ r100 / 1461 ≤ 24 := by omega
  have h1 : 0 ≤ min 3 (r100 % 1461 / 365) ∧ min 3 (r100 % 1461 / 365) ≤ 3 := by omega
  obtain ⟨hq4, hq100, hq400⟩ := year_quotients n400 h100 h4 h1
  rw [hq4, hq100, hq400]
  omega

theorem civil_bounds (n : ℤ) : 0 ≤ (civil n).month ∧ (civil n).month ≤ 11 ∧
    1 ≤ (civil n).day ∧ (civil n).day ≤ 31 := by
  simp only [civil, daysBeforeMonth]
  omega

/-! ## Text -/

/-- The last `width` decimal digits. -/
def decimal : ℕ → ℤ → PyStr
  | 0, _ => []
  | width + 1, n => decimal width (n / 10) ++ [CodePoint.ofNat (48 + (n % 10).toNat)]

/-- The calendar year, which starts in January. -/
def Civil.calendarYear (c : Civil) : ℤ := if c.month < 10 then c.year else c.year + 1

def Civil.calendarMonth (c : Civil) : ℤ := if c.month < 10 then c.month + 3 else c.month - 9

/-- `date.isoformat` -/
def isoDate (n : ℤ) : PyStr :=
  decimal 4 (civil n).calendarYear ++ (py "-" ++ (decimal 2 (civil n).calendarMonth ++
    (py "-" ++ decimal 2 (civil n).day)))

/-- `datetime.isoformat` of a UTC time, without a fraction that is zero. -/
def isoformat (t : Timestamp) : PyStr :=
  let second := t / 1000000 % 86400
  let fraction := t % 1000000
  isoDate (utcDay t) ++ py "T" ++ decimal 2 (second / 3600) ++ py ":" ++
    decimal 2 (second / 60 % 60) ++ py ":" ++ decimal 2 (second % 60) ++
    (if fraction = 0 then [] else py "." ++ decimal 6 fraction) ++ py "+00:00"

@[simp] theorem length_decimal (width : ℕ) (n : ℤ) : (decimal width n).length = width := by
  induction width generalizing n with
  | zero => rfl
  | succ width ih => simp [decimal, ih]

theorem decimal_injective {width : ℕ} {m n : ℤ} (hm : 0 ≤ m ∧ m < 10 ^ width)
    (hn : 0 ≤ n ∧ n < 10 ^ width) (h : decimal width m = decimal width n) : m = n := by
  induction width generalizing m n with
  | zero => omega
  | succ width ih =>
      obtain ⟨hfront, hlast⟩ := List.append_inj' h rfl
      have hquot : m / 10 = n / 10 := by
        rw [pow_succ] at hm hn
        exact ih (by omega) (by omega) hfront
      have hdigit : ∀ a b : Fin 10, CodePoint.ofNat (48 + a.val) = CodePoint.ofNat (48 + b.val) →
          a = b := by decide
      have hrem := hdigit ⟨(m % 10).toNat, by omega⟩ ⟨(n % 10).toNat, by omega⟩
        (List.singleton_inj.mp hlast)
      rw [Fin.mk.injEq] at hrem
      omega

/-- Days of four-digit years have different texts. -/
theorem isoDate_injective {m n : ℤ}
    (hm : 0 ≤ (civil m).calendarYear ∧ (civil m).calendarYear < 10000)
    (hn : 0 ≤ (civil n).calendarYear ∧ (civil n).calendarYear < 10000)
    (h : isoDate m = isoDate n) : m = n := by
  obtain ⟨hm0, hm11, hm1, hm31⟩ := civil_bounds m
  obtain ⟨hn0, hn11, hn1, hn31⟩ := civil_bounds n
  obtain ⟨hyear, h⟩ := List.append_inj h (by simp)
  obtain ⟨-, h⟩ := List.append_inj h rfl
  obtain ⟨hmonth, h⟩ := List.append_inj h (by simp)
  obtain ⟨-, hday⟩ := List.append_inj h rfl
  have hyear := decimal_injective (by omega) (by omega) hyear
  have hday := decimal_injective (by omega) (by omega) hday
  have hmonth : (civil m).calendarMonth = (civil n).calendarMonth := by
    refine decimal_injective ?_ ?_ hmonth <;> unfold Civil.calendarMonth <;> split_ifs <;> omega
  have hmonths : (civil m).month = (civil n).month := by
    unfold Civil.calendarMonth at hmonth
    split_ifs at hmonth <;> omega
  have hyears : (civil m).year = (civil n).year := by
    unfold Civil.calendarYear at hyear
    rw [hmonths] at hyear
    split_ifs at hyear <;> omega
  rw [← civil_toDay m, Civil.ext hyears hmonths hday, civil_toDay]

end Crashlens
