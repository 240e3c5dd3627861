import Mathlib.Algebra.Order.Monoid.Unbundled.Basic
import Mathlib.Logic.Function.Iterate
import Mathlib.Order.Monotone.Basic
import Mathlib.Tactic.IntervalCases

/-!
# Gregorian dates

The proleptic Gregorian calendar from year 0 on. A date is followed by the next one, and its
number counts the days since the first of January of year 0.

## Key results

- `number_next`: the next date has the next number.
- `number_lt_iff`: the numbers order the dates by year, month and day.
- `iterate_next_eq_iff`: the date that lies a number of days after another one
-/

namespace Gregorian

/-! ## Years -/

/-- Every fourth year, except for the hundredth ones that are not four-hundredth ones. -/
def Leap (y : Nat) : Prop := y % 4 = 0 ∧ (y % 100 = 0 → y % 400 = 0)

instance (y : Nat) : Decidable (Leap y) := inferInstanceAs (Decidable (_ ∧ _))

def yearLength (y : Nat) : Nat := if Leap y then 366 else 365

/-- The number of days in the years before a year. -/
def daysBeforeYear (y : Nat) : Nat := 365 * y + (y + 3) / 4 - (y + 99) / 100 + (y + 399) / 400

/-- The days before the next year. -/
theorem daysBeforeYear_succ (y : Nat) :
    daysBeforeYear (y + 1) = daysBeforeYear y + yearLength y := by
  -- each of the three quotients grows behind its own years
  have h4 : (y + 1 + 3) / 4 = (y + 3) / 4 + if y % 4 = 0 then 1 else 0 := by split <;> omega
  have h100 : (y + 1 + 99) / 100 = (y + 99) / 100 + if y % 100 = 0 then 1 else 0 := by
    split <;> omega
  have h400 : (y + 1 + 399) / 400 = (y + 399) / 400 + if y % 400 = 0 then 1 else 0 := by
    split <;> omega
  have hle : (y + 99) / 100 ≤ (y + 3) / 4 := by omega
  unfold daysBeforeYear yearLength Leap
  rw [h4, h100, h400]
  by_cases hfour : y % 4 = 0
  · by_cases hhundred : y % 100 = 0
    · by_cases hlong : y % 400 = 0
      · simp only [hfour, hhundred, hlong, if_true, true_and, imp_self]
        omega
      · simp only [hfour, hhundred, hlong, if_true, if_false, true_and, forall_const]
        omega
    · have hlong : y % 400 ≠ 0 := by omega
      simp only [hfour, hhundred, hlong, if_true, if_false, true_and, false_imp_iff]
      omega
  · have hhundred : y % 100 ≠ 0 := by omega
    have hlong : y % 400 ≠ 0 := by omega
    simp only [hfour, hhundred, hlong, if_false, false_and]
    omega

/-- Later years have more days before them. -/
theorem daysBeforeYear_mono {y z : Nat} (h : y ≤ z) : daysBeforeYear y ≤ daysBeforeYear z := by
  have hmono : Monotone daysBeforeYear := monotone_nat_of_le_succ fun y => by
    rw [daysBeforeYear_succ]
    exact Nat.le_add_right _ _
  exact hmono h

/-! ## Months -/

def monthLength (y : Nat) : Nat → Nat
  | 1 | 3 | 5 | 7 | 8 | 10 | 12 => 31
  | 4 | 6 | 9 | 11 => 30
  | 2 => if Leap y then 29 else 28
  | _ => 0

/-- The number of days in the months of a year before a month. -/
def daysBeforeMonth (y m : Nat) : Nat :=
  (367 * m - 362) / 12 - if m ≤ 2 then 0 else if Leap y then 1 else 2

/-- There are none before January. -/
theorem daysBeforeMonth_one (y : Nat) : daysBeforeMonth y 1 = 0 := rfl

/-- The days before the next month. -/
theorem daysBeforeMonth_succ (y : Nat) {m : Nat} (hpos : 1 ≤ m) (hle : m ≤ 12) :
    daysBeforeMonth y (m + 1) = daysBeforeMonth y m + monthLength y m := by
  unfold daysBeforeMonth
  by_cases hleap : Leap y
  · interval_cases m <;> simp [monthLength, hleap]
  · interval_cases m <;> simp [monthLength, hleap]

/-- Behind the last month the year is over. -/
theorem daysBeforeMonth_thirteen (y : Nat) : daysBeforeMonth y 13 = yearLength y := by
  unfold daysBeforeMonth yearLength
  by_cases hleap : Leap y
  · rw [if_pos hleap, if_pos hleap]
    rfl
  · rw [if_neg hleap, if_neg hleap]
    rfl

/-- Later months have more days before them. -/
theorem daysBeforeMonth_mono (y : Nat) {m n : Nat} (h : m ≤ n) :
    daysBeforeMonth y m ≤ daysBeforeMonth y n := by
  unfold daysBeforeMonth
  by_cases hleap : Leap y
  · rw [if_pos hleap]
    split <;> split <;> omega
  · rw [if_neg hleap]
    split <;> split <;> omega

/-- A month has a day. -/
theorem monthLength_pos (y : Nat) {m : Nat} (hpos : 1 ≤ m) (hle : m ≤ 12) :
    0 < monthLength y m := by
  by_cases hleap : Leap y
  · interval_cases m <;> simp [monthLength, hleap]
  · interval_cases m <;> simp [monthLength, hleap]

/-- A month has at most 31 days. -/
theorem monthLength_le (y m : Nat) : monthLength y m ≤ 31 := by
  unfold monthLength
  split
  case h_12 => split <;> decide
  all_goals decide

/-! ## Dates -/

/-- What the calendar asks of a year, a month and a day. -/
structure Valid (y m d : Nat) : Prop where
  month_pos : 1 ≤ m
  month_le : m ≤ 12
  day_pos : 1 ≤ d
  day_le : d ≤ monthLength y m

instance (y m d : Nat) : Decidable (Valid y m d) :=
  decidable_of_iff (1 ≤ m ∧ m ≤ 12 ∧ 1 ≤ d ∧ d ≤ monthLength y m)
    ⟨fun ⟨h₁, h₂, h₃, h₄⟩ => ⟨h₁, h₂, h₃, h₄⟩, fun h => ⟨h.1, h.2, h.3, h.4⟩⟩

/-- A date of the calendar. -/
@[ext] structure Date where
  year : Nat
  month : Nat
  day : Nat
  valid : Valid year month day

namespace Date

/-- The first day of a month. -/
def first (y : Nat) {m : Nat} (hpos : 1 ≤ m) (hle : m ≤ 12) : Date where
  year := y
  month := m
  day := 1
  valid := ⟨hpos, hle, Nat.le_refl 1, monthLength_pos y hpos hle⟩

/-- The first day of a year. -/
def newYear (y : Nat) : Date := first y (m := 1) (Nat.le_refl 1) (by decide)

/-- The day after a date. -/
def next (d : Date) : Date :=
  if hday : d.day < monthLength d.year d.month then
    { d with day := d.day + 1, valid := ⟨d.valid.1, d.valid.2, Nat.succ_pos _, hday⟩ }
  else if hmonth : d.month < 12 then first d.year (m := d.month + 1) (Nat.succ_pos _) hmonth
  else newYear (d.year + 1)

/-- The number of days before a date. -/
def number (d : Date) : Nat :=
  daysBeforeYear d.year + daysBeforeMonth d.year d.month + (d.day - 1)

/-- The number of the first day of a month. -/
theorem number_first (y : Nat) {m : Nat} (hpos : 1 ≤ m) (hle : m ≤ 12) :
    (first y hpos hle).number = daysBeforeYear y + daysBeforeMonth y m := rfl

/-- The number of the first of January. -/
theorem number_newYear (y : Nat) : (newYear y).number = daysBeforeYear y := by
  unfold newYear
  rw [number_first, daysBeforeMonth_one, Nat.add_zero]

/-- The next day has the next number. -/
theorem number_next (d : Date) : d.next.number = d.number + 1 := by
  have hpos := d.valid.day_pos
  have hsucc := daysBeforeMonth_succ d.year d.valid.month_pos d.valid.month_le
  unfold next
  split
  · -- another day of the month
    show daysBeforeYear d.year + daysBeforeMonth d.year d.month + d.day = d.number + 1
    unfold number
    omega
  · rename_i hday
    -- the last day of the month
    have hlast : d.day = monthLength d.year d.month :=
      Nat.le_antisymm d.valid.day_le (Nat.not_lt.mp hday)
    split
    · -- the first of the next month
      rename_i hmonth
      rw [number_first, hsucc, ← hlast]
      unfold number
      omega
    · -- a new year
      rename_i hmonth
      have hdecember : d.month = 12 := Nat.le_antisymm d.valid.month_le (Nat.not_lt.mp hmonth)
      have hyear := daysBeforeYear_succ d.year
      rw [← daysBeforeMonth_thirteen] at hyear
      rw [hdecember] at hsucc hlast
      rw [number_newYear, hyear, hsucc, ← hlast]
      unfold number
      rw [hdecember]
      omega

/-- The day after `n` days has the number `n` higher. -/
theorem number_iterate_next (d : Date) (n : Nat) : (next^[n] d).number = d.number + n := by
  induction n with
  | zero => rfl
  | succ n ih => rw [Function.iterate_succ_apply', number_next, ih, Nat.add_assoc]

/-! ## Order -/

/-- Dates are ordered by year, month and day. -/
instance : LT Date where
  lt d e := d.year < e.year ∨
    d.year = e.year ∧ (d.month < e.month ∨ d.month = e.month ∧ d.day < e.day)

/-- A day comes before the next month. -/
theorem number_lt_succ_month (d : Date) :
    d.number < daysBeforeYear d.year + daysBeforeMonth d.year (d.month + 1) := by
  have hpos := d.valid.day_pos
  have hle := d.valid.day_le
  rw [daysBeforeMonth_succ d.year d.valid.month_pos d.valid.month_le]
  unfold number
  omega

/-- The numbers of a year lie before those of the next year. -/
theorem number_lt_succ_year (d : Date) : d.number < daysBeforeYear (d.year + 1) := by
  have hmonth := number_lt_succ_month d
  have hle : d.month + 1 ≤ 13 := Nat.succ_le_succ d.valid.month_le
  have hmono := daysBeforeMonth_mono d.year hle
  rw [daysBeforeMonth_thirteen] at hmono
  rw [daysBeforeYear_succ]
  omega

/-- A day does not come before its year. -/
theorem daysBeforeYear_le_number (d : Date) : daysBeforeYear d.year ≤ d.number := by
  unfold number
  omega

/-- An earlier day has a smaller number. -/
theorem number_lt_of_lt {d e : Date} (h : d < e) : d.number < e.number := by
  rcases h with hyear | ⟨hyear, hmonth | ⟨hmonth, hday⟩⟩
  · -- an earlier year
    calc d.number < daysBeforeYear (d.year + 1) := number_lt_succ_year d
      _ ≤ daysBeforeYear e.year := daysBeforeYear_mono hyear
      _ ≤ e.number := daysBeforeYear_le_number e
  · -- an earlier month of the same year
    have hd := number_lt_succ_month d
    have hmono := daysBeforeMonth_mono d.year (show d.month + 1 ≤ e.month from hmonth)
    unfold number at hd ⊢
    rw [hyear] at hd hmono ⊢
    omega
  · have hpos := d.valid.day_pos
    unfold number
    rw [hyear, hmonth]
    omega

/-- Any two days are comparable. -/
theorem lt_or_eq_or_gt (d e : Date) : d < e ∨ d = e ∨ e < d := by
  by_cases hyear : d.year = e.year
  · by_cases hmonth : d.month = e.month
    · rcases Nat.lt_trichotomy d.day e.day with hday | hday | hday
      · exact .inl (.inr ⟨hyear, .inr ⟨hmonth, hday⟩⟩)
      · exact .inr (.inl (Date.ext hyear hmonth hday))
      · exact .inr (.inr (.inr ⟨hyear.symm, .inr ⟨hmonth.symm, hday⟩⟩))
    · rcases Nat.lt_or_gt_of_ne hmonth with hlt | hgt
      · exact .inl (.inr ⟨hyear, .inl hlt⟩)
      · exact .inr (.inr (.inr ⟨hyear.symm, .inl hgt⟩))
  · rcases Nat.lt_or_gt_of_ne hyear with hlt | hgt
    · exact .inl (.inl hlt)
    · exact .inr (.inr (.inl hgt))

/-- The days are ordered as their numbers. -/
theorem number_lt_iff {d e : Date} : d.number < e.number ↔ d < e := by
  constructor
  · intro h
    rcases lt_or_eq_or_gt d e with hlt | rfl | hgt
    · exact hlt
    · exact absurd h (Nat.lt_irrefl _)
    · exact absurd (number_lt_of_lt hgt) (Nat.lt_asymm h)
  · exact number_lt_of_lt

/-- A date is determined by its number. -/
theorem number_inj {d e : Date} : d.number = e.number ↔ d = e := by
  constructor
  · intro h
    rcases lt_or_eq_or_gt d e with hlt | heq | hgt
    · exact absurd h (Nat.ne_of_lt (number_lt_of_lt hlt))
    · exact heq
    · exact absurd h.symm (Nat.ne_of_lt (number_lt_of_lt hgt))
  · intro h
    rw [h]

/-- The date that lies `n` days after another one. -/
theorem iterate_next_eq_iff {d e : Date} {n : Nat} :
    next^[n] d = e ↔ e.number = d.number + n := by
  rw [← number_inj, number_iterate_next]
  exact eq_comm

/-- The years before a year. -/
theorem year_lt_iff {d : Date} {y : Nat} : d.year < y ↔ d.number < daysBeforeYear y := by
  constructor
  · intro h
    exact Nat.lt_of_lt_of_le (number_lt_succ_year d) (daysBeforeYear_mono h)
  · intro h
    apply Nat.lt_of_not_le
    intro hle
    have hnumber := Nat.le_trans (daysBeforeYear_mono hle) (daysBeforeYear_le_number d)
    exact absurd h (Nat.not_lt.mpr hnumber)

end Date

end Gregorian
