import Mathlib.Algebra.BigOperators.Intervals
import Mathlib.Data.Int.ConditionallyCompleteOrder
import Mathlib.Data.Prod.Lex
import Mathlib.Tactic.IntervalCases
import Mathlib.Tactic.Linarith

/-!
# The Gregorian calendar

Dates from 1970 on, by the rules of the proleptic Gregorian calendar.

* `next` — the day after; `dayNumber` — the days of the years, of the months and of the month that lie
  between 1970-01-01 and a date.
* **`dayNumber_next`** — the day after has the next number.
* `nthDay` — the days counted off one by one: `valid_nthDay`, `dayNumber_nthDay`, and
  **`nthDay_strictMono`** in the order of years, months and days.
* `dayNumber_eq` — the day number in closed form, by years that begin in March.
-/

namespace Calendar

structure Date where
  year : ℤ
  month : ℕ
  day : ℕ
  deriving DecidableEq, Repr

/-- A year with a 29th of February. -/
def IsLeap (year : ℤ) : Prop := year % 4 = 0 ∧ (year % 100 ≠ 0 ∨ year % 400 = 0)

instance (year : ℤ) : Decidable (IsLeap year) := inferInstanceAs (Decidable (_ ∧ _))

def daysInMonth (year : ℤ) (month : ℕ) : ℕ :=
  if month = 2 then (if IsLeap year then 29 else 28)
  else if month = 4 ∨ month = 6 ∨ month = 9 ∨ month = 11 then 30 else 31

def daysInYear (year : ℤ) : ℕ := if IsLeap year then 366 else 365

namespace Date

/-- The date is one of the calendar. -/
structure Valid (d : Date) : Prop where
  month_pos : 1 ≤ d.month
  month_le : d.month ≤ 12
  day_pos : 1 ≤ d.day
  day_le : d.day ≤ daysInMonth d.year d.month

/-- 1970-01-01. -/
def epoch : Date := ⟨1970, 1, 1⟩

/-- The day after. -/
def next (d : Date) : Date :=
  if d.day < daysInMonth d.year d.month then { d with day := d.day + 1 }
  else if d.month < 12 then ⟨d.year, d.month + 1, 1⟩
  else ⟨d.year + 1, 1, 1⟩

/-- The number of days since 1970-01-01. -/
def dayNumber (d : Date) : ℕ :=
  ∑ k ∈ Finset.range (d.year - 1970).toNat, daysInYear (1970 + k)
    + ∑ m ∈ Finset.Ico 1 d.month, daysInMonth d.year m + (d.day - 1)

/-- What dates are ordered by. -/
def rank (d : Date) : ℤ ×ₗ ℕ ×ₗ ℕ := toLex (d.year, toLex (d.month, d.day))

end Date

/-! ## Counting days -/

section Counting

variable {d : Date}

lemma daysInMonth_pos (year : ℤ) (month : ℕ) : 1 ≤ daysInMonth year month := by
  unfold daysInMonth
  split_ifs <;> decide

lemma sum_daysInMonth (year : ℤ) :
    ∑ m ∈ Finset.Ico 1 12, daysInMonth year m + daysInMonth year 12 = daysInYear year := by
  by_cases h : IsLeap year <;> simp [Finset.sum_Ico_succ_top, daysInMonth, daysInYear, h]

lemma Date.valid_epoch : Date.epoch.Valid := ⟨by decide, by decide, by decide, by decide⟩

/-- The day after is a date as well. -/
lemma Date.Valid.next (h : d.Valid) : d.next.Valid := by
  rw [Date.next]
  split_ifs with hday hmonth
  · exact ⟨h.month_pos, h.month_le, Nat.le_add_left 1 _, hday⟩
  · exact ⟨Nat.le_add_left 1 _, hmonth, le_refl 1, daysInMonth_pos _ _⟩
  · exact ⟨le_refl 1, by norm_num, le_refl 1, daysInMonth_pos _ _⟩

lemma Date.le_year_next (d : Date) : d.year ≤ d.next.year := by
  rw [Date.next]
  split_ifs
  · exact le_refl _
  · exact le_refl _
  · exact Int.le.intro 1 rfl

lemma Date.rank_lt_next (d : Date) : d.rank < d.next.rank := by
  rw [Date.next]
  split_ifs
  · simp [Date.rank, Prod.Lex.toLex_lt_toLex]
  · simp [Date.rank, Prod.Lex.toLex_lt_toLex]
  · simp [Date.rank, Prod.Lex.toLex_lt_toLex]

/-- **The day after has the next number.** -/
theorem Date.dayNumber_next (h : d.Valid) (hyear : 1970 ≤ d.year) :
    d.next.dayNumber = d.dayNumber + 1 := by
  have hpos := h.day_pos
  have hle := h.day_le
  rw [Date.next]
  split_ifs with hday hmonth
  · simp only [Date.dayNumber]
    omega
  · simp only [Date.dayNumber]
    rw [Finset.sum_Ico_succ_top h.month_pos]
    omega
  · obtain ⟨year, month, day⟩ := d
    obtain rfl : month = 12 := le_antisymm h.month_le (not_lt.mp hmonth)
    have hsum := sum_daysInMonth year
    dsimp only at hyear hpos hle hday
    have htoNat : (year + 1 - 1970).toNat = (year - 1970).toNat + 1 := by omega
    have hlast : (1970 : ℤ) + (year - 1970).toNat = year := by omega
    simp only [Date.dayNumber, htoNat, Finset.sum_range_succ, hlast, Finset.Ico_self,
      Finset.sum_empty]
    omega

/-- The date that many days after 1970-01-01. -/
def nthDay (n : ℕ) : Date := Date.next^[n] Date.epoch

lemma nthDay_succ (n : ℕ) : nthDay (n + 1) = (nthDay n).next := Function.iterate_succ_apply' _ _ _

lemma valid_nthDay (n : ℕ) : (nthDay n).Valid := by
  induction n with
  | zero => exact Date.valid_epoch
  | succ n ih =>
      rw [nthDay_succ]
      exact ih.next

lemma le_year_nthDay (n : ℕ) : 1970 ≤ (nthDay n).year := by
  induction n with
  | zero => exact le_refl _
  | succ n ih =>
      rw [nthDay_succ]
      exact ih.trans (Date.le_year_next _)

/-- The days are counted off in the order of their numbers. -/
theorem dayNumber_nthDay (n : ℕ) : (nthDay n).dayNumber = n := by
  induction n with
  | zero => rfl
  | succ n ih => rw [nthDay_succ, Date.dayNumber_next (valid_nthDay n) (le_year_nthDay n), ih]

/-- **Later days are later dates.** -/
theorem nthDay_strictMono : StrictMono fun n => (nthDay n).rank := by
  refine strictMono_nat_of_lt_succ fun n => ?_
  rw [nthDay_succ]
  exact Date.rank_lt_next _

end Counting

/-! ## The closed form -/

section Closed

variable {d : Date}

/-- The leap days up to a year. -/
def leaps (year : ℤ) : ℤ := year / 4 - year / 100 + year / 400

lemma daysInYear_eq (year : ℤ) : (daysInYear year : ℤ) = 365 + leaps year - leaps (year - 1) := by
  unfold daysInYear leaps
  split_ifs with h
  · obtain ⟨hfour, hcentury⟩ := h
    omega
  · unfold IsLeap at h
    omega

lemma sum_daysInYear (n : ℕ) :
    ((∑ k ∈ Finset.range n, daysInYear (1970 + k) : ℕ) : ℤ)
      = 365 * n + leaps (1969 + n) - leaps 1969 := by
  induction n with
  | zero => simp
  | succ n ih =>
      have hyear : (1970 : ℤ) + n - 1 = 1969 + n := by omega
      have hnext : (1970 : ℤ) + n = 1969 + (n + 1 : ℕ) := by omega
      rw [Finset.sum_range_succ, Nat.cast_add, ih, daysInYear_eq, hyear, hnext]
      omega

lemma daysInMonth_two (year : ℤ) : (daysInMonth year 2 : ℤ) = 28 + leaps year - leaps (year - 1) := by
  have hyear := daysInYear_eq year
  have hmonth : daysInYear year = 337 + daysInMonth year 2 := by
    by_cases h : IsLeap year <;> simp [daysInYear, daysInMonth, h]
  omega

/-- The days before a month. -/
lemma sum_daysBefore (year : ℤ) {month : ℕ} (hpos : 1 ≤ month) (hle : month ≤ 12) :
    ∑ m ∈ Finset.Ico 1 month, daysInMonth year m
      = if month ≤ 2 then 31 * (month - 1)
        else 31 + daysInMonth year 2 + (153 * (month - 3) + 2) / 5 := by
  by_cases h : IsLeap year <;> interval_cases month <;>
    simp [Finset.sum_Ico_succ_top, daysInMonth, h]

namespace Date

/-- The year that began in March. -/
def marchYear (d : Date) : ℤ := if d.month ≤ 2 then d.year - 1 else d.year

/-- The months since March. -/
def marchMonth (d : Date) : ℕ := (d.month + 9) % 12

/-- The days since the 1st of March. -/
def marchDay (d : Date) : ℕ := (153 * d.marchMonth + 2) / 5 + (d.day - 1)

/-- **The day number in closed form.** -/
theorem dayNumber_eq (h : d.Valid) (hyear : 1970 ≤ d.year) :
    (d.dayNumber : ℤ) + 719468 = 365 * d.marchYear + leaps d.marchYear + d.marchDay := by
  have hyears := sum_daysInYear (d.year - 1970).toNat
  have hcount : (((d.year - 1970).toNat : ℕ) : ℤ) = d.year - 1970 := Int.toNat_of_nonneg (by omega)
  have hlast : (1969 : ℤ) + (d.year - 1970) = d.year - 1 := by omega
  have hbase : leaps 1969 = 477 := by decide
  have hmonths := sum_daysBefore d.year h.month_pos h.month_le
  have hfebruary := daysInMonth_two d.year
  have hpos := h.day_pos
  have hmonth := h.month_pos
  have hmonth' := h.month_le
  rw [hcount, hlast, hbase] at hyears
  rw [dayNumber, marchDay, marchYear, marchMonth]
  split_ifs at hmonths ⊢ with hmarch
  · have hshift : (d.month + 9) % 12 = d.month + 9 := Nat.mod_eq_of_lt (by omega)
    rw [hshift]
    omega
  · have hshift : (d.month + 9) % 12 = d.month - 3 := by omega
    rw [hshift]
    omega

end Date

end Closed

end Calendar
