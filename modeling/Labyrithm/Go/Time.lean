import Mathlib.Algebra.Order.Group.Unbundled.Int
import Mathlib.Algebra.Order.Ring.Int
import Mathlib.Data.Int.Notation
import Mathlib.Tactic.Common

/-!
# Instants and durations

What is used of Go's `time` and of its integers of 64 bits.  An instant in UTC is the number of
nanoseconds since the epoch, and a `time.Duration` is an `int64` of nanoseconds.

* `int64` — the wrap-around of `+`, `-` and `*`; `sub` — `Time.Sub`, which saturates instead.
* `RFC3339` — a text in the layout `time.RFC3339`, which has whole seconds and four digits for the
  year: `parse_format` says what is left of an instant that is written and read again.
-/

namespace Go

/-! ## Integers of 64 bits -/

/-- The result of an arithmetic operation on `int` or `int64`. -/
def int64 (n : ℤ) : ℤ := n.bmod (2 ^ 64)

/-- What an `int64` can hold. -/
def FitsInt64 (n : ℤ) : Prop := -2 ^ 63 ≤ n ∧ n < 2 ^ 63

instance (n : ℤ) : Decidable (FitsInt64 n) := inferInstanceAs (Decidable (_ ∧ _))

lemma int64_of_fits {n : ℤ} (h : FitsInt64 n) : int64 n = n := by
  obtain ⟨hlow, hhigh⟩ := h
  exact Int.bmod_eq_of_le (by omega) (by omega)

lemma fitsInt64_int64 (n : ℤ) : FitsInt64 (int64 n) := by
  have hlow := Int.le_bmod (x := n) (m := 2 ^ 64) (by decide)
  have hhigh := Int.bmod_lt (x := n) (m := 2 ^ 64) (by decide)
  exact ⟨by simpa [int64] using hlow, by simpa [int64] using hhigh⟩

/-- What fits is what is left alone. -/
lemma int64_eq_self_iff {n : ℤ} : int64 n = n ↔ FitsInt64 n := by
  refine ⟨fun h => ?_, int64_of_fits⟩
  rw [← h]
  exact fitsInt64_int64 n

/-! ## Durations -/

def second : ℤ := 1000000000

def minute : ℤ := 60 * second

lemma second_pos : 0 < second := by decide

/-- `time.Duration(n) * unit`. -/
def duration (n unit : ℤ) : ℤ := int64 (n * unit)

lemma duration_of_fits {n unit : ℤ} (h : FitsInt64 (n * unit)) : duration n unit = n * unit :=
  int64_of_fits h

/-- `Time.Sub`, which stops at the longest duration of either sign. -/
def sub (t u : ℤ) : ℤ := max (-2 ^ 63) (min (2 ^ 63 - 1) (t - u))

lemma sub_of_fits {t u : ℤ} (h : FitsInt64 (t - u)) : sub t u = t - u := by
  obtain ⟨hlow, hhigh⟩ := h
  rw [sub, min_eq_right (by omega), max_eq_right (by omega)]

/-! ## The layout of RFC 3339 -/

/-- The text of an instant.  Its fraction of a second is not written. -/
structure RFC3339 where
  seconds : ℤ
  deriving DecidableEq, Repr

/-- `t.Format(time.RFC3339)`. -/
def format (t : ℤ) : RFC3339 := ⟨t / second⟩

/-- The first second of the year 0000 and the last one of the year 9999. -/
def firstSecond : ℤ := -62167219200

def lastSecond : ℤ := 253402300799

/-- The year of the instant has four digits. -/
def HasYear (t : ℤ) : Prop := firstSecond ≤ t / second ∧ t / second ≤ lastSecond

instance (t : ℤ) : Decidable (HasYear t) := inferInstanceAs (Decidable (_ ∧ _))

/-- `time.Parse(time.RFC3339, text)`, where `none` is the error for a year of another length. -/
def parse (text : RFC3339) : Option ℤ :=
  if firstSecond ≤ text.seconds ∧ text.seconds ≤ lastSecond then some (text.seconds * second) else none

/-- The beginning of the second. -/
def wholeSecond (t : ℤ) : ℤ := t / second * second

/-- What is written and read again. -/
theorem parse_format (t : ℤ) : parse (format t) = if HasYear t then some (wholeSecond t) else none :=
  rfl

lemma parse_format_of_hasYear {t : ℤ} (h : HasYear t) : parse (format t) = some (wholeSecond t) := by
  rw [parse_format, if_pos h]

/-- Whole seconds since the epoch. -/
def IsWhole (t : ℤ) : Prop := second ∣ t

lemma isWhole_wholeSecond (t : ℤ) : IsWhole (wholeSecond t) := Int.dvd_mul_left _ _

end Go
