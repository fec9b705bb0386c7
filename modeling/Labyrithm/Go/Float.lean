import Mathlib.Algebra.Order.Field.Power
import Mathlib.Data.Int.Log
import Mathlib.Data.Rat.Floor
import Mathlib.Tactic.Linarith
import Mathlib.Tactic.NormNum
import Mathlib.Tactic.Positivity
import Mathlib.Tactic.Ring

/-!
# Floating point

A `float64` is taken as the rational number that it stands for: a conversion or a quotient is the exact
result rounded to 53 bits, to the nearest and to even in the middle.  Exponents are not bounded, which
makes no difference for numbers between 2^-1022 and 2^1023.

* `float64_mono` — rounding keeps the order of positive numbers.
* `float64_dyadic` — what has 53 bits at most is left as it is.
* `float64_error` — the relative error is at most 2^-53.
-/

namespace Go

/-- The nearest integer, in the middle the even one. -/
def roundEven (x : ℚ) : ℤ :=
  if x - ⌊x⌋ < 1 / 2 ∨ x - ⌊x⌋ = 1 / 2 ∧ ⌊x⌋ % 2 = 0 then ⌊x⌋ else ⌊x⌋ + 1

/-- The distance between the 53-bit numbers next to `x`. -/
def quantum (x : ℚ) : ℚ := 2 ^ (Int.log 2 |x| - 52)

/-- The `float64` that is nearest to `x`. -/
def float64 (x : ℚ) : ℚ := roundEven (x / quantum x) * quantum x

/-! ## Integers -/

section Integers

variable {x y : ℚ}

lemma roundEven_intCast (n : ℤ) : roundEven n = n := by simp [roundEven]

lemma floor_le_roundEven (x : ℚ) : ⌊x⌋ ≤ roundEven x := by
  rw [roundEven]
  split_ifs <;> omega

lemma roundEven_le (x : ℚ) : roundEven x ≤ ⌊x⌋ + 1 := by
  rw [roundEven]
  split_ifs <;> omega

lemma roundEven_mono (h : x ≤ y) : roundEven x ≤ roundEven y := by
  obtain hlt | heq := lt_or_eq_of_le (Int.floor_le_floor h)
  · calc roundEven x ≤ ⌊x⌋ + 1 := roundEven_le x
      _ ≤ ⌊y⌋ := hlt
      _ ≤ roundEven y := floor_le_roundEven y
  · rw [roundEven, roundEven, heq]
    split_ifs with hx hy
    · exact le_refl _
    · omega
    · -- the rest of `x` is no more than that of `y`
      have hle : x - ⌊y⌋ ≤ y - ⌊y⌋ := by linarith
      rw [not_or, not_and_or] at hx
      obtain hy | ⟨hhalf, heven⟩ := ‹_ ∨ _›
      · exact absurd (lt_of_le_of_lt hle hy) hx.1
      · obtain hne | hodd := hx.2
        · exact absurd (lt_of_le_of_ne (hle.trans_eq hhalf) hne) hx.1
        · exact absurd heven hodd
    · exact le_refl _

lemma abs_roundEven_sub (x : ℚ) : |(roundEven x : ℚ) - x| ≤ 1 / 2 := by
  have hlow := Int.floor_le x
  have hhigh := Int.lt_floor_add_one x
  rw [roundEven, abs_le]
  split_ifs with h
  · have hle : x - ⌊x⌋ ≤ 1 / 2 := h.elim le_of_lt fun hhalf => le_of_eq hhalf.1
    constructor <;> linarith
  · rw [not_or] at h
    have hge : 1 / 2 ≤ x - ⌊x⌋ := not_lt.mp h.1
    push_cast
    constructor <;> linarith

end Integers

/-! ## Numbers of 53 bits -/

section Floats

variable {x y e : ℚ}

lemma quantum_pos (x : ℚ) : 0 < quantum x := by
  unfold quantum
  positivity

/-- A positive number, measured with its own quantum. -/
lemma div_quantum_bounds (hx : 0 < x) : 2 ^ 52 ≤ x / quantum x ∧ x / quantum x < 2 ^ 53 := by
  have hlow : (2 : ℚ) ^ Int.log 2 x ≤ x := by
    simpa using Int.zpow_log_le_self (R := ℚ) (b := 2) (by norm_num) hx
  have hhigh : x < (2 : ℚ) ^ (Int.log 2 x + 1) := by
    simpa using Int.lt_zpow_succ_log_self (R := ℚ) (b := 2) (by norm_num) x
  have hq := quantum_pos x
  rw [le_div_iff₀ hq, div_lt_iff₀ hq, quantum, abs_of_pos hx, ← zpow_natCast, ← zpow_natCast,
    ← zpow_add₀ two_ne_zero, ← zpow_add₀ two_ne_zero]
  constructor
  · have hexp : ((52 : ℕ) : ℤ) + (Int.log 2 x - 52) = Int.log 2 x := by omega
    rwa [hexp]
  · have hexp : ((53 : ℕ) : ℤ) + (Int.log 2 x - 52) = Int.log 2 x + 1 := by omega
    rwa [hexp]

lemma zpow_log_le_float64 (hx : 0 < x) : (2 : ℚ) ^ Int.log 2 x ≤ float64 x := by
  have hround : (2 : ℤ) ^ 52 ≤ roundEven (x / quantum x) := by
    have hmono := roundEven_mono (div_quantum_bounds hx).1
    have hcast : roundEven ((2 : ℚ) ^ 52) = (2 : ℤ) ^ 52 := by
      exact_mod_cast roundEven_intCast ((2 : ℤ) ^ (52 : ℕ))
    rwa [hcast] at hmono
  have hround' : (2 : ℚ) ^ 52 ≤ (roundEven (x / quantum x) : ℚ) := by exact_mod_cast hround
  calc (2 : ℚ) ^ Int.log 2 x = 2 ^ 52 * quantum x := by
        rw [quantum, abs_of_pos hx, ← zpow_natCast, ← zpow_add₀ two_ne_zero]
        congr 1
        omega
    _ ≤ float64 x := mul_le_mul_of_nonneg_right hround' (quantum_pos x).le

lemma float64_le_zpow_log (hx : 0 < x) : float64 x ≤ (2 : ℚ) ^ (Int.log 2 x + 1) := by
  have hround : roundEven (x / quantum x) ≤ (2 : ℤ) ^ 53 := by
    have hmono := roundEven_mono (div_quantum_bounds hx).2.le
    have hcast : roundEven ((2 : ℚ) ^ 53) = (2 : ℤ) ^ 53 := by
      exact_mod_cast roundEven_intCast ((2 : ℤ) ^ (53 : ℕ))
    rwa [hcast] at hmono
  have hround' : (roundEven (x / quantum x) : ℚ) ≤ (2 : ℚ) ^ 53 := by exact_mod_cast hround
  calc float64 x ≤ 2 ^ 53 * quantum x := mul_le_mul_of_nonneg_right hround' (quantum_pos x).le
    _ = (2 : ℚ) ^ (Int.log 2 x + 1) := by
        rw [quantum, abs_of_pos hx, ← zpow_natCast, ← zpow_add₀ two_ne_zero]
        congr 1
        omega

/-- Rounding keeps the order. -/
theorem float64_mono (hx : 0 < x) (h : x ≤ y) : float64 x ≤ float64 y := by
  have hy : 0 < y := lt_of_lt_of_le hx h
  obtain hlt | heq := lt_or_eq_of_le (Int.log_mono_right (b := 2) hx h)
  · calc float64 x ≤ (2 : ℚ) ^ (Int.log 2 x + 1) := float64_le_zpow_log hx
      _ ≤ (2 : ℚ) ^ Int.log 2 y := zpow_le_zpow_right₀ (by norm_num) hlt
      _ ≤ float64 y := zpow_log_le_float64 hy
  · have hq : quantum x = quantum y := by
      rw [quantum, quantum, abs_of_pos hx, abs_of_pos hy, heq]
    have hdiv : x / quantum y ≤ y / quantum y := div_le_div_of_nonneg_right h (quantum_pos y).le
    have hround : (roundEven (x / quantum y) : ℚ) ≤ roundEven (y / quantum y) := by
      exact_mod_cast roundEven_mono hdiv
    rw [float64, float64, hq]
    exact mul_le_mul_of_nonneg_right hround (quantum_pos y).le

/-- What has at most 53 bits is left as it is. -/
theorem float64_dyadic {m : ℕ} (hm : 0 < m) (hbits : m < 2 ^ 53) (e : ℤ) :
    float64 (m * 2 ^ e) = m * 2 ^ e := by
  have hpos : (0 : ℚ) < m * 2 ^ e := by positivity
  have hlog : Int.log 2 ((m : ℚ) * 2 ^ e) ≤ e + 52 := by
    have hlt : (m : ℚ) * 2 ^ e < ((2 : ℕ) : ℚ) ^ (e + 53) := by
      have hm' : (m : ℚ) < 2 ^ (53 : ℤ) := by exact_mod_cast hbits
      push_cast
      rw [add_comm, zpow_add₀ two_ne_zero]
      exact mul_lt_mul_of_pos_right hm' (by positivity)
    have := (Int.lt_zpow_iff_log_lt (by norm_num) hpos).mp hlt
    omega
  obtain ⟨k, hk⟩ : ∃ k : ℕ, e + 52 - Int.log 2 ((m : ℚ) * 2 ^ e) = k :=
    ⟨_, (Int.toNat_of_nonneg (by omega)).symm⟩
  have hdiv : (m : ℚ) * 2 ^ e / quantum (m * 2 ^ e) = ((m * 2 ^ k : ℕ) : ℤ) := by
    rw [quantum, abs_of_pos hpos, div_eq_iff (by positivity)]
    push_cast
    rw [mul_assoc, ← zpow_natCast, ← zpow_add₀ two_ne_zero, ← hk]
    congr 2
    omega
  rw [float64, hdiv, roundEven_intCast, ← hdiv, div_mul_cancel₀ _ (quantum_pos _).ne']

lemma float64_natCast {n : ℕ} (hn : 0 < n) (hbits : n < 2 ^ 53) : float64 n = n := by
  simpa using float64_dyadic hn hbits 0

/-- The relative error of rounding. -/
theorem float64_error (hx : 0 < x) : |float64 x - x| ≤ x / 2 ^ 53 := by
  have hq := quantum_pos x
  have hlow := (div_quantum_bounds hx).1
  have hsplit : float64 x - x = (roundEven (x / quantum x) - x / quantum x) * quantum x := by
    rw [sub_mul, div_mul_cancel₀ _ hq.ne', float64]
  rw [le_div_iff₀ hq] at hlow
  calc |float64 x - x| = |(roundEven (x / quantum x) : ℚ) - x / quantum x| * quantum x := by
        rw [hsplit, abs_mul, abs_of_pos hq]
    _ ≤ 1 / 2 * quantum x := mul_le_mul_of_nonneg_right (abs_roundEven_sub _) hq.le
    _ ≤ x / 2 ^ 53 := by
        rw [le_div_iff₀ (by positivity)]
        linarith

/-! ### Zero and small numbers -/

lemma float64_zero : float64 0 = 0 := by simp [float64, roundEven]

/-- What is left of a number after it is rounded once more. -/
lemma float64_near (hy : 0 ≤ y) (h : |y - x| ≤ e) : |float64 y - x| ≤ e + y / 2 ^ 53 := by
  rcases hy.eq_or_lt with rfl | hpos
  · rw [float64_zero]
    simpa using h
  · calc |float64 y - x| ≤ |float64 y - y| + |y - x| := abs_sub_le _ _ _
      _ ≤ y / 2 ^ 53 + e := add_le_add (float64_error hpos) h
      _ = e + y / 2 ^ 53 := add_comm _ _

lemma float64_nonneg (hy : 0 ≤ y) : 0 ≤ float64 y := by
  rcases hy.eq_or_lt with rfl | hpos
  · rw [float64_zero]
  · have hnear := abs_le.mp (float64_error hpos)
    have hsmall : y / 2 ^ 53 ≤ y := div_le_self hy (by norm_num)
    linarith

/-- Rounding does not go past a number of 53 bits. -/
lemma float64_le {m : ℕ} (hm : 0 < m) (hbits : m < 2 ^ 53) {k : ℤ} (hx : 0 ≤ x) (h : x ≤ m * 2 ^ k) :
    float64 x ≤ m * 2 ^ k := by
  rcases hx.eq_or_lt with rfl | hpos
  · rwa [float64_zero]
  · exact (float64_mono hpos h).trans_eq (float64_dyadic hm hbits k)

lemma float64_natCast_small {n : ℕ} (hn : n < 2 ^ 53) : float64 n = n := by
  rcases n.eq_zero_or_pos with rfl | hpos
  · simpa using float64_zero
  · exact float64_natCast hpos hn

end Floats

end Go
