import Mathlib.Tactic.IntervalCases
import Labyrithm.Go.Float
import Labyrithm.Go.Time

/-!
# The seconds of a duration

`Duration.Seconds` is a `float64`, the sum of the whole seconds and of the rest.  With its fraction cut off
it is the number of whole seconds, or one more where the rest is so near to a second, and the number so great,
that the sum is rounded up.

* `le_roundEven_iff` — when a number is rounded to an even one or more.
* **`seconds_eq`** — which durations are rounded up.
-/

namespace Go

/-- `d.Seconds()`. -/
def durationSeconds (d : ℤ) : ℚ := float64 (float64 (d.tdiv second) + float64 (d.tmod second / second))

/-- `int64(x)`, of a `float64`. -/
def ofFloat (x : ℚ) : ℤ := if 0 ≤ x then ⌊x⌋ else ⌈x⌉

/-- `int(d.Seconds())`. -/
def seconds (d : ℤ) : ℤ := ofFloat (durationSeconds d)

/-- What is missing to the next second is at most half the distance between two 53-bit numbers there. -/
def RoundsUp (d : ℤ) : Prop :=
  (second - d % second) * 2 ^ 53 ≤ second * 2 ^ Nat.log 2 (d / second).toNat

instance (d : ℤ) : Decidable (RoundsUp d) := inferInstanceAs (Decidable (_ ≤ _))

/-! ## Rounding up to a whole number -/

section Up

variable {x : ℚ} {n k : ℕ}

/-- In the middle an even number is taken. -/
lemma le_roundEven_iff {m : ℤ} (hm : m % 2 = 0) : m ≤ roundEven x ↔ (m : ℚ) - 1 / 2 ≤ x := by
  have hlow := Int.floor_le x
  have hhigh := Int.lt_floor_add_one x
  constructor
  · intro h
    rw [roundEven] at h
    split_ifs at h with hdown
    · have hcast : (m : ℚ) ≤ ⌊x⌋ := by exact_mod_cast h
      linarith
    · rw [not_or] at hdown
      have hcast : (m : ℚ) ≤ ⌊x⌋ + 1 := by exact_mod_cast h
      linarith [hdown.1]
  · intro h
    have hfloor : m - 1 ≤ ⌊x⌋ := by
      refine Int.le_floor.mpr ?_
      push_cast
      linarith
    obtain heq | hlt := hfloor.eq_or_lt
    · have hcast : (⌊x⌋ : ℚ) = m - 1 := by exact_mod_cast heq.symm
      rw [roundEven, if_neg]
      · omega
      · rintro (hless | ⟨-, heven⟩)
        · linarith
        · omega
    · exact (by omega : m ≤ ⌊x⌋).trans (floor_le_roundEven x)

lemma log_eq_of_bounds (hlow : (2 : ℚ) ^ k ≤ x) (hhigh : x < 2 ^ (k + 1)) : Int.log 2 x = k := by
  have hpos : 0 < x := lt_of_lt_of_le (by positivity) hlow
  refine le_antisymm ?_ ?_
  · have hlt : x < ((2 : ℕ) : ℚ) ^ ((k : ℤ) + 1) := by exact_mod_cast hhigh
    have := (Int.lt_zpow_iff_log_lt (by norm_num) hpos).mp hlt
    omega
  · refine (Int.zpow_le_iff_le_log (by norm_num) hpos).mp ?_
    exact_mod_cast hlow

/-- A number between two whole ones is rounded up to the second if half a quantum is missing. -/
lemma succ_le_float64_iff (hn : n ≠ 0) (hlog : Nat.log 2 n = k) (hk : k < 52) (hlow : n ≤ x)
    (hhigh : x < n + 1) :
    (n : ℚ) + 1 ≤ float64 x ↔ (n : ℚ) + 1 - 2 ^ ((k : ℤ) - 53) ≤ x := by
  have hpow : 2 ^ k ≤ n := hlog ▸ Nat.pow_log_le_self 2 hn
  have hpow' : n + 1 ≤ 2 ^ (k + 1) := hlog ▸ Nat.lt_pow_succ_log_self (by norm_num) n
  have hpos : 0 < x := lt_of_lt_of_le (by positivity) hlow
  have hint : Int.log 2 x = k := by
    refine log_eq_of_bounds (le_trans ?_ hlow) (lt_of_lt_of_le hhigh ?_)
    · exact_mod_cast hpow
    · exact_mod_cast hpow'
  have hq : quantum x = 2 ^ ((k : ℤ) - 52) := by rw [quantum, abs_of_pos hpos, hint]
  have hq0 := quantum_pos x
  have hhalf : (2 : ℚ) ^ ((k : ℤ) - 53) = 1 / 2 * quantum x := by
    rw [hq, show (k : ℤ) - 52 = (k - 53) + 1 by ring, zpow_add₀ two_ne_zero]
    ring
  -- the whole number as an even multiple of the quantum
  have hm : ((n : ℚ) + 1) = (((n + 1) * 2 ^ (52 - k) : ℤ) : ℚ) * quantum x := by
    have hpows : (2 : ℚ) ^ (52 - k) * 2 ^ ((k : ℤ) - 52) = 1 := by
      rw [← zpow_natCast, ← zpow_add₀ two_ne_zero, Nat.cast_sub hk.le]
      simp
    rw [hq]
    push_cast
    rw [mul_assoc, hpows, mul_one]
  have heven : ((n : ℤ) + 1) * 2 ^ (52 - k) % 2 = 0 := by
    obtain ⟨j, hj⟩ := Nat.exists_eq_add_of_lt hk
    rw [show 52 - k = j + 1 by omega, pow_succ, ← mul_assoc]
    exact Int.mul_emod_left _ _
  calc (n : ℚ) + 1 ≤ float64 x
      ↔ (((n + 1) * 2 ^ (52 - k) : ℤ) : ℚ) * quantum x ≤ roundEven (x / quantum x) * quantum x := by
        rw [← hm, float64]
    _ ↔ (n + 1) * 2 ^ (52 - k) ≤ roundEven (x / quantum x) := by
        rw [mul_le_mul_iff_left₀ hq0]
        exact Int.cast_le
    _ ↔ (n : ℚ) + 1 - 2 ^ ((k : ℤ) - 53) ≤ x := by
        rw [le_roundEven_iff heven, le_div_iff₀ hq0, sub_mul, ← hm, hhalf]

/-- The rest of a second that is rounded itself, against the half of a quantum. -/
lemma le_float64_rest_iff {f : ℤ} (hf : 0 < f) (hf' : f ≤ second) (hk : k ≤ 33) :
    1 - (2 : ℚ) ^ ((k : ℤ) - 53) ≤ float64 ((second - f : ℤ) / second) ↔ f * 2 ^ 53 ≤ second * 2 ^ k := by
  have hsecond : ((second : ℤ) : ℚ) = 1000000000 := by norm_num [second]
  have hpow : (2 : ℚ) ^ ((k : ℤ) - 53) = 2 ^ k / 2 ^ 53 := by
    rw [zpow_sub₀ two_ne_zero, zpow_natCast]
    norm_num
  have hle : (2 : ℚ) ^ k ≤ 2 ^ 33 := pow_le_pow_right₀ (by norm_num) hk
  constructor
  · intro h
    by_contra hlate
    -- between the rest and the bound there is more than the error of its rounding
    have hgap : second * 2 ^ k + second < f * 2 ^ 53 := by
      rw [not_le] at hlate
      clear hpow hle h
      unfold second at *
      interval_cases k <;> omega
    have hgap' : (1000000000 : ℚ) * 2 ^ k + 1000000000 < f * 2 ^ 53 := by
      rw [← hsecond]
      exact_mod_cast hgap
    rcases hf'.eq_or_lt with rfl | hlt
    · rw [sub_self, Int.cast_zero, zero_div, float64_zero, hpow] at h
      norm_num at h hle
      linarith
    · have hlt' : (f : ℚ) < second := by exact_mod_cast hlt
      rw [hsecond] at hlt'
      have hx : (0 : ℚ) < (second - f : ℤ) / second := by
        rw [Int.cast_sub, hsecond]
        exact div_pos (by linarith) (by norm_num)
      have herr := (abs_le.mp (float64_error hx)).2
      have hf0 : (0 : ℚ) < f := by exact_mod_cast hf
      rw [hpow] at h
      rw [Int.cast_sub, hsecond] at h herr
      norm_num at h herr hgap'
      linarith
  · intro h
    have hx : 1 - (2 : ℚ) ^ ((k : ℤ) - 53) ≤ (second - f : ℤ) / second := by
      have h' : (f : ℚ) * 2 ^ 53 ≤ 1000000000 * 2 ^ k := by
        rw [← hsecond]
        exact_mod_cast h
      rw [Int.cast_sub, hsecond, hpow]
      norm_num at h' ⊢
      linarith
    have hdyadic : 1 - (2 : ℚ) ^ ((k : ℤ) - 53) = ((2 ^ (53 - k) - 1 : ℕ) : ℚ) * 2 ^ ((k : ℤ) - 53) := by
      have hpows : (2 : ℚ) ^ (53 - k) * 2 ^ ((k : ℤ) - 53) = 1 := by
        rw [← zpow_natCast, ← zpow_add₀ two_ne_zero, Nat.cast_sub (by omega)]
        simp
      rw [Nat.cast_sub Nat.one_le_two_pow]
      push_cast
      rw [sub_mul, hpows, one_mul]
    have htwo : 2 ^ 1 ≤ 2 ^ (53 - k) := Nat.pow_le_pow_right (by norm_num) (by omega)
    have hbits : 2 ^ (53 - k) ≤ 2 ^ 53 := Nat.pow_le_pow_right (by norm_num) (by omega)
    have hsame := float64_dyadic (m := 2 ^ (53 - k) - 1) (by omega) (by omega) (k - 53)
    rw [← hdyadic] at hsame
    rw [← hsame]
    refine float64_mono ?_ hx
    rw [hpow]
    norm_num at hle ⊢
    linarith

end Up

/-! ## Durations -/

section Durations

variable {d : ℤ}

/-- The rest of a second is less than one, rounded once or twice. -/
lemma float64_rest_lt_one {f : ℤ} (hf : 0 < f) (hf' : f ≤ second) :
    float64 ((second - f : ℤ) / second) < 1 ∧ float64 (float64 ((second - f : ℤ) / second)) < 1 := by
  have hsecond : ((second : ℤ) : ℚ) = 1000000000 := by norm_num [second]
  have hf0 : (1 : ℚ) ≤ f := by exact_mod_cast hf
  have hf1 : (f : ℚ) ≤ second := by exact_mod_cast hf'
  have hx : (0 : ℚ) ≤ (second - f : ℤ) / second := by
    rw [Int.cast_sub]
    exact div_nonneg (by linarith) (by norm_num [hsecond])
  -- a number of few bits is above it, and stays where it is
  have hbound : ((second - f : ℤ) : ℚ) / second ≤ (2 ^ 30 - 1 : ℕ) * 2 ^ (-30 : ℤ) := by
    rw [Int.cast_sub, hsecond]
    norm_num
    linarith
  have honce := float64_le (by norm_num) (by norm_num) hx hbound
  have htwice := float64_le (by norm_num) (by norm_num) (float64_nonneg hx) honce
  have hless : ((2 ^ 30 - 1 : ℕ) : ℚ) * 2 ^ (-30 : ℤ) < 1 := by norm_num
  exact ⟨honce.trans_lt hless, htwice.trans_lt hless⟩

/-- **The seconds of a duration, without their fraction.** -/
theorem seconds_eq (hd : 0 ≤ d) (hfits : d < 2 ^ 63) :
    seconds d = if RoundsUp d then d / second + 1 else d / second := by
  obtain ⟨n, hn⟩ := Int.eq_ofNat_of_zero_le (Int.ediv_nonneg hd second_pos.le)
  obtain ⟨f, hf⟩ : ∃ f, f = second - d % second := ⟨_, rfl⟩
  have hmod := Int.emod_nonneg d second_pos.ne'
  have hmod' := Int.emod_lt_of_pos d second_pos
  have hsmall : n < 2 ^ 34 := by
    unfold second at *
    omega
  have hsum : durationSeconds d = float64 (n + float64 ((second - f : ℤ) / second)) := by
    rw [durationSeconds, Int.tdiv_eq_ediv_of_nonneg hd, Int.tmod_eq_emod_of_nonneg hd, hn, Int.cast_natCast,
      float64_natCast_small (by omega), hf, sub_sub_cancel]
  have hrest := float64_rest_lt_one (f := f) (by omega) (by omega)
  have hrest0 : 0 ≤ float64 ((second - f : ℤ) / second) := by
    refine float64_nonneg (div_nonneg ?_ ?_)
    · exact_mod_cast (by omega : 0 ≤ second - f)
    · exact_mod_cast second_pos.le
  have hrounds : RoundsUp d ↔ f * 2 ^ 53 ≤ second * 2 ^ Nat.log 2 n := by
    rw [RoundsUp, hn, Int.toNat_natCast, hf]
  rw [seconds, hsum, hn, ofFloat, if_pos (float64_nonneg (by positivity))]
  rcases n.eq_zero_or_pos with rfl | hpos
  · rw [if_neg, Nat.cast_zero, zero_add, Nat.cast_zero]
    · exact Int.floor_eq_zero_iff.mpr ⟨float64_nonneg hrest0, hrest.2⟩
    · rw [hrounds, Nat.log_zero_right]
      unfold second at *
      omega
  · have hlog : Nat.log 2 n ≤ 33 := Nat.lt_succ_iff.mp (Nat.log_lt_of_lt_pow hpos.ne' hsmall)
    have hup := succ_le_float64_iff hpos.ne' rfl (by omega : Nat.log 2 n < 52)
      (by linarith : (n : ℚ) ≤ n + float64 ((second - f : ℤ) / second)) (by linarith)
    rw [add_sub_assoc, add_le_add_iff_left, le_float64_rest_iff (by omega) (by omega) hlog, ← hrounds] at hup
    have hn0 : (0 : ℚ) < n := by exact_mod_cast hpos
    have hlow : (n : ℚ) ≤ float64 (n + float64 ((second - f : ℤ) / second)) := by
      refine (float64_natCast_small (by omega : n < 2 ^ 53)).symm.trans_le (float64_mono hn0 ?_)
      linarith
    have hhigh : float64 (n + float64 ((second - f : ℤ) / second)) ≤ (n + 1 : ℕ) := by
      refine (float64_mono (by linarith) ?_).trans_eq (float64_natCast_small (by omega))
      rw [Nat.cast_succ]
      linarith
    rw [Nat.cast_succ] at hhigh
    split_ifs with hround
    · refine Int.floor_eq_iff.mpr ⟨?_, ?_⟩
      · exact_mod_cast hup.mpr hround
      · rw [Int.cast_add, Int.cast_one, Int.cast_natCast]
        linarith
    · refine Int.floor_eq_iff.mpr ⟨?_, ?_⟩
      · exact_mod_cast hlow
      · exact not_le.mp fun h => hround (hup.mp (by exact_mod_cast h))

/-- Whole seconds are not rounded up, and neither is a duration of less than 2^24 of them. -/
lemma not_roundsUp (hd : 0 ≤ d) (h : d % second = 0 ∧ d < 2 ^ 63 ∨ d < 2 ^ 24 * second) : ¬ RoundsUp d := by
  have hlog {k : ℕ} (hlt : d / second < 2 ^ (k + 1)) : (2 : ℤ) ^ Nat.log 2 (d / second).toNat ≤ 2 ^ k := by
    refine pow_le_pow_right₀ (by norm_num) (Nat.lt_succ_iff.mp (Nat.log_lt_of_lt_pow' (by omega) ?_))
    zify
    rwa [Int.toNat_of_nonneg (Int.ediv_nonneg hd second_pos.le)]
  rw [RoundsUp, not_le]
  rcases h with ⟨hwhole, hfits⟩ | hsmall
  · have hpow := hlog (k := 33) (by unfold second at *; omega)
    rw [hwhole]
    unfold second at *
    omega
  · have hpow := hlog (k := 23) (by unfold second at *; omega)
    unfold second at *
    omega

/-- Less than a microsecond is missing to the next second. -/
lemma RoundsUp.rest_lt (h : RoundsUp d) (hfits : d < 2 ^ 63) : second - d % second < 1000 := by
  have hlog : (2 : ℤ) ^ Nat.log 2 (d / second).toNat ≤ 2 ^ 33 := by
    refine pow_le_pow_right₀ (by norm_num) (Nat.lt_succ_iff.mp (Nat.log_lt_of_lt_pow' (by omega) ?_))
    unfold second
    omega
  unfold RoundsUp second at *
  omega

/-- Exactly the whole seconds are left. -/
lemma seconds_of_not_roundsUp (hd : 0 ≤ d) (hfits : d < 2 ^ 63) (h : ¬ RoundsUp d) :
    seconds d = d / second := by
  rw [seconds_eq hd hfits, if_neg h]

/-- It is the number of seconds that have begun or that are over. -/
lemma seconds_bounds (hd : 0 ≤ d) (hfits : d < 2 ^ 63) :
    d / second ≤ seconds d ∧ seconds d ≤ (d + second - 1) / second := by
  rw [seconds_eq hd hfits]
  split_ifs with hup
  · have hpart : d % second ≠ 0 := fun hwhole => not_roundsUp hd (.inl ⟨hwhole, hfits⟩) hup
    unfold second at *
    omega
  · unfold second
    omega

/-- It is the number of whole seconds a microsecond later, if not now. -/
lemma seconds_near (hd : 0 ≤ d) (hfits : d < 2 ^ 63) :
    d / second ≤ seconds d ∧ seconds d ≤ (d + 1000) / second := by
  rw [seconds_eq hd hfits]
  split_ifs with hup
  · have hrest := hup.rest_lt hfits
    unfold second at *
    omega
  · unfold second
    omega

/-- A number of seconds is that many. -/
lemma seconds_mul {n : ℤ} (hn : 0 ≤ n) (hfits : n * second < 2 ^ 63) : seconds (n * second) = n := by
  have hpos : 0 ≤ n * second := mul_nonneg hn second_pos.le
  rw [seconds_of_not_roundsUp hpos hfits (not_roundsUp hpos (.inl ⟨Int.mul_emod_left _ _, hfits⟩)),
    Int.mul_ediv_cancel _ second_pos.ne']

/-- Two durations that add up to whole seconds are not rounded up together. -/
lemma seconds_add {x y n : ℤ} (hx : 0 ≤ x) (hy : 0 ≤ y) (hsum : x + y = n * second)
    (hfits : n * second < 2 ^ 63) :
    n - 1 ≤ seconds x + seconds y ∧ seconds x + seconds y ≤ n := by
  obtain ⟨hlowx, hhighx⟩ := seconds_bounds hx (by omega)
  obtain ⟨hlowy, hhighy⟩ := seconds_bounds hy (by omega)
  refine ⟨by unfold second at *; omega, ?_⟩
  rw [seconds_eq hx (by omega), seconds_eq hy (by omega)]
  split_ifs with hupx hupy
  · have hrestx := hupx.rest_lt (by omega)
    have hresty := hupy.rest_lt (by omega)
    unfold second at *
    omega
  · have hrestx := hupx.rest_lt (by omega)
    unfold second at *
    omega
  · have hresty := ‹RoundsUp y›.rest_lt (by omega)
    unfold second at *
    omega
  · unfold second at *
    omega

/-- Half a second is cut off. -/
lemma seconds_half (hd : 0 ≤ d) (hfits : d < 2 ^ 63) (h : d % second = 500000000) :
    seconds d = d / second := by
  refine seconds_of_not_roundsUp hd hfits fun hup => ?_
  have hrest := hup.rest_lt hfits
  unfold second at *
  omega

@[simp] lemma seconds_zero : seconds 0 = 0 := by decide +kernel

end Durations

end Go
