import Mathlib.Algebra.BigOperators.Group.List.Basic
import Mathlib.Algebra.Order.BigOperators.Group.List
import Mathlib.Algebra.Order.Ring.Int
import Mathlib.Data.Int.Notation
import Mathlib.Tactic.Common

/-!
# The points of a suite

The pure functions of `backend/internal/problem/problem.go`.  Points and scores are integers of 32
bits, kept as integers with `int32` where the code adds them up; a suite has fewer than `2 ^ 31`
tests.

* `share` — what a test gets when the score is split evenly, `sum_shares` that nothing is lost.
* `validateTestPoints`, `distributePoints` — the points of a suite that is given whole;
  `validated_sum` what the two leave it with.
* `isEvenDistribution` — whether the points are an even split, or none were given.
-/

namespace Labyrithm

namespace Problem

/-! ## Integers of 32 bits -/

/-- The result of an arithmetic operation on `int32`. -/
def int32 (n : ℤ) : ℤ := n.bmod (2 ^ 32)

/-- What an `int32` can hold. -/
def FitsInt32 (n : ℤ) : Prop := -2 ^ 31 ≤ n ∧ n < 2 ^ 31

instance (n : ℤ) : Decidable (FitsInt32 n) := inferInstanceAs (Decidable (_ ∧ _))

lemma int32_of_fits {n : ℤ} (h : FitsInt32 n) : int32 n = n := by
  obtain ⟨hlow, hhigh⟩ := h
  exact Int.bmod_eq_of_le (by omega) (by omega)

/-! ## Limits -/

/-- `ClampLimits`: the time limit, the memory limit and the score of a problem. -/
def clampLimits (timeLimitMs memoryLimitMb maxScore : ℤ) : ℤ × ℤ × ℤ :=
  (if timeLimitMs ≤ 0 then 4000 else if timeLimitMs < 100 then 100
    else if timeLimitMs > 10000 then 10000 else timeLimitMs,
    if memoryLimitMb ≤ 0 then 256 else if memoryLimitMb < 16 then 16
    else if memoryLimitMb > 1024 then 1024 else memoryLimitMb,
    if maxScore ≤ 0 then 100 else maxScore)

/-- A problem is always worth something. -/
lemma clampLimits_maxScore_pos (t m s : ℤ) : 0 < (clampLimits t m s).2.2 := by
  unfold clampLimits
  dsimp only
  split_ifs <;> omega

lemma clampLimits_maxScore_fits {t m s : ℤ} (h : FitsInt32 s) : FitsInt32 (clampLimits t m s).2.2 := by
  obtain ⟨hlow, hhigh⟩ := h
  unfold clampLimits FitsInt32
  dsimp only
  split_ifs <;> omega

/-! ## Even splits -/

/-- What the test at position `i` gets of a score that is split among `n`. -/
def share (maxScore : ℤ) (n i : ℕ) : ℤ :=
  maxScore.tdiv n + if (i : ℤ) < maxScore.tmod n then 1 else 0

def shares (maxScore : ℤ) (n : ℕ) : List ℤ := (List.range n).map (share maxScore n)

@[simp] lemma length_shares (maxScore : ℤ) (n : ℕ) : (shares maxScore n).length = n := by
  simp [shares]

lemma sum_indicator (n r : ℕ) (h : r ≤ n) :
    ((List.range n).map fun i => if i < r then (1 : ℤ) else 0).sum = r := by
  induction n with
  | zero => simp [Nat.le_zero.mp h]
  | succ n ih =>
      rw [List.range_succ, List.map_append, List.sum_append]
      rcases Nat.lt_or_ge n r with hlt | hge
      · obtain rfl : r = n + 1 := by omega
        have hall : ∀ i ∈ List.range n, (if i < n + 1 then (1 : ℤ) else 0) = 1 := fun i hi =>
          if_pos (Nat.lt_succ_of_lt (List.mem_range.mp hi))
        rw [List.map_congr_left hall]
        simp
      · rw [ih hge]
        simp [Nat.not_lt.mpr hge]

/-- An even split of a score leaves nothing over. -/
lemma sum_shares {maxScore : ℤ} {n : ℕ} (hscore : 0 ≤ maxScore) (hn : 0 < n) :
    (shares maxScore n).sum = maxScore := by
  lift maxScore to ℕ using hscore
  have hshare (i : ℕ) : share maxScore n i = ((maxScore / n : ℕ) : ℤ) +
      if i < maxScore % n then 1 else 0 := by
    rw [share, Int.tdiv_eq_ediv_of_nonneg (Int.natCast_nonneg _),
      Int.tmod_eq_emod_of_nonneg (Int.natCast_nonneg _)]
    norm_cast
  have hlt : maxScore % n < n := Nat.mod_lt _ hn
  calc (shares maxScore n).sum
      = ((List.range n).map fun _ => ((maxScore / n : ℕ) : ℤ)).sum +
          ((List.range n).map fun i => if i < maxScore % n then (1 : ℤ) else 0).sum := by
        rw [← List.sum_map_add]
        exact congrArg List.sum (List.map_congr_left fun i _ => hshare i)
    _ = n * ((maxScore / n : ℕ) : ℤ) + ((maxScore % n : ℕ) : ℤ) := by
        rw [sum_indicator n _ hlt.le]
        simp
    _ = maxScore := by exact_mod_cast Nat.div_add_mod maxScore n

lemma shares_nonneg {maxScore : ℤ} {n : ℕ} (hscore : 0 ≤ maxScore) :
    ∀ p ∈ shares maxScore n, 0 ≤ p := by
  intro p hp
  obtain ⟨i, -, rfl⟩ := List.mem_map.mp hp
  have hdiv : 0 ≤ maxScore.tdiv n := Int.tdiv_nonneg hscore (Int.natCast_nonneg n)
  unfold share
  split_ifs <;> omega

/-- `IsEvenDistribution`. -/
def isEvenDistribution (points : List ℤ) (maxScore : ℤ) : Bool :=
  points.all (· ≤ 0) || points.zipIdx.all fun (p, i) => p = share maxScore points.length i

/-- Every position has its share. -/
lemma all_share_iff {points : List ℤ} {maxScore : ℤ} :
    (points.zipIdx.all fun (p, i) => p = share maxScore points.length i) = true ↔
      points = shares maxScore points.length := by
  rw [List.all_eq_true, List.ext_getElem_iff]
  simp only [Prod.forall, List.mem_zipIdx_iff_getElem?, length_shares, true_and]
  constructor
  · intro h i hi _
    simpa [shares] using h points[i] i (List.getElem?_eq_getElem hi)
  · intro h p i hp
    obtain ⟨hi, rfl⟩ := List.getElem?_eq_some_iff.mp hp
    simpa [shares] using h i hi hi

lemma isEvenDistribution_iff {points : List ℤ} {maxScore : ℤ} :
    isEvenDistribution points maxScore = true ↔
      (∀ p ∈ points, p ≤ 0) ∨ points = shares maxScore points.length := by
  rw [isEvenDistribution, Bool.or_eq_true, all_share_iff]
  simp

/-! ## A suite given whole -/

/-- `TestInput`. -/
structure TestInput where
  ordinal : ℤ
  input : List UInt8
  expected : List UInt8
  points : ℤ
  deriving DecidableEq, Repr

/-- What the packages' functions return as errors. -/
inductive Err
  | notFound
  | duplicateSlug
  | negativePoints (ordinal : ℤ)
  | pointsMismatch (sum maxScore : ℤ)
  | identicalTo (ordinal first : ℤ)
  | identicalToExisting (ordinal : ℤ)
  | pointsNegative
  | exceedsMaxScore (points maxScore currentSum : ℤ)
  | uniqueViolation
  | noRow
  | noRows (context : String)
  deriving DecidableEq, Repr

def Err.message : Err → String
  | notFound => "problem not found"
  | duplicateSlug => "problem slug already exists"
  | negativePoints ordinal =>
      s!"test points do not sum to the problem's max score: test {ordinal} carries negative points"
  | pointsMismatch sum maxScore =>
      "test points do not sum to the problem's max score: " ++
        s!"the test cases total {sum} points but the problem is worth {maxScore} -- " ++
        s!"give every test a value that adds up to {maxScore}, " ++
        "or leave them all at 0 to split it evenly"
  | identicalTo ordinal first =>
      s!"duplicate test case: test case {ordinal} is identical to test case {first}"
  | identicalToExisting ordinal =>
      s!"duplicate test case: identical input and expected output to existing test case #{ordinal}"
  | pointsNegative => "test case points cannot be negative"
  | exceedsMaxScore points maxScore currentSum =>
      s!"adding {points} points exceeds problem max score of {maxScore} (current sum: {currentSum})"
  | uniqueViolation => "duplicate key value violates unique constraint"
  | noRow => "no rows in result set"
  | noRows context => context ++ ": no rows in result set"

/-- `ValidateTestPoints`; the sum is one of 64 bits. -/
def validateTestPoints (tests : List TestInput) (maxScore : ℤ) : Except Err Unit :=
  if tests.all (·.points = 0) then .ok ()
  else
    match tests.find? (·.points < 0) with
    | some t => .error (.negativePoints t.ordinal)
    | none =>
        if (tests.map (·.points)).sum ≠ maxScore then
          .error (.pointsMismatch (tests.map (·.points)).sum maxScore)
        else .ok ()

/-- `DistributePoints`. -/
def distributePoints (tests : List TestInput) (maxScore : ℤ) : List TestInput :=
  if maxScore ≤ 0 ∨ tests.any (·.points > 0) then tests
  else tests.mapIdx fun i t => { t with points := share maxScore tests.length i }

lemma validateTestPoints_eq_ok {tests : List TestInput} {maxScore : ℤ} :
    validateTestPoints tests maxScore = .ok () ↔ (∀ t ∈ tests, t.points = 0) ∨
      (∀ t ∈ tests, 0 ≤ t.points) ∧ (tests.map (·.points)).sum = maxScore := by
  unfold validateTestPoints
  by_cases hzero : tests.all (·.points = 0) = true
  · simpa [hzero] using Or.inl (by simpa using hzero)
  · have hzero' : ¬ ∀ t ∈ tests, t.points = 0 := by simpa using hzero
    rw [if_neg hzero, or_iff_right hzero']
    cases hneg : tests.find? (·.points < 0) with
    | some t =>
        obtain ⟨hlt, hmem⟩ : t.points < 0 ∧ t ∈ tests :=
          ⟨by simpa using List.find?_some hneg, List.mem_of_find?_eq_some hneg⟩
        simp only [reduceCtorEq, false_iff, not_and_or]
        exact .inl fun hall => absurd (hall t hmem) (not_le.mpr hlt)
    | none =>
        have hall : ∀ t ∈ tests, 0 ≤ t.points := by simpa using List.find?_eq_none.mp hneg
        by_cases hsum : (tests.map (·.points)).sum = maxScore
        · simpa [hsum] using hall
        · simp [hsum]

lemma distributePoints_points {tests : List TestInput} {maxScore : ℤ} (hscore : 0 < maxScore)
    (hzero : ∀ t ∈ tests, t.points = 0) :
    (distributePoints tests maxScore).map (·.points) = shares maxScore tests.length := by
  have hnone : tests.any (·.points > 0) = false := by
    simp only [List.any_eq_false, decide_eq_true_eq, not_lt]
    exact fun t ht => (hzero t ht).le
  rw [distributePoints, if_neg (by simp [hnone, hscore])]
  refine List.ext_getElem (by simp) fun i hi hi' => ?_
  simp [shares]

lemma distributePoints_of_sum {tests : List TestInput} {maxScore : ℤ} (hscore : 0 < maxScore)
    (hpos : ∀ t ∈ tests, 0 ≤ t.points) (hsum : (tests.map (·.points)).sum = maxScore) :
    distributePoints tests maxScore = tests := by
  unfold distributePoints
  by_cases hany : tests.any (·.points > 0) = true
  · rw [if_pos (.inr hany)]
  · -- all points are zero, and so is their sum
    have hzero : ∀ p ∈ tests.map (·.points), p = 0 := by
      intro p hp
      obtain ⟨t, ht, rfl⟩ := List.mem_map.mp hp
      have hle : t.points ≤ 0 := by
        have hnone := fun ht' => hany (List.any_eq_true.mpr ⟨t, ht, ht'⟩)
        simpa using hnone
      exact le_antisymm hle (hpos t ht)
    rw [List.sum_eq_zero hzero] at hsum
    omega

/-- A suite that is accepted, and has a test, is worth what the problem is worth. -/
lemma validated_sum {tests : List TestInput} {maxScore : ℤ} (hscore : 0 < maxScore)
    (hvalid : validateTestPoints tests maxScore = .ok ()) (hne : tests ≠ []) :
    ((distributePoints tests maxScore).map (·.points)).sum = maxScore ∧
      ∀ p ∈ (distributePoints tests maxScore).map (·.points), 0 ≤ p := by
  have hlen : 0 < tests.length := List.length_pos_iff.mpr hne
  rcases validateTestPoints_eq_ok.mp hvalid with hzero | ⟨hpos, hsum⟩
  · rw [distributePoints_points hscore hzero]
    exact ⟨sum_shares hscore.le hlen, shares_nonneg hscore.le⟩
  · rw [distributePoints_of_sum hscore hpos hsum]
    refine ⟨hsum, fun p hp => ?_⟩
    obtain ⟨t, ht, rfl⟩ := List.mem_map.mp hp
    exact hpos t ht

end Problem

end Labyrithm
