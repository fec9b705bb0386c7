import Labyrithm.Judge.Laws
import Labyrithm.Problem.Announcements
import Labyrithm.Problem.Budget
import Labyrithm.Problem.Suite

/-!
# Even splits, wherever they are made

The score of a problem is split evenly among its tests in seven places: in Go where a suite is given whole,
where a test comes or goes and where a suite is read, in the judge, in the SQL of a migration, and in the
frontend.  The SQL counts its rows from 1, the others from 0, and each has a condition of its own.

The numbers of the frontend are integers below `2 ^ 53`, where floating point is exact; a sum beyond that
is still beyond every score.

* `EvenSplit` — what an even split is, whoever makes it; `evenSplit_iff` that there is only one.
* `generateEvenPoints`, `calculateScoringSummary` — the functions of the frontend.
* `ProblemRow.getFullTests`, `getProblemTests`, `distributeZeroTestPoints` — a read for the portal, a read
  for the judge, and the migration.
* `PointlessCall.apply_even`, `apply_kept` — a call without points splits the score again, or leaves the
  points alone.
* **`even_distribution`** — all of them make the same split and recognise it, and a suite that is split
  evenly stays so.
-/

namespace Labyrithm

namespace Problem

/-! ## What an even split is -/

/-- Nothing is left over, no test gets more than one point more than another, and the first get most. -/
structure EvenSplit (maxScore : ℤ) (points : List ℤ) : Prop where
  sum : points.sum = maxScore
  close : ∀ a ∈ points, ∀ b ∈ points, a ≤ b + 1
  sorted : points.Pairwise (· ≥ ·)

section Shares

variable {maxScore : ℤ} {n : ℕ}

lemma share_anti (maxScore : ℤ) (n : ℕ) {i j : ℕ} (h : i ≤ j) : share maxScore n j ≤ share maxScore n i := by
  unfold share
  split_ifs <;> omega

lemma evenSplit_shares (hscore : 0 ≤ maxScore) (hn : 0 < n) : EvenSplit maxScore (shares maxScore n) where
  sum := sum_shares hscore hn
  close := by
    intro a ha b hb
    obtain ⟨i, -, rfl⟩ := List.mem_map.mp ha
    obtain ⟨j, -, rfl⟩ := List.mem_map.mp hb
    unfold share
    split_ifs <;> omega
  sorted := by
    rw [shares, List.pairwise_map]
    exact List.pairwise_lt_range.imp fun hij => share_anti maxScore n hij.le

/-- The head of an even split is not below that of another: the other one would be worth more. -/
lemma EvenSplit.head_le {a a' : ℤ} {points points' : List ℤ} (h : EvenSplit maxScore (a :: points))
    (h' : EvenSplit maxScore (a' :: points')) (hlength : points.length = points'.length) : a' ≤ a := by
  by_contra hlt
  have hle : ∀ b ∈ points, b ≤ a := fun b hb => List.rel_of_pairwise_cons h.sorted hb
  have hge : ∀ b ∈ points', a ≤ b := by
    intro b hb
    have hclose := h'.close a' List.mem_cons_self b (List.mem_cons_of_mem _ hb)
    omega
  have hupper := List.sum_le_card_nsmul points a hle
  have hlower := List.card_nsmul_le_sum points' a hge
  have hsum := h.sum.trans h'.sum.symm
  rw [List.sum_cons, List.sum_cons] at hsum
  rw [hlength] at hupper
  omega

lemma EvenSplit.tail {a : ℤ} {points : List ℤ} (h : EvenSplit maxScore (a :: points)) :
    EvenSplit (maxScore - a) points where
  sum := by
    have hsum := h.sum
    rw [List.sum_cons] at hsum
    omega
  close b hb c hc := h.close b (List.mem_cons_of_mem _ hb) c (List.mem_cons_of_mem _ hc)
  sorted := h.sorted.of_cons

/-- Two even splits of one score among as many tests are the same. -/
lemma EvenSplit.unique {points points' : List ℤ} (h : EvenSplit maxScore points)
    (h' : EvenSplit maxScore points') (hlength : points.length = points'.length) : points = points' := by
  induction points generalizing points' maxScore with
  | nil => exact (List.length_eq_zero_iff.mp hlength.symm).symm
  | cons a points ih =>
      cases points' with
      | nil => cases hlength
      | cons a' points' =>
          have hlen : points.length = points'.length := Nat.succ.inj hlength
          obtain rfl : a = a' := le_antisymm (h'.head_le h hlen.symm) (h.head_le h' hlen)
          rw [ih h.tail h'.tail hlen]

/-- There is one even split, and that is what is computed. -/
lemma evenSplit_iff {points : List ℤ} (hscore : 0 ≤ maxScore) (hne : points ≠ []) :
    EvenSplit maxScore points ↔ points = shares maxScore points.length := by
  have hshares := evenSplit_shares hscore (List.length_pos_iff.mpr hne)
  constructor
  · intro h
    exact h.unique hshares (length_shares _ _).symm
  · intro h
    rw [h]
    exact hshares

/-- `IsEvenDistribution` takes negative points for none; a suite has none of these. -/
lemma isEvenDistribution_nonneg_iff {points : List ℤ} (hnonneg : ∀ q ∈ points, 0 ≤ q) :
    isEvenDistribution points maxScore = true ↔
      points = [] ∨ (∀ q ∈ points, q = 0) ∨ points = shares maxScore points.length := by
  rw [isEvenDistribution_iff]
  constructor
  · rintro (hle | heq)
    · exact .inr (.inl fun q hq => le_antisymm (hle q hq) (hnonneg q hq))
    · exact .inr (.inr heq)
  · rintro (rfl | hzero | heq)
    · exact .inl (by simp)
    · exact .inl fun q hq => (hzero q hq).le
    · exact .inr heq

end Shares

/-! ## The frontend -/

/-- `generateEvenPoints`; `Math.floor` rounds down, and `%` has the sign of its first operand. -/
def generateEvenPoints (count maxScore : ℤ) : List ℤ :=
  if count ≤ 0 ∨ maxScore ≤ 0 then []
  else
    let base := maxScore.fdiv count
    let remainder := maxScore.tmod count
    (List.range count.toNat).map fun i : ℕ => base + if (i : ℤ) < remainder then 1 else 0

/-- What `calculateScoringSummary` returns. -/
structure ScoringSummary where
  customPointsSum : ℤ
  hasCustomPoints : Bool
  autoPointPerTest : ℤ
  hasMinimumCases : Bool
  deriving DecidableEq, Repr

/-- The second `every` of `calculateScoringSummary`. -/
def everyExpected (tests : List (Option ℤ)) (maxScore : ℤ) : Bool :=
  tests.zipIdx.all fun (t, i) =>
    let base := maxScore.fdiv tests.length
    let rem := maxScore.tmod tests.length
    t = some (base + if (i : ℤ) < rem then 1 else 0)

/-- `calculateScoringSummary`.  A test may have no points: these count for nothing in the sum, and are
equal to nothing. -/
def calculateScoringSummary (tests : List (Option ℤ)) (maxScore : ℤ) : ScoringSummary :=
  let customPointsSum := tests.foldl (fun sum t => sum + t.getD 0) 0
  let isEvenDistribution :=
    tests.length = 0 || (tests.all (· = some 0) ||
      (customPointsSum = maxScore && everyExpected tests maxScore))
  { customPointsSum := customPointsSum
    hasCustomPoints := !isEvenDistribution
    autoPointPerTest := if tests.length > 0 then maxScore.fdiv tests.length else 0
    hasMinimumCases := tests.length ≥ minEvaluationTestCases }

section Frontend

variable {m : ℤ}

lemma share_eq_fdiv (hm : 0 < m) (n i : ℕ) :
    share m n i = m.fdiv n + if (i : ℤ) < m.tmod n then 1 else 0 := by
  rw [share, Int.fdiv_eq_tdiv_of_nonneg hm.le (Int.natCast_nonneg n)]

lemma generateEvenPoints_eq (hm : 0 < m) (n : ℕ) : generateEvenPoints n m = shares m n := by
  cases n with
  | zero => rfl
  | succ n =>
      have hcount : ¬ (((n + 1 : ℕ) : ℤ) ≤ 0 ∨ m ≤ 0) := by omega
      rw [generateEvenPoints, if_neg hcount]
      simp only [Int.toNat_natCast, shares]
      exact List.map_congr_left fun i _ => (share_eq_fdiv hm (n + 1) i).symm

lemma everyExpected_iff (hm : 0 < m) {points : List ℤ} :
    everyExpected (points.map some) m = true ↔ points = shares m points.length := by
  rw [← all_share_iff, everyExpected, List.zipIdx_map, List.all_map]
  simp [share_eq_fdiv hm, Function.comp_def]

/-- The frontend asks for the sum as well, which an even split has. -/
lemma calculateScoringSummary_even_iff (hm : 0 < m) {points : List ℤ} :
    (calculateScoringSummary (points.map some) m).hasCustomPoints = false ↔
      points = [] ∨ (∀ q ∈ points, q = 0) ∨ points = shares m points.length := by
  have hsum : (points.map some).foldl (fun sum t => sum + t.getD 0) 0 = points.sum := by
    rw [List.foldl_map, List.sum_eq_foldl]
    rfl
  have hzero : ((points.map some).all fun t => t = some 0) = true ↔ ∀ q ∈ points, q = 0 := by
    simp [List.all_eq_true]
  simp only [calculateScoringSummary, hsum, Bool.not_eq_eq_eq_not, Bool.not_false, Bool.or_eq_true,
    hzero, Bool.and_eq_true, everyExpected_iff hm, decide_eq_true_eq]
  constructor
  · rintro (hnil | hzero | ⟨-, heq⟩)
    · rw [List.length_map, List.length_eq_zero_iff] at hnil
      exact .inl hnil
    · exact .inr (.inl hzero)
    · exact .inr (.inr heq)
  · rintro (rfl | hzero | heq)
    · exact .inl rfl
    · exact .inr (.inl hzero)
    · cases points with
      | nil => exact .inl rfl
      | cons q points =>
          refine .inr (.inr ⟨?_, heq⟩)
          rw [heq]
          exact sum_shares hm.le (Nat.succ_pos _)

end Frontend

/-! ## The other ones -/

namespace ProblemRow

/-- `GetFullTests`; points that are shown are not stored. -/
def getFullTests (p : ProblemRow) : List TestInput :=
  let result : List TestInput := p.tests.map fun t => ⟨t.ordinal, t.input, t.expected, t.points⟩
  if result ≠ [] ∧ result.all (·.points ≤ 0) ∧ 0 < p.maxScore then
    result.mapIdx fun i t => { t with points := share p.maxScore result.length i }
  else result

/-- `GetProblemTests`, where there are some. -/
def getProblemTests (p : ProblemRow) : List TestCache.TestCase := p.tests.map TestRow.testCase

/-- What the migration `0020_distribute_zero_test_points` does to a problem; `row_num` counts from 1. -/
def distributeZeroTestPoints (p : ProblemRow) : ProblemRow :=
  let totalTestCount := p.tests.length
  if totalTestCount > 0 ∧ p.points.sum = 0 then
    let basePoints := p.maxScore.tdiv totalTestCount
    let remainderPoints := p.maxScore.tmod totalTestCount
    { p with
      tests := p.tests.mapIdx fun i t =>
        let rowNum : ℤ := i + 1
        { t with points := basePoints + if rowNum ≤ remainderPoints then 1 else 0 } }
  else p

/-- The points by the ordinals. -/
def assigned (p : ProblemRow) : List (ℤ × ℤ) := p.tests.map fun t => (t.ordinal, t.points)

/-! ## They make the same split -/

/-- The `i`-th of the ordinals gets the share at `i`. -/
def evenPoints (maxScore : ℤ) (ordinals : List ℤ) : List (ℤ × ℤ) :=
  ordinals.zip (shares maxScore ordinals.length)

section Assigned

variable {p p' : ProblemRow} {m : ℤ} {sha : List UInt8 → String}

/-- What has the ordinals it should have and the shares as its points is the even split. -/
lemma evenPoints_of {α : Type} {ordinal points : α → ℤ} {tests : List α} {ordinals : List ℤ}
    (hordinals : tests.map ordinal = ordinals)
    (hpoints : tests.map points = shares m ordinals.length) :
    tests.map (fun t => (ordinal t, points t)) = evenPoints m ordinals := by
  rw [evenPoints, ← hpoints, ← hordinals, List.zip_map']

lemma assigned_of (hordinals : p'.ordinals = p.ordinals) (hpoints : p'.points = shares m p.tests.length) :
    p'.assigned = evenPoints m p.ordinals :=
  evenPoints_of hordinals (by rwa [length_ordinals])

lemma assigned_distributeProblemPoints (hm : 0 < m) :
    (p.distributeProblemPoints m).assigned = evenPoints m p.ordinals := by
  refine assigned_of (distributeProblemPoints_ordinals m) ?_
  rw [distributeProblemPoints, if_neg (not_le.mpr hm)]
  exact map_points_mapIdx _ _

section Zero

variable (hne : p.tests ≠ []) (hzero : ∀ q ∈ p.points, q = 0)

include hne hzero

lemma assigned_getTestMetadata (hm : 0 < p.maxScore) :
    p.getTestMetadata.assigned = evenPoints p.maxScore p.ordinals := by
  have hall : p.allZero = true :=
    List.all_eq_true.mpr fun t ht => decide_eq_true (hzero _ (List.mem_map_of_mem ht)).le
  rw [getTestMetadata, if_pos ⟨hne, hall, hm⟩]
  exact assigned_of (map_ordinal_mapIdx _ _) (map_points_mapIdx _ _)

lemma assigned_distributeZeroTestPoints :
    p.distributeZeroTestPoints.assigned = evenPoints p.maxScore p.ordinals := by
  have hcond : p.tests.length > 0 ∧ p.points.sum = 0 :=
    ⟨List.length_pos_iff.mpr hne, List.sum_eq_zero hzero⟩
  rw [distributeZeroTestPoints, if_pos hcond]
  refine assigned_of (map_ordinal_mapIdx _ _) ?_
  -- a row number that counts from 1 is within the remainder if the position is below it
  refine List.ext_getElem (by simp [ProblemRow.points]) fun i _ _ => ?_
  simp only [points, Int.add_one_le_iff, List.getElem_map, List.getElem_mapIdx, shares, share,
    List.getElem_range]

lemma assigned_getFullTests (hm : 0 < p.maxScore) :
    (p.getFullTests.map fun t => (t.ordinal, t.points)) = evenPoints p.maxScore p.ordinals := by
  have hall : (p.tests.map fun t : TestRow => t.points).all (· ≤ 0) = true :=
    List.all_eq_true.mpr fun q hq => decide_eq_true (hzero q hq).le
  have hne' : p.tests.map (fun t => (⟨t.ordinal, t.input, t.expected, t.points⟩ : TestInput)) ≠ [] := by
    simpa using hne
  rw [List.all_map] at hall
  rw [getFullTests, if_pos ⟨hne', by rwa [List.all_map], hm⟩]
  refine evenPoints_of ?_ ?_
  · refine List.ext_getElem (by simp [ordinals]) fun i _ _ => ?_
    simp [ordinals]
  · refine List.ext_getElem (by simp [length_ordinals]) fun i _ _ => ?_
    simp [shares, length_ordinals]

lemma assigned_resolveTestPoints (hm : 0 < p.maxScore) :
    ((Grading.resolveTestPoints p.getProblemTests p.maxScore).1.map fun t => (t.ordinal, t.points)) =
      evenPoints p.maxScore p.ordinals := by
  have hzero' : ∀ t ∈ p.getProblemTests, t.points = 0 := by
    intro t ht
    obtain ⟨u, hu, rfl⟩ := List.mem_map.mp ht
    exact hzero _ (List.mem_map_of_mem hu)
  have hne' : p.getProblemTests ≠ [] := by simpa [getProblemTests] using hne
  obtain ⟨hshares, -⟩ := @Grading.resolveTestPoints_zero _ p.maxScore hzero' hne'
  rw [if_neg hm.ne'] at hshares
  have hordinals := congrArg (List.map Prod.fst) (Grading.resolveTestPoints_same p.getProblemTests p.maxScore)
  rw [List.map_map, List.map_map, getProblemTests, List.map_map] at hordinals
  refine evenPoints_of hordinals ?_
  rw [length_ordinals]
  simpa [getProblemTests] using hshares

end Zero

/-- A suite that is given whole is stored with the ordinals from 1. -/
lemma assigned_replaceTests (hm : 0 < p.maxScore) {ids : ℕ → String} {tests : List TestInput}
    (hzero : ∀ t ∈ tests, t.points = 0) (h : p.replaceTests sha ids tests = .ok p') :
    p'.assigned = evenPoints p.maxScore (oneTo tests.length) := by
  obtain ⟨-, rows, hrows, rfl⟩ := replaceTests_eq_ok h
  have hlength : (distributePoints tests p.maxScore).length = tests.length := by
    have hpoints := congrArg List.length (distributePoints_points hm hzero)
    simpa using hpoints
  have hordinals := insertTests_ordinals hrows rfl
  have hpoints := insertTests_points hrows
  rw [Nat.zero_add, hlength] at hordinals
  rw [List.map_nil, List.nil_append, distributePoints_points hm hzero] at hpoints
  exact evenPoints_of hordinals (by rwa [length_oneTo])

end Assigned

/-! ## Calls without points -/

section Calls

variable {p p' : ProblemRow} {sha : List UInt8 → String}

lemma isEven_distributeProblemPoints {m : ℤ} (hm : 0 < m) :
    isEvenDistribution (p.distributeProblemPoints m).points m = true := by
  rw [isEvenDistribution_iff, distributeProblemPoints, if_neg (not_le.mpr hm)]
  refine .inr ?_
  simp only [points, map_points_mapIdx, length_shares]

/-- What each test is worth. -/
def worths (p : ProblemRow) : List (String × ℤ) := p.tests.map fun t => (t.id, t.points)

lemma foldlM_renumberRow_eq_ok {f : ℤ → ℤ} {is : List ℕ} {tests tests' : List TestRow}
    (h : is.foldlM (renumberRow f) tests = .ok tests') : tests' = is.foldl (renumber f) tests := by
  induction is generalizing tests with
  | nil => exact (Except.ok.inj h).symm
  | cons i is ih =>
      rw [List.foldlM_cons] at h
      cases hrow : renumberRow f tests i with
      | error err =>
          rw [hrow] at h
          cases h
      | ok row =>
          rw [hrow] at h
          have hrow' : row = renumber f tests i := by
            unfold renumberRow at hrow
            split_ifs at hrow
            exact (Except.ok.inj hrow).symm
          rw [List.foldl_cons, ← hrow']
          exact ih h

/-- What a deletion that succeeds has done; whatever the two `UPDATE`s have met, they are through. -/
lemma deleteSingleTest_eq_ok {scan₁ scan₂ : Sql.Scan} {ordinal : ℤ}
    (h : p.deleteSingleTest scan₁ scan₂ ordinal = .ok p') :
    p' = if isEvenDistribution p.points p.maxScore then
        distributeProblemPoints { p with tests := p.shifted scan₁ scan₂ ordinal } p.maxScore
      else { p with tests := p.shifted scan₁ scan₂ ordinal } := by
  simp only [deleteSingleTest] at h
  split at h
  · cases h
  cases hfirst : updateOrdinals (· > ordinal) (fun o => -o) scan₁
      (p.tests.filter (·.ordinal ≠ ordinal)) with
  | error err =>
      rw [hfirst] at h
      cases h
  | ok negatedRows =>
      rw [hfirst] at h
      have hnegated : negatedRows = p.negated scan₁ ordinal := foldlM_renumberRow_eq_ok hfirst
      cases hsecond : updateOrdinals (· < 0) (fun o => -o - 1) scan₂ negatedRows with
      | error err =>
          simp only [bind, Except.bind, hsecond] at h
          cases h
      | ok shiftedRows =>
          have hshifted : shiftedRows = p.shifted scan₁ scan₂ ordinal := by
            rw [shifted, ← hnegated]
            exact foldlM_renumberRow_eq_ok hsecond
          simp only [bind, Except.bind, hsecond, hshifted] at h
          exact (Except.ok.inj h).symm

/-- The tests that stay after a deletion keep what they are worth, before the score is split again. -/
lemma worths_shifted (p : ProblemRow) (scan₁ scan₂ : Sql.Scan) (ordinal : ℤ) :
    (p.shifted scan₁ scan₂ ordinal).map (fun t => (t.id, t.points)) =
      (p.without ordinal).map fun t => (t.id, t.points) := by
  rw [shifted, map_updated (fun t => (t.id, t.points)) (fun _ _ => rfl), negated,
    map_updated (fun t => (t.id, t.points)) (fun _ _ => rfl)]

end Calls

end ProblemRow

lemma TestOp.apply_eq (sha : List UInt8 → String) (p : ProblemRow) (op : TestOp) :
    op.apply sha p = p ∨ op.run sha p = .ok (op.apply sha p) := by
  cases h : op.run sha p with
  | error err =>
      refine .inl ?_
      rw [apply, h]
  | ok p' =>
      refine .inr ?_
      rw [apply, h]

/-- A call that changes a suite or its score and brings no points. -/
inductive PointlessCall
  | addSingleTest (id : String) (input expected : List UInt8)
  | deleteSingleTest (scan₁ scan₂ : Sql.Scan) (ordinal : ℤ)
  | update (input : CreateProblemInput)

namespace PointlessCall

variable {p : ProblemRow} {sha : List UInt8 → String}

/-- A call that fails leaves the problem as it is. -/
def apply (sha : List UInt8 → String) (p : ProblemRow) : PointlessCall → ProblemRow
  | .addSingleTest id input expected => (TestOp.addSingleTest id input expected 0).apply sha p
  | .deleteSingleTest scan₁ scan₂ ordinal => (TestOp.deleteSingleTest scan₁ scan₂ ordinal).apply sha p
  | .update input => p.update input

/-- What the tests are worth after a call that leaves them their points. -/
def kept (p : ProblemRow) : PointlessCall → List (String × ℤ)
  | .addSingleTest id _ _ => p.worths ++ [(id, 0)]
  | .deleteSingleTest _ _ ordinal => (p.without ordinal).map fun t => (t.id, t.points)
  | .update _ => p.worths

/-- A suite that is not split evenly is not split again. -/
lemma apply_kept (call : PointlessCall) (h : isEvenDistribution p.points p.maxScore = false) :
    call.apply sha p = p ∨ (call.apply sha p).worths = call.kept p := by
  cases call with
  | addSingleTest id input expected =>
      refine (TestOp.apply_eq sha p _).imp_right fun hrun => ?_
      obtain ⟨-, -, -, happly⟩ := ProblemRow.addSingleTest_eq_ok hrun
      have hnot : p.shouldAutoDistribute 0 = false := by simp [ProblemRow.shouldAutoDistribute, h]
      rw [apply, happly, hnot, if_neg Bool.false_ne_true]
      simp [ProblemRow.worths, kept, ProblemRow.testRow]
  | deleteSingleTest scan₁ scan₂ ordinal =>
      refine (TestOp.apply_eq sha p _).imp_right fun hrun => ?_
      rw [apply, ProblemRow.deleteSingleTest_eq_ok hrun, h, if_neg Bool.false_ne_true]
      exact p.worths_shifted scan₁ scan₂ ordinal
  | update input =>
      refine .inr ?_
      rw [apply, ProblemRow.update_eq, h, if_neg (fun hc => Bool.false_ne_true hc.2.2)]
      rfl

/-- A suite that is split evenly is split again, or it has no points, or its score is as before. -/
lemma apply_even (call : PointlessCall) (hm : 0 < p.maxScore)
    (h : isEvenDistribution p.points p.maxScore = true) :
    0 < (call.apply sha p).maxScore ∧
      isEvenDistribution (call.apply sha p).points (call.apply sha p).maxScore = true := by
  cases call with
  | addSingleTest id input expected =>
      rw [apply]
      rcases TestOp.apply_eq sha p (.addSingleTest id input expected 0) with hsame | hrun
      · rw [hsame]
        exact ⟨hm, h⟩
      · obtain ⟨-, -, -, happly⟩ := ProblemRow.addSingleTest_eq_ok hrun
        have hauto : p.shouldAutoDistribute 0 = true := by simp [ProblemRow.shouldAutoDistribute, h]
        rw [happly, if_pos hauto, ProblemRow.distributeProblemPoints_maxScore]
        exact ⟨hm, ProblemRow.isEven_distributeProblemPoints hm⟩
  | deleteSingleTest scan₁ scan₂ ordinal =>
      rw [apply]
      rcases TestOp.apply_eq sha p (.deleteSingleTest scan₁ scan₂ ordinal) with hsame | hrun
      · rw [hsame]
        exact ⟨hm, h⟩
      · rw [ProblemRow.deleteSingleTest_eq_ok hrun, if_pos h, ProblemRow.distributeProblemPoints_maxScore]
        exact ⟨hm, ProblemRow.isEven_distributeProblemPoints hm⟩
  | update input =>
      have hnew := ProblemRow.newScore_pos input
      rw [apply, ProblemRow.update_eq]
      split
      · rw [ProblemRow.distributeProblemPoints_maxScore]
        exact ⟨hnew, ProblemRow.isEven_distributeProblemPoints hnew⟩
      · next hstays =>
        refine ⟨hnew, ?_⟩
        -- the score is the same, or there is nothing to split
        change isEvenDistribution p.points (ProblemRow.newScore input) = true
        rw [not_and_or, not_and_or, not_ne_iff, not_ne_iff] at hstays
        rcases hstays with hsame | hnil | hnot
        · rwa [← hsame]
        · rw [ProblemRow.points, hnil]
          rfl
        · exact absurd h hnot

/-- However many calls there are. -/
lemma foldl_apply_even (calls : List PointlessCall) (hm : 0 < p.maxScore)
    (h : isEvenDistribution p.points p.maxScore = true) :
    isEvenDistribution (calls.foldl (apply sha) p).points (calls.foldl (apply sha) p).maxScore = true := by
  induction calls generalizing p with
  | nil => exact h
  | cons call calls ih =>
      obtain ⟨hm', h'⟩ := @apply_even p sha call hm h
      exact ih hm' h'

end PointlessCall

/-! ## One function -/

/-- For every positive score the implementations give every ordinal the same points, where they give any;
these are an even split; both tests for it accept nothing else but a suite without points; and a suite that
is accepted stays so under all calls that bring no points, while these leave any other alone. -/
theorem even_distribution (sha : List UInt8 → String) {m : ℤ} (hm : 0 < m) :
    (∀ p : ProblemRow, p.maxScore = m → p.tests ≠ [] →
      (p.distributeProblemPoints m).assigned = ProblemRow.evenPoints m p.ordinals ∧
      p.ordinals.zip (generateEvenPoints p.tests.length m) = ProblemRow.evenPoints m p.ordinals ∧
      ((∀ q ∈ p.points, q = 0) →
        p.getTestMetadata.assigned = ProblemRow.evenPoints m p.ordinals ∧
        (p.getFullTests.map fun t => (t.ordinal, t.points)) = ProblemRow.evenPoints m p.ordinals ∧
        ((Grading.resolveTestPoints p.getProblemTests m).1.map fun t => (t.ordinal, t.points)) =
          ProblemRow.evenPoints m p.ordinals ∧
        p.distributeZeroTestPoints.assigned = ProblemRow.evenPoints m p.ordinals)) ∧
    (∀ tests : List TestInput, (∀ t ∈ tests, t.points = 0) →
      (distributePoints tests m).map (·.points) = shares m tests.length ∧
      ∀ (p p' : ProblemRow) (ids : ℕ → String), p.maxScore = m →
        p.replaceTests sha ids tests = .ok p' →
        p'.assigned = ProblemRow.evenPoints m (oneTo tests.length)) ∧
    (∀ n : ℕ, 0 < n → EvenSplit m (shares m n)) ∧
    (∀ points : List ℤ, (∀ q ∈ points, 0 ≤ q) →
      (isEvenDistribution points m = true ↔
        points = [] ∨ (∀ q ∈ points, q = 0) ∨ points = shares m points.length) ∧
      ((calculateScoringSummary (points.map some) m).hasCustomPoints = false ↔
        points = [] ∨ (∀ q ∈ points, q = 0) ∨ points = shares m points.length)) ∧
    (∀ p : ProblemRow, p.maxScore = m → isEvenDistribution p.points m = true →
      ∀ calls : List PointlessCall,
        isEvenDistribution (calls.foldl (PointlessCall.apply sha) p).points
          (calls.foldl (PointlessCall.apply sha) p).maxScore = true) ∧
    (∀ (p : ProblemRow) (call : PointlessCall), isEvenDistribution p.points p.maxScore = false →
      call.apply sha p = p ∨ (call.apply sha p).worths = call.kept p) := by
  refine ⟨?_, ?_, ?_, ?_, ?_, ?_⟩
  · rintro p rfl hne
    refine ⟨ProblemRow.assigned_distributeProblemPoints hm, ?_, fun hzero => ⟨?_, ?_, ?_, ?_⟩⟩
    · rw [generateEvenPoints_eq hm, ProblemRow.evenPoints, ProblemRow.length_ordinals]
    · exact ProblemRow.assigned_getTestMetadata hne hzero hm
    · exact ProblemRow.assigned_getFullTests hne hzero hm
    · exact ProblemRow.assigned_resolveTestPoints hne hzero hm
    · exact ProblemRow.assigned_distributeZeroTestPoints hne hzero
  · intro tests hzero
    refine ⟨distributePoints_points hm hzero, ?_⟩
    rintro p p' ids rfl h
    exact ProblemRow.assigned_replaceTests hm hzero h
  · exact fun n hn => evenSplit_shares hm.le hn
  · exact fun points hnonneg => ⟨isEvenDistribution_nonneg_iff hnonneg, calculateScoringSummary_even_iff hm⟩
  · rintro p rfl heven calls
    exact PointlessCall.foldl_apply_even calls hm heven
  · exact fun p call => call.apply_kept

/-- Three tests share 100 points. -/
theorem even_distribution_sample :
    EvenSplit 100 [34, 33, 33] ∧ isEvenDistribution [34, 33, 33] 100 = true ∧
      (calculateScoringSummary [some 34, some 33, some 33] 100).hasCustomPoints = false := by
  have hshares : shares 100 3 = [34, 33, 33] := by decide
  obtain ⟨-, -, hsplit, hrecognised, -⟩ := even_distribution sampleSha (m := 100) (by decide)
  obtain ⟨heven, hsummary⟩ := hrecognised [34, 33, 33] (by decide)
  exact ⟨hshares ▸ hsplit 3 (by decide), heven.mpr (.inr (.inr hshares.symm)),
    hsummary.mpr (.inr (.inr hshares.symm))⟩

end Problem

end Labyrithm
