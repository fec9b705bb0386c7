import Labyrithm.Problem.Points
import Labyrithm.Sql.Scan

/-!
# The tests of a problem

`backend/internal/problem/tests.go` and the functions of `repository.go` that write a problem, each as
a function of the row of the problem with its rows of `problem_tests`, one call at a time.  A call
that fails is rolled back, so an error comes without a row.

The rows of a suite are kept in the order of their ordinals, which is how every statement reads them;
`Ordinals.lean` shows that the calls leave them so.  The hash is a parameter: `sha` is
`crypto.SHA256Hex`.

* `ProblemRow.replaceTests`, `addSingleTest`, `updateSingleTest`, `deleteSingleTest`,
  `updateTestPoints` — the writes of a suite.
* `ProblemRow.getTestMetadata` — a read that may write points; `ProblemRow.update` — a write of the
  problem that may.
* `ProblemRow.updateOrdinals` — an `UPDATE` of the ordinals, row by row in the order of a `Scan`.
* `TestOp.run` — one of the writes of a suite.
-/

namespace Labyrithm

namespace Problem

/-- A row of `problem_tests`. -/
structure TestRow where
  id : String
  ordinal : ℤ
  input : List UInt8
  expected : List UInt8
  inputSha : String
  expectedSha : String
  points : ℤ
  deriving DecidableEq, Repr

/-- A row of `problem_samples`. -/
structure Sample where
  ordinal : ℤ
  input : List UInt8
  output : List UInt8
  explanation : String
  deriving DecidableEq, Repr

/-- A row of `problems` with its samples and tests. -/
structure ProblemRow where
  slug : String
  timeLimitMs : ℤ
  memoryLimitMb : ℤ
  maxScore : ℤ
  published : Bool
  samples : List Sample
  tests : List TestRow
  deriving DecidableEq, Repr

/-- What `CreateProblemInput` has of these. -/
structure CreateProblemInput where
  slug : String
  timeLimitMs : ℤ
  memoryLimitMb : ℤ
  maxScore : ℤ
  published : Bool
  samples : List Sample
  maxScore_fits : FitsInt32 maxScore := by decide
  deriving DecidableEq, Repr

namespace ProblemRow

/-- The points in the order of the ordinals. -/
def points (p : ProblemRow) : List ℤ := p.tests.map (·.points)

def ordinals (p : ProblemRow) : List ℤ := p.tests.map (·.ordinal)

/-! ## Points -/

/-- `DistributeProblemPointsTx`. -/
def distributeProblemPoints (p : ProblemRow) (maxScore : ℤ) : ProblemRow :=
  if maxScore ≤ 0 then p
  else { p with
    tests := p.tests.mapIdx fun i t => { t with points := share maxScore p.tests.length i } }

/-- The points of every test are zero or less. -/
def allZero (p : ProblemRow) : Bool := p.tests.all (·.points ≤ 0)

/-- `GetTestMetadata`: a suite without points is given some when it is read. -/
def getTestMetadata (p : ProblemRow) : ProblemRow :=
  if p.tests ≠ [] ∧ p.allZero ∧ 0 < p.maxScore then
    { p with
      tests := p.tests.mapIdx fun i t => { t with points := share p.maxScore p.tests.length i } }
  else p

/-! ## A suite given whole -/

/-- An `INSERT` into `problem_tests`, with the constraint that a problem has an ordinal once. -/
def insertTest (row : TestRow) (tests : List TestRow) : Except Err (List TestRow) :=
  if tests.any (·.ordinal = row.ordinal) then .error .uniqueViolation else .ok (tests ++ [row])

/-- The row of a test. -/
def testRow (sha : List UInt8 → String) (id : String) (ordinal : ℤ) (input expected : List UInt8)
    (points : ℤ) : TestRow where
  id := id
  ordinal := ordinal
  input := input
  expected := expected
  inputSha := sha input
  expectedSha := sha expected
  points := points

/-- The loop of `ReplaceTests` from the position `i`; `seenHashes` has the hashes of the tests before
with their positions. -/
def insertTests (sha : List UInt8 → String) (ids : ℕ → String) :
    List TestInput → ℕ → List (String × ℕ) → List TestRow → Except Err (List TestRow)
  | [], _, _, tests => .ok tests
  | t :: rest, i, seenHashes, tests =>
      let pairHash := sha t.input ++ ":" ++ sha t.expected
      match seenHashes.lookup pairHash with
      | some firstIdx => .error (.identicalTo (i + 1) (firstIdx + 1))
      | none =>
          match insertTest (testRow sha (ids i) (i + 1) t.input t.expected t.points) tests with
          | .error err => .error err
          | .ok tests => insertTests sha ids rest (i + 1) ((pairHash, i) :: seenHashes) tests

/-- `ReplaceTests`.  `ids` are the ids of the new rows. -/
def replaceTests (sha : List UInt8 → String) (ids : ℕ → String) (tests : List TestInput)
    (p : ProblemRow) : Except Err ProblemRow :=
  match validateTestPoints tests p.maxScore with
  | .error err => .error err
  | .ok () =>
      match insertTests sha ids (distributePoints tests p.maxScore) 0 [] [] with
      | .error err => .error err
      | .ok tests => .ok { p with tests := tests }

/-! ## One test -/

/-- `SELECT COALESCE(MAX(ordinal), 0) + 1`. -/
def nextOrdinal (p : ProblemRow) : ℤ := p.ordinals.max?.getD 0 + 1

/-- `currentSum`, added up in `int32`. -/
def currentSum (p : ProblemRow) : ℤ := p.points.foldl (fun sum points => int32 (sum + points)) 0

/-- A test with these hashes, other than the one with an ordinal. -/
def findIdentical (inputSha expectedSha : String) (except : Option ℤ) (p : ProblemRow) :
    Option TestRow :=
  p.tests.find? fun t =>
    t.inputSha = inputSha && (t.expectedSha = expectedSha && some t.ordinal ≠ except)

/-- Whether a new test without points has the score split evenly again. -/
def shouldAutoDistribute (points : ℤ) (p : ProblemRow) : Bool :=
  points ≤ 0 && isEvenDistribution p.points p.maxScore

/-- `AddSingleTest`.  `id` is the id of the new row. -/
def addSingleTest (sha : List UInt8 → String) (id : String) (input expected : List UInt8)
    (points : ℤ) (p : ProblemRow) : Except Err ProblemRow :=
  if points < 0 then .error .pointsNegative
  else if !p.shouldAutoDistribute points ∧ points > 0 ∧ int32 (p.currentSum + points) > p.maxScore then
    .error (.exceedsMaxScore points p.maxScore p.currentSum)
  else
    match p.findIdentical (sha input) (sha expected) none with
    | some t => .error (.identicalToExisting t.ordinal)
    | none =>
        let pts := if p.shouldAutoDistribute points then 0 else points
        match insertTest (testRow sha id p.nextOrdinal input expected pts) p.tests with
        | .error err => .error err
        | .ok tests =>
            if p.shouldAutoDistribute points then
              .ok (distributeProblemPoints { p with tests := tests } p.maxScore)
            else .ok { p with tests := tests }

/-- `UpdateSingleTest`; `none` leaves a part as it is. -/
def updateSingleTest (sha : List UInt8 → String) (ordinal : ℤ) (input expected : Option (List UInt8))
    (points : Option ℤ) (p : ProblemRow) : Except Err ProblemRow :=
  match p.tests.find? (·.ordinal = ordinal) with
  | none => .error .notFound
  | some current =>
      if ∃ n ∈ points, n < 0 then .error .pointsNegative
      else
        let row := testRow sha current.id ordinal (input.getD current.input)
          (expected.getD current.expected) (points.getD current.points)
        match p.findIdentical row.inputSha row.expectedSha (some ordinal) with
        | some t => .error (.identicalToExisting t.ordinal)
        | none => .ok { p with tests := p.tests.map fun t => if t.ordinal = ordinal then row else t }

/-- `UPDATE problem_tests SET points = $3 WHERE ordinal = $2`. -/
def setPoints (ordinal points : ℤ) (p : ProblemRow) : ProblemRow :=
  { p with tests := p.tests.map fun t => if t.ordinal = ordinal then { t with points := points } else t }

/-- `UpdateTestPoints`, with the entries of the map in the order they are met. -/
def updateTestPoints : List (ℤ × ℤ) → ProblemRow → Except Err ProblemRow
  | [], p => .ok p
  | (ord, pts) :: pointsMap, p =>
      if pts < 0 then .error .pointsNegative else updateTestPoints pointsMap (p.setPoints ord pts)

/-! ## Renumbering -/

/-- The row at a position gets its new ordinal. -/
def renumber (f : ℤ → ℤ) (tests : List TestRow) (i : ℕ) : List TestRow :=
  tests.modify i fun t => { t with ordinal := f t.ordinal }

/-- The same with the constraint, which is checked for each row as it is written. -/
def renumberRow (f : ℤ → ℤ) (tests : List TestRow) (i : ℕ) : Except Err (List TestRow) :=
  if ((renumber f tests i).map (·.ordinal)).Nodup then .ok (renumber f tests i)
  else .error .uniqueViolation

/-- The positions of the rows with an ordinal as in the `WHERE`, in the order they are visited. -/
def visits (cond : ℤ → Bool) (scan : Sql.Scan) (tests : List TestRow) : List ℕ :=
  scan.order (Sql.found cond (tests.map (·.ordinal)))

/-- `UPDATE problem_tests SET ordinal = f(ordinal) WHERE cond(ordinal)`. -/
def updateOrdinals (cond : ℤ → Bool) (f : ℤ → ℤ) (scan : Sql.Scan) (tests : List TestRow) :
    Except Err (List TestRow) :=
  (visits cond scan tests).foldlM (renumberRow f) tests

/-- `DeleteSingleTest`; `scan₁` and `scan₂` are the orders of the two `UPDATE`s. -/
def deleteSingleTest (scan₁ scan₂ : Sql.Scan) (ordinal : ℤ) (p : ProblemRow) : Except Err ProblemRow :=
  let wasEven := isEvenDistribution p.points p.maxScore
  if p.tests.all (·.ordinal ≠ ordinal) then .error .notFound
  else do
    let tests := p.tests.filter (·.ordinal ≠ ordinal)
    let tests ← updateOrdinals (· > ordinal) (fun o => -o) scan₁ tests
    let tests ← updateOrdinals (· < 0) (fun o => -o - 1) scan₂ tests
    let p := { p with tests := tests }
    return if wasEven then p.distributeProblemPoints p.maxScore else p

/-! ## The problem -/

/-- The samples as they are inserted, numbered from 1. -/
def numberSamples (samples : List Sample) : List Sample :=
  samples.mapIdx fun i s => { s with ordinal := i + 1 }

/-- `Create`. -/
def create (input : CreateProblemInput) : ProblemRow :=
  let (timeLimitMs, memoryLimitMb, maxScore) :=
    clampLimits input.timeLimitMs input.memoryLimitMb input.maxScore
  { slug := input.slug
    timeLimitMs := timeLimitMs
    memoryLimitMb := memoryLimitMb
    maxScore := maxScore
    published := input.published
    samples := numberSamples input.samples
    tests := [] }

/-- `Update`, which leaves the slug as it is. -/
def update (input : CreateProblemInput) (p : ProblemRow) : ProblemRow :=
  let (timeLimitMs, memoryLimitMb, maxScore) :=
    clampLimits input.timeLimitMs input.memoryLimitMb input.maxScore
  let updated := { p with
    timeLimitMs := timeLimitMs
    memoryLimitMb := memoryLimitMb
    maxScore := maxScore
    published := input.published
    samples := numberSamples input.samples }
  if p.maxScore ≠ maxScore ∧ p.tests ≠ [] ∧ isEvenDistribution p.points p.maxScore then
    updated.distributeProblemPoints maxScore
  else updated

/-- `SetPublished`. -/
def setPublished (published : Bool) (p : ProblemRow) : ProblemRow := { p with published := published }

/-- The score that a problem gets from an input. -/
def newScore (input : CreateProblemInput) : ℤ :=
  (clampLimits input.timeLimitMs input.memoryLimitMb input.maxScore).2.2

/-- A problem with all that an update writes, apart from the points. -/
def revised (input : CreateProblemInput) (p : ProblemRow) : ProblemRow :=
  { p with
    timeLimitMs := (clampLimits input.timeLimitMs input.memoryLimitMb input.maxScore).1
    memoryLimitMb := (clampLimits input.timeLimitMs input.memoryLimitMb input.maxScore).2.1
    maxScore := newScore input
    published := input.published
    samples := numberSamples input.samples }

/-! ## What a call that succeeds has done -/

section Specs

variable {p p' : ProblemRow} {sha : List UInt8 → String}

lemma update_eq (input : CreateProblemInput) (p : ProblemRow) :
    p.update input =
      if p.maxScore ≠ newScore input ∧ p.tests ≠ [] ∧ isEvenDistribution p.points p.maxScore then
        (p.revised input).distributeProblemPoints (newScore input)
      else p.revised input := rfl

lemma insertTest_eq_ok {row : TestRow} {tests tests' : List TestRow}
    (h : insertTest row tests = .ok tests') : tests' = tests ++ [row] := by
  unfold insertTest at h
  split_ifs at h
  exact (Except.ok.inj h).symm

lemma replaceTests_eq_ok {ids : ℕ → String} {tests : List TestInput}
    (h : p.replaceTests sha ids tests = .ok p') :
    validateTestPoints tests p.maxScore = .ok () ∧ ∃ rows,
      insertTests sha ids (distributePoints tests p.maxScore) 0 [] [] = .ok rows ∧
        p' = { p with tests := rows } := by
  unfold replaceTests at h
  split at h
  · cases h
  rename_i hvalid
  split at h
  · cases h
  rename_i rows hrows
  exact ⟨hvalid, rows, hrows, (Except.ok.inj h).symm⟩

lemma addSingleTest_eq_ok {id : String} {input expected : List UInt8} {points : ℤ}
    (h : p.addSingleTest sha id input expected points = .ok p') :
    0 ≤ points ∧ (0 < points → int32 (p.currentSum + points) ≤ p.maxScore) ∧
      p.findIdentical (sha input) (sha expected) none = none ∧
      p' = if p.shouldAutoDistribute points then
          distributeProblemPoints
            { p with tests := p.tests ++ [testRow sha id p.nextOrdinal input expected 0] } p.maxScore
        else { p with tests := p.tests ++ [testRow sha id p.nextOrdinal input expected points] } := by
  unfold addSingleTest at h
  rw [ite_eq_iff] at h
  obtain ⟨-, h⟩ | ⟨hneg, h⟩ := h
  · cases h
  rw [ite_eq_iff] at h
  obtain ⟨-, h⟩ | ⟨hover, h⟩ := h
  · cases h
  have hroom : 0 < points → int32 (p.currentSum + points) ≤ p.maxScore := by
    intro hpos
    by_contra hgt
    exact hover ⟨by simp [shouldAutoDistribute, hpos], hpos, not_le.mp hgt⟩
  cases hsame : p.findIdentical (sha input) (sha expected) none with
  | some t => simp [hsame] at h
  | none =>
      simp only [hsame] at h
      split at h
      · cases h
      rename_i rows hrows
      obtain rfl := insertTest_eq_ok hrows
      refine ⟨not_lt.mp hneg, hroom, rfl, ?_⟩
      by_cases hauto : p.shouldAutoDistribute points = true
      · simp only [hauto, if_true] at h ⊢
        exact (Except.ok.inj h).symm
      · simp only [hauto] at h ⊢
        exact (Except.ok.inj h).symm

lemma updateSingleTest_eq_ok {ordinal : ℤ} {input expected : Option (List UInt8)}
    {points : Option ℤ} (h : p.updateSingleTest sha ordinal input expected points = .ok p') :
    ∃ current row, p.tests.find? (·.ordinal = ordinal) = some current ∧ (∀ n ∈ points, 0 ≤ n) ∧
      row = testRow sha current.id ordinal (input.getD current.input)
        (expected.getD current.expected) (points.getD current.points) ∧
      p.findIdentical row.inputSha row.expectedSha (some ordinal) = none ∧
      p' = { p with tests := p.tests.map fun t => if t.ordinal = ordinal then row else t } := by
  unfold updateSingleTest at h
  split at h
  · cases h
  rename_i current hcurrent
  split_ifs at h with hneg
  dsimp only at h
  split at h
  · cases h
  rename_i hnone
  refine ⟨current, _, hcurrent, fun n hn => ?_, rfl, hnone, (Except.ok.inj h).symm⟩
  exact not_lt.mp fun hlt => hneg ⟨n, hn, hlt⟩

end Specs

end ProblemRow

/-! ## Edits -/

/-- A call that edits the suite of a problem. -/
inductive TestOp
  | replaceTests (ids : ℕ → String) (tests : List TestInput)
  | addSingleTest (id : String) (input expected : List UInt8) (points : ℤ)
  | updateSingleTest (ordinal : ℤ) (input expected : Option (List UInt8)) (points : Option ℤ)
  | updateTestPoints (pointsMap : List (ℤ × ℤ))
  | deleteSingleTest (scan₁ scan₂ : Sql.Scan) (ordinal : ℤ)

def TestOp.run (sha : List UInt8 → String) : TestOp → ProblemRow → Except Err ProblemRow
  | .replaceTests ids tests, p => p.replaceTests sha ids tests
  | .addSingleTest id input expected points, p => p.addSingleTest sha id input expected points
  | .updateSingleTest ordinal input expected points, p =>
      p.updateSingleTest sha ordinal input expected points
  | .updateTestPoints pointsMap, p => p.updateTestPoints pointsMap
  | .deleteSingleTest scan₁ scan₂ ordinal, p => p.deleteSingleTest scan₁ scan₂ ordinal

/-- A call that fails leaves the problem as it is. -/
def TestOp.apply (sha : List UInt8 → String) (p : ProblemRow) (op : TestOp) : ProblemRow :=
  match op.run sha p with
  | .ok p' => p'
  | .error _ => p

end Problem

end Labyrithm
