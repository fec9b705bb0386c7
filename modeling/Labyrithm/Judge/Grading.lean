import Labyrithm.Judge.Outputs
import Labyrithm.Judge.Queue
import Labyrithm.Problem.Points
import Labyrithm.TestCache.Sections

/-!
# Grading a submission

`evaluate` of `backend/internal/judge/engine.go`, with `resolveTestPoints` before it and the loop over the
cases of `RunBatch` in `backend/internal/runner/runner.go` within.  The runner hands each result to
`OnCase` with its output, and returns them all at the end without.

What a run of a case brings is whatever it brings (`Execute`): a result, or an error that ends the batch.
The times at which progress is due are left open (`recent`).
-/

namespace Labyrithm

namespace Grading

open Problem (share shares)
open TestCache (TestCase)

/-! ## The points of a suite -/

/-- `resolveTestPoints`: the tests as it leaves them, and what they are worth. -/
def resolveTestPoints (tests : List TestCase) (declaredMax : ℤ) : List TestCase × ℤ :=
  let hasCustomPoints := tests.any fun t => t.points > 0
  let total := (tests.map TestCase.points).sum
  let maxScore := if total = 0 then (if declaredMax = 0 then 100 else declaredMax) else total
  if !hasCustomPoints && tests.length > 0 then
    (tests.zipIdx.map fun (t, i) => { t with points := share maxScore tests.length i }, maxScore)
  else (tests, maxScore)

/-! ## The runner -/

/-- `BatchCase`. -/
structure BatchCase where
  ordinal : ℤ
  stdin : List UInt8

/-- What running one case brings. -/
structure CaseRun where
  stdout : List UInt8
  stderr : List UInt8
  exitCode : ℤ
  timeMs : ℤ
  memoryKB : ℤ
  verdict : Verdict

/-- `BatchCaseResult`. -/
structure BatchCaseResult extends CaseRun where
  ordinal : ℤ

/-- The errors of the runner. -/
inductive RunErr
  | sandboxUnavailable
  | other (text : String)
  deriving DecidableEq, Repr

/-- What every case brings, or the error that ends the batch there. -/
abbrev Execute := BatchCase → Except RunErr CaseRun

/-- `res.Stdout = ""` and `res.Stderr = ""`. -/
def BatchCaseResult.blanked (res : BatchCaseResult) : BatchCaseResult :=
  { res with stdout := [], stderr := [] }

/-- The loop of `RunBatch`: the results and the error it returns, and what `OnCase` has made of them. -/
def runCases {σ : Type} (execute : Execute) (onCase : σ → BatchCaseResult → σ) :
    List BatchCase → List BatchCaseResult → σ → List BatchCaseResult × Option RunErr × σ
  | [], results, s => (results, none, s)
  | c :: cases, results, s =>
      match execute c with
      | .error err => (results, some err, s)
      | .ok run =>
          let res : BatchCaseResult := { run with ordinal := c.ordinal }
          runCases execute onCase cases (results ++ [res.blanked]) (onCase s res)

/-- How a batch goes: it fails before its first case, the program does not compile, or the cases are
run. -/
inductive Batch
  | failed (err : RunErr)
  | compileError (text : String) (nonempty : text ≠ "")
  | run (execute : Execute)

/-- `RunBatch`: the compile error, the results, the error, and what `OnCase` has made of the results. -/
def Batch.runBatch {σ : Type} (cases : List BatchCase) (onCase : σ → BatchCaseResult → σ) (s : σ) :
    Batch → String × List BatchCaseResult × Option RunErr × σ
  | failed err => ("", [], some err, s)
  | compileError text _ => (text, [], none, s)
  | run execute => ("", runCases execute onCase cases [] s)

/-! ## `evaluate` -/

/-- `verdictLabel`: the labels are those of the runner, and no other verdict comes from it but `WA`. -/
def verdictLabel : Verdict → Verdict
  | .WA => .RTE
  | verdict => verdict

/-- `gradedCase`. -/
structure GradedCase where
  verdict : Verdict
  points : ℤ
  deriving DecidableEq, Repr

/-- `testMap`. -/
def testMap (tests : List TestCase) : Go.Map ℤ TestCase :=
  tests.foldl (fun m t => m.insert t.ordinal t) ∅

/-- `grade`. -/
def grade (tests : List TestCase) (cr : BatchCaseResult) : GradedCase :=
  if cr.verdict ≠ .AC then ⟨verdictLabel cr.verdict, 0⟩
  else
    match (testMap tests).get? cr.ordinal with
    | some t => if Outputs.outputsEqual cr.stdout t.expected then ⟨.AC, t.points⟩ else ⟨.WA, 0⟩
    | none => ⟨.WA, 0⟩

/-- What `OnCase` keeps, and the progress that it has broadcast. -/
structure Progress where
  graded : Go.Map ℤ GradedCase := ∅
  completedCount : ℕ := 0
  currentScore : ℤ := 0
  broadcasts : List Result := []

/-- A broadcast of progress. -/
def runningResult (s : Claimed) (score maxScore : ℤ) (testsTotal testsDone : ℕ) : Result where
  submissionId := s.id
  userId := s.userId
  teamId := s.teamId
  problemId := s.problemId
  status := .running
  verdict := none
  score := score
  maxScore := maxScore
  testsTotal := testsTotal
  testsDone := testsDone
  compileError := none
  tests := []
  createdAt := 0
  attemptStartedAt := s.attemptStartedAt

/-- `OnCase`, where `recent` are the cases after which the last broadcast is less than 250 ms ago. -/
def onCase (s : Claimed) (tests : List TestCase) (maxScore : ℤ) (recent : ℕ → Bool) (p : Progress)
    (cr : BatchCaseResult) : Progress :=
  let g := grade tests cr
  let count := p.completedCount + 1
  let score := p.currentScore + g.points
  { graded := p.graded.insert cr.ordinal g
    completedCount := count
    currentScore := score
    broadcasts :=
      if count ≠ tests.length ∧ recent count then p.broadcasts
      else p.broadcasts ++ [runningResult s score maxScore tests.length count] }

/-- The verdict and the rows so far. -/
structure Tally where
  overallVerdict : Verdict := .AC
  runCases : Go.Map ℤ Bool := ∅
  submissionTests : List (ℤ × SubmissionTest) := []

/-- One pass of the loop over the results. -/
def tally (tests : List TestCase) (graded : Go.Map ℤ GradedCase) (acc : Tally) (cr : BatchCaseResult) :
    Tally :=
  let g := (graded.get? cr.ordinal).getD (grade tests cr)
  { overallVerdict :=
      if g.verdict ≠ .AC ∧ acc.overallVerdict = .AC then g.verdict else acc.overallVerdict
    runCases := acc.runCases.insert cr.ordinal true
    submissionTests := acc.submissionTests ++
      [(cr.ordinal, ⟨g.verdict, cr.timeMs, cr.memoryKB, g.points,
        (((testMap tests).get? cr.ordinal).map TestCase.points).getD 0⟩)] }

/-- The message of a runner error. -/
def RunErr.message : RunErr → String
  | sandboxUnavailable =>
      "Sandbox environment is unavailable on the judge host. Please contact an organizer."
  | other _ => "Judge execution failed. Please contact an organizer."

/-- After a runner error the tests without a result fail. -/
def Tally.fail (tests : List TestCase) (acc : Tally) : Tally :=
  { acc with
    overallVerdict := .IE
    submissionTests := acc.submissionTests ++
      (tests.filter fun t => !((acc.runCases.get? t.ordinal).getD false)).map
        fun t => (t.ordinal, ⟨.IE, 0, 0, 0, t.points⟩) }

/-- The first bytes of a text, without a character that does not fit. -/
def firstBytes : ℕ → List Char → List Char
  | _, [] => []
  | n, ch :: s => if ch.utf8Size ≤ n then ch :: firstBytes (n - ch.utf8Size) s else []

/-- `sanitizeCompileError`. -/
def sanitizeCompileError (msg : String) : String :=
  if Go.len msg.toList ≤ 4096 then msg
  else String.ofList (firstBytes 4096 msg.toList) ++ "\n... [compiler output truncated]"

/-- The errors of the test cache. -/
inductive LoadErr
  | noTestCases
  | other (text : String)
  deriving DecidableEq, Repr

/-- What the contestant is told of them. -/
def LoadErr.message : LoadErr → String
  | noTestCases => "This problem has no test cases configured. " ++
      "Your submission was not graded -- please notify an organizer."
  | other _ => "Could not load this problem's test cases. " ++
      "This is a judge-side fault, not a problem with your code -- please notify an organizer."

/-- The result of a submission that has been run, or could not be. -/
def Tally.result (s : Claimed) (tests : List TestCase) (maxScore : ℤ) (compileError : Option String)
    (acc : Tally) : Result :=
  let totalScore := (acc.submissionTests.map fun row => row.2.points).sum
  { newResult s (submissionStatus acc.overallVerdict totalScore) acc.overallVerdict with
    score := totalScore
    maxScore := maxScore
    testsTotal := tests.length
    testsDone := acc.submissionTests.length
    compileError := compileError
    tests := acc.submissionTests }

/-- The part of `evaluate` that follows the tests, with the points that they have then: the result, and the
progress that has been broadcast. -/
def evaluateTests (s : Claimed) (tests : List TestCase) (maxScore : ℤ) (recent : ℕ → Bool) :
    Option Batch → Result × List Result
  | none =>
      (Tally.result s tests maxScore (some "Execution runner is unattached") { overallVerdict := .IE }, [])
  | some batch =>
      let batchCases := tests.map fun t => BatchCase.mk t.ordinal t.input
      let (compileError, results, runErr, progress) :=
        batch.runBatch batchCases (onCase s tests maxScore recent) {}
      if compileError ≠ "" then
        ({ newResult s .failed .CE with
            maxScore := maxScore
            testsTotal := tests.length
            compileError := some (sanitizeCompileError compileError) }, progress.broadcasts)
      else
        let acc := results.foldl (tally tests progress.graded) {}
        match runErr with
        | none => (acc.result s tests maxScore none, progress.broadcasts)
        | some err => ((acc.fail tests).result s tests maxScore (some err.message), progress.broadcasts)

/-- `evaluate`, with what the test cache returns and the runner, where one is attached. -/
def evaluate (s : Claimed) (loaded : Except LoadErr (List TestCase)) (runner : Option Batch)
    (recent : ℕ → Bool) : Result × List Result :=
  match loaded with
  | .error err =>
      ({ newResult s .failed .IE with
          maxScore := s.maxScore
          testsTotal := s.testsTotal
          compileError := some err.message }, [])
  | .ok tests =>
      if tests = [] then
        ({ newResult s .failed .IE with
            maxScore := s.maxScore
            compileError := some "No test cases configured for this problem" }, [])
      else
        let (tests, maxScore) := resolveTestPoints tests s.maxScore
        evaluateTests s tests maxScore recent runner

end Grading

end Labyrithm
