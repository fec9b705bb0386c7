import Labyrithm.Judge.Statements

/-!
# The queue: claim, renew, complete

`backend/internal/judge/queue.go`.  A worker claims a queued submission under a claim id of its own,
renews the lease while it judges, and completes the submission only if the row still carries its
claim id, is still running and the lease has not expired.

`now` is PostgreSQL's `NOW()`, the start of the transaction; `clock` is the worker's `time.Now()`.

`Result` is what a completion writes.  `Evaluated` lists the ways `evaluate` (`engine.go`) builds one:
every result a worker completes with is one of these.
-/

namespace Labyrithm

open Sql Tx

/-- `LeaseDuration`, 60 seconds. -/
def leaseDuration : Time := 60000000

/-! ## What a worker is given, and what it reports -/

/-- The submission `ClaimNextSubmission` hands to a worker. -/
structure Claimed where
  id : Uuid
  teamId : Uuid
  userId : Uuid
  problemId : Uuid
  language : String
  code : String
  maxScore : ℤ
  testsTotal : ℤ
  createdAt : Time
  timeLimitMs : ℤ
  memoryLimitMb : ℤ
  attemptStartedAt : Option Time
  state : Status

/-- The result of judging one submission. -/
structure Result where
  submissionId : Uuid
  userId : Uuid
  teamId : Uuid
  problemId : Uuid
  status : Status
  verdict : Option Verdict
  score : ℤ
  maxScore : ℤ
  testsTotal : ℤ
  testsDone : ℤ
  compileError : Option String
  tests : List (ℤ × SubmissionTest)
  createdAt : Time
  attemptStartedAt : Option Time

/-- `newResult`. -/
def newResult (s : Claimed) (status : Status) (verdict : Verdict) : Result where
  submissionId := s.id
  userId := s.userId
  teamId := s.teamId
  problemId := s.problemId
  status := status
  verdict := some verdict
  score := 0
  maxScore := 0
  testsTotal := 0
  testsDone := 0
  compileError := none
  tests := []
  createdAt := s.createdAt
  attemptStartedAt := s.attemptStartedAt

/-- `submissionStatus`. -/
def submissionStatus (verdict : Verdict) (totalScore : ℤ) : Status :=
  if verdict ≠ .AC ∧ totalScore = 0 then .failed else .passed

/-- The results `evaluate` returns. -/
inductive Evaluated (s : Claimed) : Result → Prop
  | loadFailed (msg : String) : Evaluated s
      { newResult s .failed .IE with
        maxScore := s.maxScore, testsTotal := s.testsTotal, compileError := some msg }
  | noTests (msg : String) : Evaluated s
      { newResult s .failed .IE with maxScore := s.maxScore, compileError := some msg }
  | compileError (msg : String) (maxScore testsTotal : ℤ) : Evaluated s
      { newResult s .failed .CE with
        maxScore := maxScore, testsTotal := testsTotal, compileError := some msg }
  | graded (verdict : Verdict) (tests : List (ℤ × SubmissionTest)) (maxScore testsTotal : ℤ)
      (compileError : Option String) : Evaluated s
      { newResult s (submissionStatus verdict (tests.map fun t => t.2.points).sum) verdict with
        score := (tests.map fun t => t.2.points).sum, maxScore := maxScore,
        testsTotal := testsTotal, testsDone := tests.length, compileError := compileError,
        tests := tests }

/-- A result together with the evaluation it comes from. -/
structure Judged where
  claimed : Claimed
  result : Result
  evaluated : Evaluated claimed result

/-- `evaluate` reports a final status. -/
lemma Evaluated.status {s : Claimed} {res : Result} (h : Evaluated s res) :
    res.status = .passed ∨ res.status = .failed := by
  cases h with
  | graded verdict tests =>
      simp only [newResult, submissionStatus]
      split_ifs <;> simp
  | _ => simp [newResult]

/-- `evaluate` reports a verdict. -/
lemma Evaluated.verdict {s : Claimed} {res : Result} (h : Evaluated s res) :
    res.verdict.isSome := by
  cases h <;> simp [newResult]

/-! ## `ClaimNextSubmission` -/

/-- `pending_count` of a team: its queued and running submissions. -/
def Db.pendingCount (db : Db) (teamId : Uuid) : ℕ :=
  (db.submissions.rows.filter fun p => p.2.teamId = teamId ∧ p.2.active).length

/-- The `ORDER BY` of the queue, in microseconds: ten seconds for every other pending submission of
the team, less the time waited. -/
def Db.queuePriority (db : Db) (now : Time) (r : Submission) : ℤ :=
  ((db.pendingCount r.teamId : ℤ) - 1) * 10 * 1000000 - (now - r.createdAt)

/-- A row the queue query returns: queued, and joined with its problem. -/
def Db.claimable (db : Db) (id : Uuid) : Option (Submission × Problem) :=
  match db.submission id with
  | none => none
  | some r =>
      if r.state = .queued then (db.catalog.problems.lookup r.problemId).map fun p => (r, p)
      else none

/-- The queue in the order of the query.  `ties` is how PostgreSQL orders rows of equal priority. -/
def Db.claimQueue (db : Db) (now : Time) (ties : Uuid → ℕ) : List Uuid :=
  let queued := db.submissions.rows.filter fun p => (db.claimable p.1).isSome
  let key := fun p : Uuid × Submission => (db.queuePriority now p.2, ties p.1)
  (queued.insertionSort fun a b => toLex (key a) ≤ toLex (key b)).map Prod.fst

/-- `FOR UPDATE OF s SKIP LOCKED LIMIT 1`: the first row nobody holds whose latest version still
matches. -/
def claimFirst : List Uuid → Handler (Option (Uuid × Submission × Problem))
  | [] => return none
  | id :: ids => do
      let free ← tryAcquire (.submission id)
      if free then
        let row ← select fun db => db.claimable id
        match row with
        | some (r, p) => return some (id, r, p)
        | none => claimFirst ids
      else
        claimFirst ids

/-- `UPDATE submissions SET state = 'running', … WHERE id = $3`. -/
def claimUpdate (id : Uuid) (workerId : ClaimId) (now leaseUntil : Time) : Update where
  applies id' _ := id' = id
  set r := { r with
    state := .running
    claimedAt := some now
    claimedBy := some workerId
    leaseUntil := some leaseUntil
    attempts := r.attempts + 1 }

def claimNextSubmission (workerId : ClaimId) (now clock : Time) (ties : Uuid → ℕ) :
    Handler Claimed := transaction do
  let queue ← select fun db => db.claimQueue now ties
  let next ← claimFirst queue
  match next with
  | none => throw .noQueuedSubmission
  | some (id, s, p) =>
      let leaseUntil := clock + leaseDuration
      let row ← updateRow "update claimed submission" (claimUpdate id workerId now leaseUntil) id
      match row with
      | none => throw (.sql "update claimed submission" .noRows)
      | some (_, r) =>
          finish
          return {
            id := id
            teamId := s.teamId
            userId := s.userId
            problemId := s.problemId
            language := s.language
            code := s.code
            maxScore := s.maxScore
            testsTotal := s.testsTotal
            createdAt := s.createdAt
            timeLimitMs := p.timeLimitMs
            memoryLimitMb := p.memoryLimitMb
            attemptStartedAt := r.claimedAt
            state := .running }

/-! ## `RenewLease` -/

/-- `WHERE id = $2 AND claimed_by = $3 AND state = 'running' AND lease_until > NOW()`, which
`RenewLease` and `completeSubmissionTx` share. -/
def holdsLease (submissionId : Uuid) (workerId : ClaimId) (now : Time) (id : Uuid)
    (r : Submission) : Bool :=
  id = submissionId ∧ r.claimedBy = some workerId ∧ r.state = .running ∧
    r.leaseUntil.any (now < ·)

def renewUpdate (submissionId : Uuid) (workerId : ClaimId) (now clock : Time) : Update where
  applies := holdsLease submissionId workerId now
  set r := { r with leaseUntil := some (clock + leaseDuration) }

def renewLease (submissionId : Uuid) (workerId : ClaimId) (now clock : Time) : Handler Unit := do
  let rows ← autocommit <|
    updateSubmissions "renew lease" (renewUpdate submissionId workerId now clock)
  if rows.isEmpty then
    throw .leaseLost

/-! ## `completeSubmissionTx` -/

def completeUpdate (res : Result) (workerId : ClaimId) (now clock : Time) : Update where
  applies := holdsLease res.submissionId workerId now
  set r := { r with
    state := res.status
    verdict := res.verdict
    score := res.score
    testsDone := res.testsDone
    compileError := res.compileError
    finishedAt := some clock
    maxScore := if res.maxScore > 0 then res.maxScore else r.maxScore
    isRejudge := false
    testsTotal := res.testsTotal }

/-- One `INSERT INTO submission_tests` of the batch. -/
def insertTest (submissionId : Uuid) (t : ℤ × SubmissionTest) : Handler Unit := do
  let taken ← select fun db => (db.test submissionId t.1).isSome
  if taken then
    throw (.sql "insert submission test batch" (.uniqueViolation .submissionTestsPkey))
  else
    put (.putTest submissionId t.1 t.2)

/-- One attempt of `CompleteSubmission`, which makes at most three. -/
def completeSubmissionTx (hash : Hash) (res : Result) (workerId : ClaimId) (now clock : Time) :
    Handler Unit := transaction do
  let rows ← updateSubmissions "update submission state" (completeUpdate res workerId now clock)
  if rows.isEmpty then
    throw .leaseLost
  else
    put (.deleteTests res.submissionId)
    let _ ← forEach (insertTest res.submissionId) res.tests
    let row ← select fun db => (db.submission res.submissionId).map Submission.pair
    match row with
    | none => throw (.sql "" .noRows)
    | some k =>
        recomputeProblemScore hash k
        finish

end Labyrithm
