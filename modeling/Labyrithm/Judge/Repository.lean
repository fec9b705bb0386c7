import Labyrithm.Judge.Statements

/-!
# Creating a submission

`HasActiveSubmission` and `CreateSubmission` of `backend/internal/judge/repository.go`.  The checks
are statements of their own, each on its own snapshot, so only the `INSERT` decides: what it breaks
of the unique indexes is reported as an active submission.

`now` is PostgreSQL's `NOW()` of the cooldown query, `clock` the server's `time.Now()`.
-/

namespace Labyrithm

open Sql Tx

/-- The fields a request sets before `CreateSubmission`. -/
structure NewSubmission where
  id : Uuid
  teamId : Uuid
  userId : Uuid
  problemId : Uuid
  language : String
  code : String

/-- What `CreateSubmission` returns: the row it inserted and the place in the queue. -/
structure Created where
  id : Uuid
  row : Submission
  queuePosition : ℕ

def hasActiveSubmission (teamId problemId : Uuid) : Handler Bool :=
  select fun db => db.submissions.rows.any fun p =>
    p.2.teamId = teamId ∧ p.2.problemId = problemId ∧ p.2.active ∧ !p.2.isRejudge

/-- `created_at > NOW() - INTERVAL '3 seconds'`, counted over the team. -/
def Db.recentCount (db : Db) (teamId : Uuid) (now : Time) : ℕ :=
  (db.submissions.rows.filter fun p => p.2.teamId = teamId ∧ now - 3000000 < p.2.createdAt).length

/-- What the metadata query reads of a problem. -/
structure ProblemMetadata where
  declaredMax : ℤ
  pointsTotal : ℤ
  testsTotal : ℕ

/-- The metadata of a published problem. -/
def Db.problemMetadata (db : Db) (problemId : Uuid) : Option ProblemMetadata :=
  match db.catalog.problems.lookup problemId with
  | none => none
  | some p =>
      if p.published then
        let tests := db.catalog.problemTests.rows.filter fun t => t.1.1 = problemId
        some ⟨p.maxScore, (tests.map Prod.snd).sum, tests.length⟩
      else none

/-- `maxScore`: the points of the tests, or what the problem declares when they have none. -/
def ProblemMetadata.maxScore (m : ProblemMetadata) : ℤ :=
  if m.pointsTotal ≤ 0 then m.declaredMax else m.pointsTotal

/-- The row `CreateSubmission` inserts, with the defaults of the columns it does not name. -/
def newRow (s : NewSubmission) (maxScore testsTotal : ℤ) (createdAt : Time) : Submission where
  teamId := s.teamId
  userId := s.userId
  problemId := s.problemId
  language := s.language
  code := s.code
  state := .queued
  verdict := none
  score := 0
  maxScore := maxScore
  testsTotal := testsTotal
  testsDone := 0
  compileError := none
  createdAt := createdAt
  claimedAt := none
  claimedBy := none
  leaseUntil := none
  attempts := 0
  finishedAt := none
  isRejudge := false
  reviewStatus := .accepted
  reviewReason := ""
  reviewedBy := none
  reviewedAt := none

/-- The foreign keys of a submission. -/
def Catalog.references (cat : Catalog) (r : Submission) : Bool :=
  (cat.teams.lookup r.teamId).isSome ∧ r.userId ∈ cat.users ∧
    (cat.problems.lookup r.problemId).isSome

/-- The `INSERT`, a transaction of its own.  The lock is the wait for whoever is inserting the same
id. -/
def insertSubmission (id : Uuid) (r : Submission) : Handler Unit := autocommit do
  acquire (.submission id)
  let taken ← select fun db => (db.submission id).isSome
  if taken then
    throw (.sql "insert submission" (.uniqueViolation .submissionsPkey))
  else
    storeRow "insert submission" id none r
    let refs ← select fun db => db.catalog.references r
    if refs then
      return ()
    else
      throw (.sql "insert submission" .foreignKeyViolation)

/-- SQLSTATE 23505 of the `INSERT`, whichever unique index it comes from. -/
def JudgeError.ofInsert : JudgeError → JudgeError
  | sql _ (.uniqueViolation _) => activeSubmissionExists
  | e => e

def createSubmission (s : NewSubmission) (now clock : Time) : Handler Created := do
  let recentCount ← select fun db => db.recentCount s.teamId now
  if recentCount > 0 then
    throw .submissionRateLimited
  else
    let active ← hasActiveSubmission s.teamId s.problemId
    if active then
      throw .activeSubmissionExists
    else
      let metadata ← select fun db => db.problemMetadata s.problemId
      match metadata with
      | none => throw .problemNotFound
      | some m =>
          if m.testsTotal = 0 then
            throw .noTestCases
          else
            let row := newRow s m.maxScore m.testsTotal clock
            rethrow JudgeError.ofInsert (insertSubmission s.id row)
            let pos ← select fun db => (db.submissions.rows.filter fun p =>
              p.2.state = .queued ∧ p.2.createdAt ≤ clock).length
            return { id := s.id, row := row, queuePosition := pos }

end Labyrithm
