import Mathlib.Algebra.Order.Ring.Int
import Labyrithm.Sql.Rules
import Labyrithm.Sql.Table

/-!
# The judge's tables

The rows the judge reads and writes (`backend/internal/db/migrations/0003_judge.sql`, with the
columns later migrations add), the store they form, and the row writes a transaction makes.  A column
no modelled function reads is left out.

* `Submission` — one row of `submissions`; its id is the key of the table.
* `Db` — the tables, with the catalogue (teams, users, problems and their tests) apart: the judge only
  reads it, and administrators change it at any time.
* `Write` — the row writes, and `Store Db Write`, what each of them does.
* `Lock` — row locks, the wait of the partial unique index `idx_submissions_active_team_problem`,
  and transaction-scoped advisory locks.

Times are microseconds, as `timestamptz` stores them; a UUID is its 128-bit number, which is also how
PostgreSQL orders it.
-/

namespace Labyrithm

open Sql

/-- A UUID, compared as PostgreSQL compares it: as one big-endian number. -/
abbrev Uuid := ℕ

/-- Microseconds since the epoch. -/
abbrev Time := ℤ

/-- The claim id a worker writes into `claimed_by`. -/
abbrev ClaimId := String

/-- A (team, problem) pair. -/
abbrev Pair := Uuid × Uuid

/-- `submissions.state`. -/
inductive Status
  | queued
  | running
  | passed
  | failed
  deriving DecidableEq, Repr

/-- `submissions.review_status`. -/
inductive ReviewStatus
  | accepted
  | rejected
  deriving DecidableEq, Repr

/-- The verdict labels of `verdictLabel` and of the grader. -/
inductive Verdict
  | AC
  | WA
  | TLE
  | MLE
  | RTE
  | CE
  | OLE
  | IE
  deriving DecidableEq, Repr

/-- A row of `submissions`, without its id. -/
structure Submission where
  teamId : Uuid
  userId : Uuid
  problemId : Uuid
  language : String
  code : String
  state : Status
  verdict : Option Verdict
  score : ℤ
  maxScore : ℤ
  testsTotal : ℤ
  testsDone : ℤ
  compileError : Option String
  createdAt : Time
  claimedAt : Option Time
  claimedBy : Option ClaimId
  leaseUntil : Option Time
  attempts : ℕ
  finishedAt : Option Time
  isRejudge : Bool
  reviewStatus : ReviewStatus
  reviewReason : String
  reviewedBy : Option Uuid
  reviewedAt : Option Time
  deriving DecidableEq, Repr

/-- A row of `submission_tests`, without its key (submission id, ordinal). -/
structure SubmissionTest where
  verdict : Verdict
  timeMs : ℤ
  memoryKb : ℤ
  points : ℤ
  maxPoints : ℤ
  deriving DecidableEq, Repr

/-- A row of `submission_reviews`. -/
structure SubmissionReview where
  submissionId : Uuid
  reviewerId : Option Uuid
  fromStatus : ReviewStatus
  toStatus : ReviewStatus
  reason : String
  deriving DecidableEq, Repr

/-- A row of `problem_scores`, without its key (team, problem). -/
structure ProblemScore where
  userId : Option Uuid
  bestScore : ℤ
  bestSubmissionId : Option Uuid
  updatedAt : Time
  deriving DecidableEq, Repr

/-- A row of `teams`, without its id. -/
structure Team where
  name : String
  deriving DecidableEq, Repr

/-- A row of `problems`, without its id. -/
structure Problem where
  timeLimitMs : ℤ
  memoryLimitMb : ℤ
  maxScore : ℤ
  published : Bool
  deriving DecidableEq, Repr

/-- The tables that the judge only reads.  Of `problem_tests` it reads the points, of `users` which
of them exist. -/
structure Catalog where
  teams : Table Uuid Team
  users : List Uuid
  problems : Table Uuid Problem
  problemTests : Table (Uuid × ℤ) ℤ

/-- The committed store. -/
structure Db where
  catalog : Catalog
  submissions : Table Uuid Submission
  submissionTests : Table (Uuid × ℤ) SubmissionTest
  submissionReviews : List SubmissionReview
  problemScores : Table Pair ProblemScore

namespace Submission

/-- The (team, problem) pair the submission counts for. -/
def pair (r : Submission) : Pair := (r.teamId, r.problemId)

/-- `state IN ('queued', 'running')`. -/
def active (r : Submission) : Bool := r.state = .queued ∨ r.state = .running

/-- The key under which the partial unique index
`(team_id, problem_id) WHERE state IN ('queued', 'running') AND NOT is_rejudge` holds the row. -/
def indexEntry (r : Submission) : Option Pair :=
  if r.active ∧ r.isRejudge = false then some r.pair else none

/-- The row counts towards the score of its pair:
`state = 'passed' AND review_status = 'accepted' AND finished_at IS NOT NULL`. -/
def scoring (r : Submission) : Bool :=
  r.state = .passed ∧ r.reviewStatus = .accepted ∧ r.finishedAt.isSome

end Submission

namespace Db

def submission (db : Db) (id : Uuid) : Option Submission := db.submissions.lookup id

def test (db : Db) (id : Uuid) (ordinal : ℤ) : Option SubmissionTest :=
  db.submissionTests.lookup (id, ordinal)

def problemScore (db : Db) (k : Pair) : Option ProblemScore := db.problemScores.lookup k

/-- Another row than `id` stands in the partial unique index where `r` would. -/
def indexConflict (db : Db) (id : Uuid) (r : Submission) : Bool :=
  r.indexEntry.isSome && db.submissions.rows.any fun p => p.1 ≠ id ∧ p.2.indexEntry = r.indexEntry

end Db

/-- The row writes of the judge's transactions. -/
inductive Write
  | putSubmission (id : Uuid) (r : Submission)
  | deleteTests (submissionId : Uuid)
  | putTest (submissionId : Uuid) (ordinal : ℤ) (t : SubmissionTest)
  | putReview (r : SubmissionReview)
  | deleteScore (k : Pair)
  | putScore (k : Pair) (s : ProblemScore)

/-- What a row write does to the store. -/
def Write.apply : Write → Db → Db
  | putSubmission id r, db => { db with submissions := db.submissions.insert id r }
  | deleteTests id, db =>
      { db with submissionTests := db.submissionTests.eraseWhere fun k => k.1 = id }
  | putTest id ordinal t, db =>
      { db with submissionTests := db.submissionTests.insert (id, ordinal) t }
  | putReview r, db => { db with submissionReviews := r :: db.submissionReviews }
  | deleteScore k, db => { db with problemScores := db.problemScores.erase k }
  | putScore k s, db => { db with problemScores := db.problemScores.insert k s }

instance : Store Db Write := ⟨Write.apply⟩

/-- What a session can hold to the end of its transaction. -/
inductive Lock
  | submission (id : Uuid)
  | activeEntry (k : Pair)
  | advisory (key : ℤ)
  deriving DecidableEq, Repr

/-! ## Each table is changed row by row -/

namespace Write

/-- The effect of a write on the submission `id`. -/
def onSubmission (id : Uuid) : Write → Option Submission → Option Submission
  | putSubmission id' r, o => if id' = id then some r else o
  | _, o => o

/-- The effect of a write on one test row of the submission `id`. -/
def onTest (id : Uuid) (ordinal : ℤ) : Write → Option SubmissionTest → Option SubmissionTest
  | deleteTests id', o => if id' = id then none else o
  | putTest id' ordinal' t, o => if (id', ordinal') = (id, ordinal) then some t else o
  | _, o => o

/-- The effect of a write on the score of the pair `k`. -/
def onScore (k : Pair) : Write → Option ProblemScore → Option ProblemScore
  | deleteScore k', o => if k' = k then none else o
  | putScore k' s, o => if k' = k then some s else o
  | _, o => o

end Write

namespace Db

@[simp] lemma submission_apply (w : Write) (db : Db) (id : Uuid) :
    (Store.apply w db).submission id = w.onSubmission id (db.submission id) := by
  cases w <;> simp [Store.apply, Write.apply, submission, Write.onSubmission, Table.lookup_insert_eq]

@[simp] lemma test_apply (w : Write) (db : Db) (id : Uuid) (ordinal : ℤ) :
    (Store.apply w db).test id ordinal = w.onTest id ordinal (db.test id ordinal) := by
  cases w <;> simp [Store.apply, Write.apply, test, Write.onTest, Table.lookup_insert_eq, eq_comm]

@[simp] lemma problemScore_apply (w : Write) (db : Db) (k : Pair) :
    (Store.apply w db).problemScore k = w.onScore k (db.problemScore k) := by
  cases w <;> simp [Store.apply, Write.apply, problemScore, Write.onScore, Table.lookup_insert_eq,
    Table.lookup_erase_eq]

@[simp] lemma catalog_apply (w : Write) (db : Db) : (Store.apply w db).catalog = db.catalog := by
  cases w <;> rfl

end Db

end Labyrithm
