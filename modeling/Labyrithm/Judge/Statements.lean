import Labyrithm.Judge.Schema
import Labyrithm.Sql.Order
import Mathlib.Data.List.Dedup
import Mathlib.Data.List.ReduceOption
import Mathlib.Data.List.Sort
import Mathlib.Data.Prod.Lex

/-!
# The statements the judge's transactions are made of

Every transaction of `backend/internal/judge` that moves a submission is one or two `UPDATE
submissions … WHERE …` statements followed by bookkeeping.  An `Update` is the `WHERE` and the `SET`
of such a statement; `updateSubmissions` is what PostgreSQL does with it at READ COMMITTED:

* the rows to visit are those the statement's snapshot shows as matching;
* each of them is locked in turn, which may wait for another transaction, and its *latest* version is
  matched again before it is changed;
* each new version is checked against the partial unique index at once (`storeRow`), after waiting
  for whoever else is entering the same key.
-/

namespace Labyrithm

open Sql Tx

/-- The constraints a statement of the judge can break. -/
inductive Constraint
  | submissionsPkey
  | activeTeamProblem
  | submissionTestsPkey
  | problemScoresPkey
  deriving DecidableEq, Repr

/-- The SQL errors a statement of the judge can meet. -/
inductive SqlError
  | uniqueViolation (c : Constraint)
  | foreignKeyViolation
  | noRows
  deriving DecidableEq, Repr

/-- The errors of the package `judge`; `sql` is an SQL error wrapped with the text that says where it
came from. -/
inductive JudgeError
  | activeSubmissionExists
  | problemNotFound
  | noQueuedSubmission
  | leaseLost
  | noTestCases
  | submissionNotFound
  | submissionNotActive
  | submissionRateLimited
  | sql (context : String) (e : SqlError)
  deriving DecidableEq, Repr

/-- The texts of the errors that the package declares. -/
def JudgeError.message : JudgeError → String
  | activeSubmissionExists => "active submission already in progress for this problem"
  | problemNotFound => "problem not found"
  | noQueuedSubmission => "no queued submission available"
  | leaseLost => "lease no longer held by this worker"
  | noTestCases => "problem has no test cases configured"
  | submissionNotFound => "submission not found"
  | submissionNotActive => "submission is not queued or running"
  | submissionRateLimited =>
      "submission cooldown active, please wait a few seconds before submitting again"
  | sql context _ => context

/-- A handler of the judge's repository. -/
abbrev Handler (α : Type) := ExceptT JudgeError (Tx Db Write Lock) α

/-- The `WHERE` and the `SET` of an `UPDATE submissions`. -/
structure Update where
  applies : Uuid → Submission → Bool
  set : Submission → Submission

/-- Store a new version of the row `id`, which so far was `old`.  A row that enters the partial
unique index waits for whoever else is entering under the same key; the check itself sees the
committed rows and the transaction's own. -/
def storeRow (context : String) (id : Uuid) (old : Option Submission) (new : Submission) :
    Handler Unit := do
  match new.indexEntry with
  | none => put (.putSubmission id new)
  | some k =>
      if old.bind Submission.indexEntry ≠ some k then acquire (.activeEntry k)
      let conflict ← select fun db => db.indexConflict id new
      if conflict then
        throw (.sql context (.uniqueViolation .activeTeamProblem))
      else
        put (.putSubmission id new)

/-- Lock one row and update its latest version, if that still matches. -/
def updateRow (context : String) (u : Update) (id : Uuid) :
    Handler (Option (Uuid × Submission)) := do
  acquire (.submission id)
  let row ← select fun db => db.submission id
  match row with
  | none => return none
  | some r =>
      if u.applies id r then
        storeRow context id (some r) (u.set r)
        return some (id, u.set r)
      else
        return none

/-- `UPDATE submissions SET … WHERE … RETURNING *`: the new versions of the rows it changed. -/
def updateSubmissions (context : String) (u : Update) : Handler (List (Uuid × Submission)) := do
  let ids ← select fun db =>
    (db.submissions.rows.filter fun p => u.applies p.1 p.2).map Prod.fst
  let rows ← forEach (updateRow context u) ids
  return rows.reduceOption

/-! ## The best submission of a pair -/

/-- `ORDER BY s.score DESC, s.created_at ASC, s.id ASC`. -/
def scoreOrder (a b : Uuid × Submission) : Bool :=
  b.2.score < a.2.score ∨ (a.2.score = b.2.score ∧
    (a.2.createdAt < b.2.createdAt ∨ (a.2.createdAt = b.2.createdAt ∧ a.1 ≤ b.1)))

/-- The submission a `problem_scores` row of the pair `k` records. -/
def Db.bestSubmission (db : Db) (k : Pair) : Option (Uuid × Submission) :=
  first scoreOrder (db.submissions.rows.filter fun p => p.2.pair = k ∧ p.2.scoring)

/-- The row `recomputeProblemScore` inserts for its best submission. -/
def scoreRow (best : Uuid × Submission) : ProblemScore where
  userId := some best.2.userId
  bestScore := best.2.score
  bestSubmissionId := some best.1
  updatedAt := best.2.createdAt

/-! ## Bookkeeping -/

/-- The advisory lock key of a pair: `hashtextextended(team || '/' || problem, 0)`. -/
abbrev Hash := Pair → ℤ

/-- `INSERT INTO problem_scores … SELECT … ORDER BY … LIMIT 1`. -/
def insertBestScore (k : Pair) : Handler Unit := do
  let row ← select fun db => (db.bestSubmission k, (db.problemScore k).isSome)
  match row with
  | (none, _) => return ()
  | (some _, true) =>
      throw (.sql "recompute problem score" (.uniqueViolation .problemScoresPkey))
  | (some best, false) => put (.putScore k (scoreRow best))

/-- `recomputeProblemScore`. -/
def recomputeProblemScore (hash : Hash) (k : Pair) : Handler Unit := do
  -- A separate statement after the lock sees the previous scorer's commit.
  acquire (.advisory (hash k))
  let present ← select fun db => (db.problemScore k).isSome
  if present then put (.deleteScore k)
  insertBestScore k

/-- `slices.SortFunc(keys, strings.Compare)` on the keys `team/problem` of the changed rows, each
once: UUIDs have one length, so this is the order of the pairs. -/
def sortedPairs (rows : List (Uuid × Submission)) : List Pair :=
  (rows.map fun p => p.2.pair).dedup.insertionSort fun a b => toLex a ≤ toLex b

/-- `reconcileSubmissionChanges`: clear the details of the changed submissions and recompute the
score of every pair they belong to. -/
def reconcileSubmissionChanges (hash : Hash) (rows : List (Uuid × Submission)) : Handler ℕ := do
  if rows.isEmpty then return 0
  let _ ← forEach (fun p : Uuid × Submission => put (.deleteTests p.1)) rows
  let _ ← forEach (recomputeProblemScore hash) (sortedPairs rows)
  return rows.length

end Labyrithm
