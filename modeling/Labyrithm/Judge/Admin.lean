import Labyrithm.Judge.Statements

/-!
# The transactions of an administrator

`backend/internal/judge/admin.go`: an administrator accepts or rejects the result of a submission,
sends submissions back to the queue, and ends submissions that hang.  All of them settle the score
of every pair they touch before they commit.

`now` is the server's `time.Now()`.
-/

namespace Labyrithm

open Sql Tx

/-! ## `ReviewSubmission` -/

def reviewUpdate (submissionId : Uuid) (reviewerId : Option Uuid) (status : ReviewStatus)
    (reason : String) (now : Time) : Update where
  applies id _ := id = submissionId
  set r := { r with
    reviewStatus := status
    reviewReason := reason
    reviewedBy := reviewerId
    reviewedAt := some now }

/-- `GetAdminSubmission`, less the display names it joins. -/
def getAdminSubmission (id : Uuid) : Handler (Uuid × Submission) := do
  let row ← select fun db => db.submission id
  match row with
  | none => throw .submissionNotFound
  | some r => return (id, r)

/-- The transaction of `ReviewSubmission`. -/
def reviewSubmissionTx (hash : Hash) (submissionId : Uuid) (reviewerId : Option Uuid)
    (status : ReviewStatus) (reason : String) (now : Time) : Handler Unit := transaction do
  acquire (.submission submissionId)
  let row ← select fun db => db.submission submissionId
  match row with
  | none => throw .submissionNotFound
  | some r =>
      let _ ← updateRow "update submission review"
        (reviewUpdate submissionId reviewerId status reason now) submissionId
      let known ← select fun db => reviewerId.all (· ∈ db.catalog.users)
      if known then
        if r.reviewStatus ≠ status then
          put (.putReview ⟨submissionId, reviewerId, r.reviewStatus, status, reason⟩)
        recomputeProblemScore hash r.pair
        finish
      else
        throw (.sql "update submission review" .foreignKeyViolation)

def reviewSubmission (hash : Hash) (submissionId : Uuid) (reviewerId : Option Uuid)
    (status : ReviewStatus) (reason : String) (now : Time) : Handler (Uuid × Submission) := do
  reviewSubmissionTx hash submissionId reviewerId status reason now
  getAdminSubmission submissionId

/-! ## `RejudgeSubmission`, `RejudgeProblemSubmissions` -/

/-- The `SET` of both rejudges. -/
def requeueForRejudge (r : Submission) : Submission :=
  { r with
    state := .queued
    verdict := none
    score := 0
    testsDone := 0
    compileError := none
    claimedAt := none
    claimedBy := none
    leaseUntil := none
    finishedAt := none
    attempts := 0
    isRejudge := true }

def rejudgeUpdate (id : Uuid) : Update where
  applies id' _ := id' = id
  set := requeueForRejudge

def rejudgeSubmission (hash : Hash) (id : Uuid) : Handler Unit := transaction do
  let rows ← updateSubmissions "" (rejudgeUpdate id)
  let count ← reconcileSubmissionChanges hash rows
  if count = 0 then
    throw .submissionNotFound
  else
    finish

def rejudgeProblemUpdate (problemId : Uuid) : Update where
  applies _ r := r.problemId = problemId ∧ !r.active
  set := requeueForRejudge

def rejudgeProblemSubmissions (hash : Hash) (problemId : Uuid) : Handler ℕ := transaction do
  let rows ← updateSubmissions "rejudge problem submissions" (rejudgeProblemUpdate problemId)
  let count ← reconcileSubmissionChanges hash rows
  finish
  return count

/-! ## `CancelSubmission`, `UnstickTeamSubmissions` -/

/-- The submission is over without a result, as the judge's own error: the `SET` of a cancellation,
of an unstick, and of the reaper. -/
def abandon (now : Time) (r : Submission) : Submission :=
  { r with
    state := .failed
    verdict := some .IE
    finishedAt := some now
    score := 0
    testsDone := 0
    isRejudge := false
    claimedAt := none
    claimedBy := none
    leaseUntil := none }

def cancelUpdate (id : Uuid) (now : Time) : Update where
  applies id' r := id' = id ∧ r.active
  set := abandon now

def cancelSubmission (hash : Hash) (id : Uuid) (now : Time) : Handler Unit := transaction do
  let rows ← updateSubmissions "" (cancelUpdate id now)
  let count ← reconcileSubmissionChanges hash rows
  if count = 0 then
    throw .submissionNotActive
  else
    finish

def unstickUpdate (teamId : Uuid) (now : Time) : Update where
  applies _ r := r.teamId = teamId ∧ r.active
  set := abandon now

def unstickTeamSubmissions (hash : Hash) (teamId : Uuid) (now : Time) : Handler Unit :=
  transaction do
    let rows ← updateSubmissions "" (unstickUpdate teamId now)
    let _ ← reconcileSubmissionChanges hash rows
    finish

end Labyrithm
