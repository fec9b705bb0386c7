import Labyrithm.Judge.Admin

/-!
# The lease reaper

`backend/internal/judge/reaper.go`.  A running submission whose lease has expired goes back to the
queue; on its third attempt it fails instead, so that a submission that kills its workers does not
circulate for ever.  Both statements are one transaction and see one `NOW()`.
-/

namespace Labyrithm

open Sql Tx

/-- `state = 'running' AND lease_until < NOW()`. -/
def expired (now : Time) (r : Submission) : Bool :=
  r.state = .running ∧ r.leaseUntil.any (· < now)

def requeueUpdate (now : Time) : Update where
  applies _ r := expired now r ∧ r.attempts < 3
  set r := { r with
    state := .queued
    claimedAt := none
    claimedBy := none
    leaseUntil := none }

def failUpdate (now : Time) : Update where
  applies _ r := expired now r ∧ 3 ≤ r.attempts
  set := abandon now

def reclaimExpiredLeases (hash : Hash) (now : Time) : Handler ℕ := transaction do
  let requeued ← updateSubmissions "requeue expired submissions" (requeueUpdate now)
  let failed ← updateSubmissions "fail expired submissions" (failUpdate now)
  let failedCount ← reconcileSubmissionChanges hash failed
  finish
  return requeued.length + failedCount

end Labyrithm
