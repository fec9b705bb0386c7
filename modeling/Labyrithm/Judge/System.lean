import Labyrithm.Judge.Queue
import Labyrithm.Judge.Reaper
import Labyrithm.Judge.Repository

/-!
# The judge as an interleaved system

`Op` names the requests that reach the judge's repository and `Op.program` the handler of each.
`Judge.Reachable` are the systems that arise when any number of them run interleaved, from an empty
`submissions` table, while administrators edit the catalogue at any time.

`Op.Step` lists what the `UPDATE` statements of each operation do to one row, and `RowStep` is the
change of one row over a whole transaction: none, one such step, or the insertion of
`CreateSubmission`.
-/

namespace Labyrithm

open Sql Tx

/-- The requests, with the clocks and identifiers their handlers read. -/
inductive Op
  | create (s : NewSubmission) (now clock : Time)
  | claim (workerId : ClaimId) (now clock : Time) (ties : Uuid → ℕ)
  | renew (submissionId : Uuid) (workerId : ClaimId) (now clock : Time)
  | complete (j : Judged) (workerId : ClaimId) (now clock : Time)
  | reap (now : Time)
  | review (submissionId : Uuid) (reviewerId : Option Uuid) (status : ReviewStatus)
      (reason : String) (now : Time)
  | rejudge (id : Uuid)
  | rejudgeProblem (problemId : Uuid)
  | cancel (id : Uuid) (now : Time)
  | unstick (teamId : Uuid) (now : Time)

/-- What the handlers return. -/
inductive Answer
  | created (c : Created)
  | claimed (s : Claimed)
  | item (id : Uuid) (r : Submission)
  | count (n : ℕ)
  | done

abbrev Reply := Except JudgeError Answer

/-- The handler of a request. -/
def Op.handler (hash : Hash) : Op → Handler Answer
  | create s now clock => do return .created (← createSubmission s now clock)
  | claim workerId now clock ties => do
      return .claimed (← claimNextSubmission workerId now clock ties)
  | renew submissionId workerId now clock => do
      renewLease submissionId workerId now clock
      return .done
  | complete j workerId now clock => do
      completeSubmissionTx hash j.result workerId now clock
      return .done
  | reap now => do return .count (← reclaimExpiredLeases hash now)
  | review submissionId reviewerId status reason now => do
      let row ← reviewSubmission hash submissionId reviewerId status reason now
      return .item row.1 row.2
  | rejudge id => do
      rejudgeSubmission hash id
      return .done
  | rejudgeProblem problemId => do return .count (← rejudgeProblemSubmissions hash problemId)
  | cancel id now => do
      cancelSubmission hash id now
      return .done
  | unstick teamId now => do
      unstickTeamSubmissions hash teamId now
      return .done

def Op.program (hash : Hash) (op : Op) : Tx Db Write Lock Reply := (op.handler hash).run

/-! ## What an operation does to one row -/

/-- The changes that the `UPDATE` statements of an operation make to the row `id`.  A claim changes a
row that was queued when it was locked. -/
inductive Op.Step : Op → Uuid → Submission → Submission → Prop
  | claim {workerId : ClaimId} {now clock : Time} {ties : Uuid → ℕ} {id : Uuid} {r : Submission} :
      r.state = .queued →
      Step (.claim workerId now clock ties) id r
        ((claimUpdate id workerId now (clock + leaseDuration)).set r)
  | renew {submissionId : Uuid} {workerId : ClaimId} {now clock : Time} {id : Uuid}
      {r : Submission} : holdsLease submissionId workerId now id r →
      Step (.renew submissionId workerId now clock) id r
        ((renewUpdate submissionId workerId now clock).set r)
  | complete {j : Judged} {workerId : ClaimId} {now clock : Time} {id : Uuid} {r : Submission} :
      holdsLease j.result.submissionId workerId now id r →
      Step (.complete j workerId now clock) id r
        ((completeUpdate j.result workerId now clock).set r)
  | requeue {now : Time} {id : Uuid} {r : Submission} : expired now r → r.attempts < 3 →
      Step (.reap now) id r ((requeueUpdate now).set r)
  | fail {now : Time} {id : Uuid} {r : Submission} : expired now r → 3 ≤ r.attempts →
      Step (.reap now) id r (abandon now r)
  | review {reviewerId : Option Uuid} {status : ReviewStatus} {reason : String} {now : Time}
      {id : Uuid} {r : Submission} :
      Step (.review id reviewerId status reason now) id r
        ((reviewUpdate id reviewerId status reason now).set r)
  | rejudge {id : Uuid} {r : Submission} : Step (.rejudge id) id r (requeueForRejudge r)
  | rejudgeProblem {problemId id : Uuid} {r : Submission} : r.problemId = problemId →
      r.active = false → Step (.rejudgeProblem problemId) id r (requeueForRejudge r)
  | cancel {now : Time} {id : Uuid} {r : Submission} : r.active →
      Step (.cancel id now) id r (abandon now r)
  | unstick {teamId : Uuid} {now : Time} {id : Uuid} {r : Submission} : r.teamId = teamId →
      r.active → Step (.unstick teamId now) id r (abandon now r)

/-- The rows an operation inserts. -/
def Op.inserts : Op → Uuid → Submission → Prop
  | create s _ clock, id, r => id = s.id ∧ ∃ maxScore testsTotal, r = newRow s maxScore testsTotal clock
  | _, _, _ => False

/-- The change of the row `id` over one transaction of `op`. -/
inductive RowStep (op : Op) (id : Uuid) : Option Submission → Option Submission → Prop
  | same (o : Option Submission) : RowStep op id o o
  | update {r r' : Submission} : op.Step id r r' → RowStep op id (some r) (some r')
  | insert {r : Submission} : op.inserts id r → RowStep op id none (some r)

/-! ## The system -/

/-- Nothing has been submitted. -/
structure Db.Fresh (db : Db) : Prop where
  submissions : db.submissions = ∅
  submissionTests : db.submissionTests = ∅
  problemScores : db.problemScores = ∅

/-- Administrators edit teams, users, problems and tests; nothing the judge writes changes. -/
def Db.CatalogEdit (db db' : Db) : Prop := ∃ catalog, db' = { db with catalog := catalog }

namespace Judge

abbrev State := Sys Op Db Write Lock Reply

abbrev Log := List (Event Op Db Reply)

/-- The interleaved runs of the judge from the stores in `init`. -/
abbrev ReachableFrom (hash : Hash) (init : Db → Prop) : State → Prop :=
  Reach (Op.program hash) Db.CatalogEdit init

/-- The reachable systems of the judge. -/
abbrev Reachable (hash : Hash) : State → Prop := ReachableFrom hash Db.Fresh

/-! ## A small contest -/

/-- Two teams of one user each, and a published problem with two tests of 40 and 60 points. -/
def sampleStore : Db where
  catalog := {
    teams := (AList.insert 1 ⟨"blue"⟩ ∅).insert 2 ⟨"red"⟩
    users := [1, 2]
    problems := AList.insert 7 ⟨1000, 256, 100, true⟩ ∅
    problemTests := (AList.insert (7, 1) 40 ∅).insert (7, 2) 60 }
  submissions := ∅
  submissionTests := ∅
  submissionReviews := []
  problemScores := ∅

lemma sampleStore_fresh : sampleStore.Fresh := ⟨rfl, rfl, rfl⟩

/-- A lock key for each pair. -/
def sampleHash : Hash := fun k => k.1 * 1000 + k.2

/-- The contest after the requests `ops`, one after the other. -/
def sampleRun (ops : List Op) : State :=
  Sys.serve (Op.program sampleHash) 60 ⟨sampleStore, [], []⟩ ops

lemma sampleRun_reachableFrom {init : Db → Prop} (h : init sampleStore) (ops : List Op) :
    ReachableFrom sampleHash init (sampleRun ops) :=
  .serve 60 (.init h) ops

lemma sampleRun_reachable (ops : List Op) : Reachable sampleHash (sampleRun ops) :=
  sampleRun_reachableFrom sampleStore_fresh ops

/-- The submission `id` of the team `teamId`, by the user of the same number. -/
def sampleSubmission (id teamId : Uuid) : NewSubmission := ⟨id, teamId, teamId, 7, "cpp", "int main;"⟩

/-- The result of a submission that passes one of two tests. -/
def sampleJudged (id teamId : Uuid) : Judged where
  claimed := ⟨id, teamId, teamId, 7, "cpp", "int main;", 100, 2, 0, 1000, 256, none, .running⟩
  result := _
  evaluated := .graded .WA [(1, ⟨.AC, 5, 900, 40, 40⟩), (2, ⟨.WA, 5, 900, 0, 60⟩)] 100 2 none

end Judge

end Labyrithm
