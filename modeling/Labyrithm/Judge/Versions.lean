import Labyrithm.Judge.Invariants

/-!
# The versions of one submission, and what the server says of them

* `Versions id vs` — a history of the row `id`, newest version first: the row as it was inserted, and
  what one operation after another has made of it.  `Judge.versions_of_log` reads it off the commits
  of any reachable system.
* `getSubmission` — the status a client polls for (`repository.go`, lines 121–206).
* `Emitted id v m` — the server says `m` of the version `v`: a status, or an event that `Submit`, the
  worker that has claimed the submission, or the worker that has completed it broadcasts.
* `Emitted.reports` — what a message shows of its version.
-/

namespace Labyrithm

open Sql Tx

variable {hash : Hash} {op : Op} {id : Uuid} {r r' : Submission} {s : Judge.State}

/-- `value.status === "passed" || value.status === "failed"`, and the `isTerminal` of the server. -/
def Status.terminal (status : Status) : Bool := status = .passed ∨ status = .failed

/-! ## Histories of a row -/

/-- A version of a row, with the operation that has written it. -/
structure Version where
  op : Op
  row : Submission

/-- The histories of the row `id`, newest version first. -/
inductive Versions (id : Uuid) : List Version → Prop
  | insert {op : Op} {r : Submission} : op.inserts id r → Versions id [⟨op, r⟩]
  | update {op : Op} {r' : Submission} {v : Version} {vs : List Version} :
      Versions id (v :: vs) → op.Step id v.row r' → Versions id (⟨op, r'⟩ :: v :: vs)

/-- The version of the row `id` that an event has written. -/
def versionOf (id : Uuid) : Event Op Db Reply → Option Version
  | .committed op c v =>
      if v.submission id = c.submission id then none else (v.submission id).map (Version.mk op)
  | _ => none

/-- The versions of the row `id` in the history of a system. -/
def versionsIn (id : Uuid) (log : Judge.Log) : List Version := log.filterMap (versionOf id)

/-- The versions in `vs` are a history of the row, and the newest is `o`. -/
def VersionsTo (id : Uuid) (o : Option Submission) (vs : List Version) : Prop :=
  match o with
  | none => vs = []
  | some r => ∃ op older, vs = ⟨op, r⟩ :: older ∧ Versions id vs

lemma VersionsTo.rowStep {o o' : Option Submission} {vs : List Version} (h : VersionsTo id o vs)
    (hstep : RowStep op id o o') (hne : o' ≠ o) (hr : o' = some r') :
    VersionsTo id o' (⟨op, r'⟩ :: vs) := by
  subst hr
  cases hstep with
  | same => exact absurd rfl hne
  | update hs =>
      obtain ⟨op', older, rfl, hvs⟩ := h
      exact ⟨op, _, rfl, hvs.update hs⟩
  | insert hi =>
      obtain rfl : vs = [] := h
      exact ⟨op, _, rfl, .insert hi⟩

/-- In every reachable system, the commits have given each submission a history that ends in its
row. -/
theorem Judge.versions_of_log (hs : Judge.Reachable hash s) (id : Uuid) :
    VersionsTo id (s.db.submission id) (versionsIn id s.log) := by
  refine Judge.history (fun db h => h.activeUnique)
    (fun db log => VersionsTo id (db.submission id) (versionsIn id log)) ?_ (fun _ _ _ h => h)
    (fun _ _ _ _ _ h _ => h) ?_ (fun _ _ _ h => h) hs
  · intro db h
    rw [h.submission id]
    rfl
  · intro c v log op h _ hR
    have hrow := hR.rows id
    by_cases hsame : v.submission id = c.submission id
    · rw [versionsIn, List.filterMap_cons_none (by simp [versionOf, hsame]), hsame]
      exact h
    · cases hv : v.submission id with
      | none =>
          -- no operation deletes the row
          rw [hv] at hrow hsame
          generalize c.submission id = o at hrow hsame
          cases hrow
          exact absurd rfl hsame
      | some r' =>
          have hversion : versionOf id (.committed op c v) = some ⟨op, r'⟩ := by
            rw [versionOf, if_neg hsame, hv, Option.map_some]
          rw [versionsIn, List.filterMap_cons_some hversion]
          rw [hv] at hrow hsame
          exact h.rowStep hrow hsame rfl

lemma Versions.wellFormed {vs : List Version} (h : Versions id vs) {v : Version} (hv : v ∈ vs) :
    v.row.WellFormed := by
  induction h generalizing v with
  | insert hins =>
      obtain rfl := List.mem_singleton.mp hv
      exact hins.wellFormed
  | update _ hstep ih =>
      rcases List.mem_cons.mp hv with rfl | hv
      · exact hstep.wellFormed (ih (by simp))
      · exact ih hv

/-- A version was inserted, or is what its operation has made of a well-formed row. -/
lemma Versions.written {vs : List Version} (h : Versions id vs) {v : Version} (hv : v ∈ vs) :
    v.op.inserts id v.row ∨ ∃ r, r.WellFormed ∧ v.op.Step id r v.row := by
  induction h with
  | insert hins =>
      obtain rfl := List.mem_singleton.mp hv
      exact Or.inl hins
  | update hvs hstep ih =>
      rcases List.mem_cons.mp hv with rfl | hv
      · exact Or.inr ⟨_, hvs.wellFormed (by simp), hstep⟩
      · exact ih hv

/-! ## Statuses -/

/-- The JSON of a `Result` that a client reads: `SubmissionStatusResponse`. -/
structure StatusResponse where
  submissionId : Uuid
  userId : Uuid
  teamId : Uuid
  problemId : Uuid
  status : Status
  verdict : Option Verdict
  score : ℤ
  maxScore : ℤ
  testsTotal : ℤ
  testsDone : ℤ
  compileError : Option String
  queuePosition : Option ℕ
  tests : List (ℤ × SubmissionTest)
  createdAt : Time
  finishedAt : Option Time
  attemptStartedAt : Option Time
  deriving DecidableEq, Repr

/-- The status of the row `r`. -/
def statusOf (id : Uuid) (r : Submission) (queuePosition : Option ℕ)
    (tests : List (ℤ × SubmissionTest)) : StatusResponse where
  submissionId := id
  userId := r.userId
  teamId := r.teamId
  problemId := r.problemId
  status := r.state
  verdict := r.verdict
  score := r.score
  maxScore := r.maxScore
  testsTotal := r.testsTotal
  testsDone := r.testsDone
  compileError := r.compileError
  queuePosition := queuePosition
  tests := tests
  createdAt := r.createdAt
  finishedAt := r.finishedAt
  attemptStartedAt := r.claimedAt

/-- `COALESCE(NULLIF(st.max_points, 0), pt.points, 0)`. -/
def Db.maxPointsOf (db : Db) (problemId : Uuid) (t : ℤ × SubmissionTest) : ℤ :=
  if t.2.maxPoints ≠ 0 then t.2.maxPoints
  else (db.catalog.problemTests.lookup (problemId, t.1)).getD 0

/-- The tests of a submission, `ORDER BY st.ordinal ASC`. -/
def Db.testsOf (db : Db) (id problemId : Uuid) : List (ℤ × SubmissionTest) :=
  let rows := db.submissionTests.rows.filter fun t => t.1.1 = id
  let tests := rows.map fun t => (t.1.2, t.2)
  (tests.insertionSort fun a b => a.1 ≤ b.1).map fun t =>
    (t.1, { t.2 with maxPoints := db.maxPointsOf problemId t })

/-- Tests without points of their own share the maximum score, the first ones the remainder. -/
def spreadMaxPoints (maxScore : ℤ) (tests : List (ℤ × SubmissionTest)) :
    List (ℤ × SubmissionTest) :=
  if (tests.all fun t => t.2.maxPoints ≤ 0) ∧ 0 < maxScore then
    tests.mapIdx fun i t => (t.1, { t.2 with
      maxPoints := maxScore / tests.length + if (i : ℤ) < maxScore % tests.length then 1 else 0 })
  else tests

/-- `GetSubmission`: three statements, each on a snapshot of its own. -/
def getSubmission (id : Uuid) : Handler (Option StatusResponse) := do
  let row ← select fun db => db.submission id
  match row with
  | none => return none
  | some r =>
      let pos ← select fun db => (db.submissions.rows.filter fun p =>
        p.2.state = .queued ∧ p.2.createdAt ≤ r.createdAt).length
      let tests ← select fun db => db.testsOf id r.problemId
      let queuePosition := if r.state = .queued ∧ 0 < pos then some pos else none
      return some (statusOf id r queuePosition (spreadMaxPoints r.maxScore tests))

/-! ## Messages -/

/-- The fields a broadcast leaves out have Go's zero values; the zero `time.Time` is in the year 1. -/
def zeroTime : Time := -62135596800000000

/-- `Submit` has queued the submission. -/
def queuedEvent (s : NewSubmission) (createdAt : Time) (queuePosition : Option ℕ) :
    StatusResponse where
  submissionId := s.id
  userId := s.userId
  teamId := s.teamId
  problemId := s.problemId
  status := .queued
  verdict := none
  score := 0
  maxScore := 0
  testsTotal := 0
  testsDone := 0
  compileError := none
  queuePosition := queuePosition
  tests := []
  createdAt := createdAt
  finishedAt := none
  attemptStartedAt := none

/-- The worker that has claimed the row `r` has done `testsDone` tests: `processSubmission` says so at
the start and `evaluate` after the tests. -/
def runningEvent (id : Uuid) (r : Submission) (score maxScore testsTotal testsDone : ℤ) :
    StatusResponse where
  submissionId := id
  userId := r.userId
  teamId := r.teamId
  problemId := r.problemId
  status := .running
  verdict := none
  score := score
  maxScore := maxScore
  testsTotal := testsTotal
  testsDone := testsDone
  compileError := none
  queuePosition := none
  tests := []
  createdAt := zeroTime
  finishedAt := none
  attemptStartedAt := r.claimedAt

/-- `processSubmission` has completed the submission with the result `res`. -/
def completedEvent (res : Result) (finishedAt : Time) : StatusResponse where
  submissionId := res.submissionId
  userId := res.userId
  teamId := res.teamId
  problemId := res.problemId
  status := res.status
  verdict := res.verdict
  score := res.score
  maxScore := res.maxScore
  testsTotal := res.testsTotal
  testsDone := res.testsDone
  compileError := res.compileError
  queuePosition := none
  tests := res.tests
  createdAt := res.createdAt
  finishedAt := some finishedAt
  attemptStartedAt := res.attemptStartedAt

/-- The server says `m` of the version `v` of the row `id`. -/
inductive Emitted (id : Uuid) : Version → StatusResponse → Prop
  | status (v : Version) (queuePosition : Option ℕ) (tests : List (ℤ × SubmissionTest)) :
      Emitted id v (statusOf id v.row queuePosition tests)
  | queued (s : NewSubmission) (now clock : Time) (r : Submission) (queuePosition : Option ℕ) :
      Emitted id ⟨.create s now clock, r⟩ (queuedEvent s clock queuePosition)
  | running (workerId : ClaimId) (now clock : Time) (ties : Uuid → ℕ) (r : Submission)
      (score maxScore testsTotal testsDone : ℤ) :
      Emitted id ⟨.claim workerId now clock ties, r⟩
        (runningEvent id r score maxScore testsTotal testsDone)
  -- the worker was handed the `claimed_at` of its claim, and reads its clock again at the end
  | completed (j : Judged) (workerId : ClaimId) (now clock finishedAt : Time) (r : Submission) :
      j.result.attemptStartedAt = r.claimedAt → clock ≤ finishedAt →
      Emitted id ⟨.complete j workerId now clock, r⟩ (completedEvent j.result finishedAt)

/-- What a message shows of the version it is about. -/
structure Reported (v : Version) (m : StatusResponse) : Prop where
  attempt : m.attemptStartedAt = v.row.claimedAt
  terminal : m.status.terminal = v.row.state.terminal
  unfinished : v.row.finishedAt = none → m.finishedAt = none
  finished : ∀ f, v.row.finishedAt = some f → ∃ f', m.finishedAt = some f' ∧ f ≤ f' ∧
    (v.row.claimedAt = none → f' = f)

/-- A message shows its version's attempt, whether it is finished, and when. -/
theorem Emitted.reports {vs : List Version} (hvs : Versions id vs) {v : Version} (hv : v ∈ vs)
    {m : StatusResponse} (h : Emitted id v m) : Reported v m := by
  have hwritten := hvs.written hv
  cases h with
  | status => exact ⟨rfl, rfl, fun h => h, fun f hf => ⟨f, hf, le_refl f, fun _ => rfl⟩⟩
  | queued =>
      rcases hwritten with ⟨-, maxScore, testsTotal, rfl⟩ | ⟨r, -, hstep⟩
      · exact ⟨rfl, rfl, fun _ => rfl, by simp [newRow]⟩
      · cases hstep
  | running workerId now clock ties r =>
      have hr := hvs.wellFormed hv
      rcases hwritten with hins | ⟨r₀, -, hstep⟩
      · exact hins.elim
      · have hrun : r.state = .running := by
          cases hstep
          rfl
        have hunfinished := (hr.active (Submission.active_iff.mpr (Or.inr hrun))).2.2.2.2
        refine ⟨rfl, ?_, fun _ => rfl, fun f hf => ?_⟩
        · show Status.running.terminal = r.state.terminal
          rw [hrun]
        · rw [hunfinished] at hf
          cases hf
  | completed j workerId now clock finishedAt r hattempt hle =>
      rcases hwritten with hins | ⟨r₀, hr₀, hstep⟩
      · exact hins.elim
      · cases hstep with
        | complete hlease =>
            simp only [holdsLease, decide_eq_true_eq] at hlease
            have hclaimed := (hr₀.running hlease.2.2.1).2.1
            refine ⟨hattempt, rfl, by simp, fun f hf => ?_⟩
            obtain rfl : clock = f := Option.some.inj hf
            refine ⟨finishedAt, rfl, hle, fun hnone => ?_⟩
            have hnone : r₀.claimedAt = none := hnone
            simp [hnone] at hclaimed

end Labyrithm
