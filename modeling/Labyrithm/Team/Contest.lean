import Labyrithm.Judge.Invariants
import Labyrithm.Team.Leaderboard

/-!
# The board over a whole contest

Between the handlers of the judge, which run interleaved, an administrator publishes and withdraws
problems (`problem.Repository.SetPublished`) and deletes users (`user.Repository.Delete`).  The
deletion cascades by the foreign keys of the schema: the user's submissions go, and with them their
tests and reviews; what refers to them is set to null.  No score is recomputed.

* `deleteUser` — the deletion with its cascades.
* `Contest.Reachable` — the stores a contest can reach whose deletions satisfy a condition.
* **`Contest.live_eq_frozen`** — as long as no deletion takes away the recorded best submission of
  a pair (`LeavesScores`), the live and the frozen board agree.
-/

namespace Labyrithm

open Sql Tx

/-! ## The administrator -/

/-- `SetPublished`; `none` is `ErrNotFound`. -/
def setPublished (id : Uuid) (published : Bool) (db : Db) : Option Db :=
  (db.catalog.problems.lookup id).map fun p =>
    { db with catalog.problems := db.catalog.problems.insert id { p with published := published } }

/-- The submission `id` is one of the user's. -/
def Db.ownedBy (db : Db) (userId id : Uuid) : Bool :=
  (db.submission id).any fun r => r.userId = userId

/-- `ON DELETE SET NULL` of a reference to the user. -/
def clearUser (userId : Uuid) (ref : Option Uuid) : Option Uuid := ref.filter fun u => u ≠ userId

/-- A row after the deletion of somebody else. -/
def Submission.without (userId : Uuid) (r : Submission) : Submission :=
  { r with reviewedBy := clearUser userId r.reviewedBy }

/-- A score row after the deletion, which takes the submissions `gone`. -/
def ProblemScore.without (userId : Uuid) (gone : Uuid → Bool) (s : ProblemScore) : ProblemScore :=
  { s with
    userId := clearUser userId s.userId
    bestSubmissionId := s.bestSubmissionId.filter fun id => !gone id }

/-- `Delete`, with the cascades of the schema; `none` is `ErrNotFound`. -/
def deleteUser (userId : Uuid) (db : Db) : Option Db :=
  if userId ∈ db.catalog.users then
    some {
      catalog := { db.catalog with users := db.catalog.users.filter fun u => u ≠ userId }
      submissions :=
        (db.submissions.eraseWhere (db.ownedBy userId)).mapRows (Submission.without userId)
      submissionTests := db.submissionTests.eraseWhere fun k => db.ownedBy userId k.1
      submissionReviews := (db.submissionReviews.filter fun v => !db.ownedBy userId v.submissionId).map
        fun v => { v with reviewerId := clearUser userId v.reviewerId }
      problemScores := db.problemScores.mapRows (ProblemScore.without userId (db.ownedBy userId)) }
  else none

/-! ## What a deletion does to the rows -/

variable {hash : Hash} {db db' : Db} {userId id : Uuid} {k : Pair} {r r' : Submission}

lemma deleteUser_submission (h : deleteUser userId db = some db') :
    db'.submission id = some r' ↔
      ∃ r, db.submission id = some r ∧ r.userId ≠ userId ∧ r' = r.without userId := by
  simp only [deleteUser, Option.ite_none_right_eq_some, Option.some.injEq] at h
  obtain ⟨-, rfl⟩ := h
  have hrow : ((db.submissions.eraseWhere (db.ownedBy userId)).mapRows
      (Submission.without userId)).lookup id
      = if db.ownedBy userId id then none else (db.submission id).map (Submission.without userId) := by
    rw [Table.lookup_mapRows, Table.lookup_eraseWhere]
    split_ifs <;> rfl
  rw [Db.submission, hrow, Db.ownedBy]
  cases db.submission id with
  | none => simp
  | some r => simp [eq_comm]

lemma deleteUser_score (h : deleteUser userId db = some db') (k : Pair) :
    db'.problemScore k
      = (db.problemScore k).map (ProblemScore.without userId (db.ownedBy userId)) := by
  simp only [deleteUser, Option.ite_none_right_eq_some, Option.some.injEq] at h
  obtain ⟨-, rfl⟩ := h
  exact Table.lookup_mapRows _ _ _

lemma deleteUser_counts (h : deleteUser userId db = some db') :
    Counts db' k id r' ↔ ∃ r, Counts db k id r ∧ r.userId ≠ userId ∧ r' = r.without userId := by
  simp only [Counts, deleteUser_submission h]
  constructor
  · rintro ⟨⟨r, hr, hu, rfl⟩, hp, hs⟩
    exact ⟨r, ⟨hr, hp, hs⟩, hu, rfl⟩
  · rintro ⟨r, ⟨hr, hp, hs⟩, hu, rfl⟩
    exact ⟨⟨r, hr, hu, rfl⟩, hp, hs⟩

/-- The condition on a deletion: no score row names a submission of the user as the best of its pair,
unless it records 0 and everything that counts for the pair scores 0. -/
def LeavesScores (userId : Uuid) (db : Db) : Prop :=
  ∀ k s id r, db.problemScore k = some s → s.bestSubmissionId = some id →
    db.submission id = some r → r.userId = userId →
    s.bestScore = 0 ∧ ∀ id' r', Counts db k id' r' → r'.score = 0

/-- Under that condition a deletion keeps the score rows faithful. -/
lemma Faithful.deleteUser (hf : Faithful k db) (h : deleteUser userId db = some db')
    (hcond : LeavesScores userId db) : Faithful k db' := by
  have hscores : (∀ id r, Counts db k id r → r.score = 0) → ∀ id r, Counts db' k id r → r.score = 0 := by
    intro hzero id r' hc
    obtain ⟨r, hr, -, rfl⟩ := (deleteUser_counts h).mp hc
    exact hzero id r hr
  have hrow := deleteUser_score h k
  rcases hf with hcons | ⟨⟨row, hs, hzero⟩, hcounts⟩
  · cases hs : db.problemScore k with
    | none =>
        have hnone : ∀ id r, ¬ Counts db' k id r := by
          intro id r' hc
          obtain ⟨r, hr, -⟩ := (deleteUser_counts h).mp hc
          exact hcons.absent.mp hs id r hr
        rw [hs, Option.map_none] at hrow
        exact Or.inl ⟨⟨fun _ => hnone, fun _ => hrow⟩, fun s he => by simp [hrow] at he⟩
    | some s =>
        rw [hs, Option.map_some] at hrow
        obtain ⟨id, r, ⟨hr, hle⟩, hscore, hid, huser, hat⟩ := hcons.best s hs
        by_cases hu : r.userId = userId
        · obtain ⟨hzero, hcounts⟩ := hcond k s id r hs hid hr.1 hu
          exact Or.inr ⟨⟨_, hrow, hzero⟩, hscores hcounts⟩
        · have hr' : Counts db' k id (r.without userId) := (deleteUser_counts h).mpr ⟨r, hr, hu, rfl⟩
          have hkeep : db.ownedBy userId id = false := by simp [Db.ownedBy, hr.1, hu]
          refine Or.inl ⟨⟨fun hn => by simp [hrow] at hn, fun hn => absurd hr' (hn _ _)⟩,
            fun s' hs' => ?_⟩
          obtain rfl := Option.some.inj (hrow.symm.trans hs')
          refine ⟨id, r.without userId, ⟨hr', fun id' r'' hc => ?_⟩, hscore, ?_, ?_, hat⟩
          · obtain ⟨r₁, hr₁, -, rfl⟩ := (deleteUser_counts h).mp hc
            exact hle id' r₁ hr₁
          · simp [ProblemScore.without, hid, hkeep]
          · simp [ProblemScore.without, clearUser, huser, hu, Submission.without]
  · rw [hs, Option.map_some] at hrow
    exact Or.inr ⟨⟨_, hrow, hzero⟩, hscores hcounts⟩

/-! ## The contest -/

namespace Contest

/-- The stores a contest can reach whose deletions satisfy `cond`: the judge's handlers run
interleaved, and between their runs an administrator publishes, withdraws and deletes. -/
inductive Reachable (hash : Hash) (cond : Uuid → Db → Prop) : Db → Prop
  | empty {db : Db} : db.Fresh → Reachable hash cond db
  | judge {db : Db} {s : Judge.State} : Reachable hash cond db →
      Judge.ReachableFrom hash (fun d => d = db) s → Reachable hash cond s.db
  | publish {db db' : Db} (id : Uuid) (published : Bool) : Reachable hash cond db →
      setPublished id published db = some db' → Reachable hash cond db'
  | delete {db db' : Db} (userId : Uuid) : Reachable hash cond db → cond userId db →
      deleteUser userId db = some db' → Reachable hash cond db'

/-- The invariant of a contest. -/
structure Inv (db : Db) : Prop where
  unique : ActiveUnique db
  rows : ∀ id r, db.submission id = some r → r.WellFormed
  scores : ∀ k, Faithful k db

lemma Inv.of_same {db' : Db} (h : Inv db) (hs : db'.submissions = db.submissions)
    (hp : db'.problemScores = db.problemScores) : Inv db' := by
  have hsub : ∀ id, db'.submission id = db.submission id := fun id => by
    rw [Db.submission, hs, Db.submission]
  have hsame : ∀ k, ScoringSame k db db' := fun k =>
    ⟨fun id => by rw [hsub], by rw [Db.problemScore, hp, Db.problemScore]⟩
  refine ⟨?_, fun id r hr => h.rows id r (hsub id ▸ hr), fun k => ?_⟩
  · simpa only [ActiveUnique, hsub] using h.unique
  · refine (h.scores k).imp (fun hc => hc.of_same (hsame k)) fun ho => ⟨?_, fun id r hc => ?_⟩
    · rw [(hsame k).score]
      exact ho.1
    · exact ho.2 id r ((hsame k).counts.mp hc)

/-- A commit of the judge keeps the invariant: it settles the scores it touches. -/
lemma Inv.commit {op : Op} {c v : Db} (h : Inv c) (hv : ActiveUnique v) (hR : Committed op c v) :
    Inv v := by
  refine ⟨hv, fun id r hr => ?_, fun k => ?_⟩
  · have hrow := hR.rows id
    rw [hr] at hrow
    exact hrow.forall (fun _ hstep => hstep.wellFormed) (fun hins => hins.wellFormed) (h.rows id)
  · rcases hR.scores k with hsame | hcons
    · refine (h.scores k).imp (fun hc => hc.of_same hsame) fun ho => ⟨?_, fun id r hc => ?_⟩
      · rw [hsame.score]
        exact ho.1
      · exact ho.2 id r (hsame.counts.mp hc)
    · exact Or.inl hcons

lemma Inv.delete (h : Inv db) (hdel : deleteUser userId db = some db')
    (hcond : LeavesScores userId db) : Inv db' := by
  refine ⟨?_, fun id r' hr' => ?_, fun k => (h.scores k).deleteUser hdel hcond⟩
  · intro id id' r r' k hr hr' hk hk'
    obtain ⟨q, hq, -, rfl⟩ := (deleteUser_submission hdel).mp hr
    obtain ⟨q', hq', -, rfl⟩ := (deleteUser_submission hdel).mp hr'
    exact h.unique id id' q q' k hq hq' hk hk'
  · obtain ⟨q, hq, -, rfl⟩ := (deleteUser_submission hdel).mp hr'
    have hq := h.rows id q hq
    exact ⟨hq.active, hq.queued, hq.running, hq.terminal⟩

theorem Reachable.inv (h : Reachable hash LeavesScores db) : Inv db := by
  induction h with
  | empty h =>
      have hnone : ∀ k id r, ¬ Counts _ k id r := fun k id r hc => by
        have := hc.1
        rw [h.submission id] at this
        cases this
      have hscore : ∀ k, Db.problemScore _ k = none := fun k => by
        rw [Db.problemScore, h.problemScores]
        exact AList.lookup_empty k
      refine ⟨h.activeUnique, fun id r hr => ?_, fun k => Or.inl ⟨⟨fun _ => hnone k, fun _ => hscore k⟩,
        fun s hs => by simp [hscore k] at hs⟩⟩
      rw [h.submission id] at hr
      cases hr
  | @judge db s _ hs ih =>
      refine Judge.store_invariant ?_ Inv ?_ ?_ ?_ hs
      · exact fun d hd => hd ▸ ih.unique
      · exact fun d hd => hd ▸ ih
      · exact fun c v op h hv hR => h.commit hv hR
      · exact fun d catalog h => h.of_same rfl rfl
  | publish id published _ hpub ih =>
      obtain ⟨p, -, rfl⟩ := Option.map_eq_some_iff.mp hpub
      exact ih.of_same rfl rfl
  | delete userId _ hcond hdel ih => exact ih.delete hdel hcond

/-- In every contest whose deletions leave the recorded best submissions alone, the live board is the
board frozen at any time later than the last submission. -/
theorem live_eq_frozen (h : Reachable hash LeavesScores db) {cutoff : Time}
    (hcutoff : ∀ id r, db.submission id = some r → r.createdAt < cutoff) (collation : String → ℕ) :
    getLeaderboardWithCutoff collation db none
      = getLeaderboardWithCutoff collation db (some cutoff) := by
  have hinv := h.inv
  refine Labyrithm.leaderboards_agree hinv.scores (fun id r hr hp => ?_)
    (fun id r hr => (hcutoff id r hr).le) collation
  exact ((hinv.rows id r hr).terminal (Or.inl hp)).2.1

lemma createdAt_lt_of_all {cutoff : Time}
    (h : db.submissions.rows.all fun q => q.2.createdAt < cutoff) (id : Uuid) (r : Submission)
    (hr : db.submission id = some r) : r.createdAt < cutoff := by
  simpa using List.all_eq_true.mp h (id, r) (Table.mem_rows.mpr hr)

lemma sampleRun_contest (cond : Uuid → Db → Prop) (ops : List Op) :
    Reachable Judge.sampleHash cond (Judge.sampleRun ops).db :=
  .judge (.empty Judge.sampleStore_fresh) (Judge.sampleRun_reachableFrom (by rfl) ops)

/-- No score row names a submission of the user. -/
lemma leavesScores_of_all
    (h : db.problemScores.rows.all fun q => q.2.bestSubmissionId.all fun id => !db.ownedBy userId id) :
    LeavesScores userId db := by
  intro k s id r hs hid hr hu
  have := List.all_eq_true.mp h (k, s) (Table.mem_rows.mpr hs)
  simp [hid, Db.ownedBy, hr, hu] at this

/-- Both users of a team solve half the problem; the user `u` is deleted. -/
def sampleContest (u : Uuid) : Option Db :=
  deleteUser u (Judge.sampleRun [.create (Judge.sampleSubmission 11 1) 0 5, .claim "w1" 10 10 fun i => i,
    .complete (Judge.sampleJudged 11 1) "w1" 20 20,
    .create ⟨12, 1, 2, 7, "cpp", "int main;"⟩ 4000000 4000000, .claim "w2" 4000010 4000010 fun i => i,
    .complete (Judge.sampleJudged 12 1) "w2" 4000020 4000020]).db

/-- The later of the two is deleted, and both boards show the earlier. -/
theorem live_eq_frozen_sample :
    ∃ db, sampleContest 2 = some db ∧ Reachable Judge.sampleHash LeavesScores db ∧
      (getLeaderboardWithCutoff (fun _ => 0) db none).map LeaderboardEntry.totalScore = [40, 0] ∧
      getLeaderboardWithCutoff (fun _ => 0) db none
        = getLeaderboardWithCutoff (fun _ => 0) db (some 5000000) := by
  obtain ⟨db, hdb⟩ : ∃ db, sampleContest 2 = some db :=
    Option.isSome_iff_exists.mp (by decide +kernel)
  have hreach : Reachable Judge.sampleHash LeavesScores db :=
    .delete 2 (sampleRun_contest _ _)
      (leavesScores_of_all (by decide +kernel)) hdb
  have hboard : (sampleContest 2).all fun db =>
      (getLeaderboardWithCutoff (fun _ => 0) db none).map LeaderboardEntry.totalScore = [40, 0] ∧
        db.submissions.rows.all fun q => q.2.createdAt < 5000000 := by decide +kernel
  rw [hdb, Option.all_some, decide_eq_true_eq] at hboard
  exact ⟨db, hdb, hreach, hboard.1, live_eq_frozen hreach (createdAt_lt_of_all hboard.2) _⟩

/-- The earlier of the two is deleted: the live board still counts its 40 points, with no submission
to date them, and the frozen board counts the later. -/
theorem live_ne_frozen :
    ∃ db cutoff, Reachable Judge.sampleHash (fun _ _ => True) db ∧
      (∀ id r, db.submission id = some r → r.createdAt < cutoff) ∧
      getLeaderboardWithCutoff (fun _ => 0) db none
        ≠ getLeaderboardWithCutoff (fun _ => 0) db (some cutoff) := by
  obtain ⟨db, hdb⟩ : ∃ db, sampleContest 1 = some db :=
    Option.isSome_iff_exists.mp (by decide +kernel)
  have hreach : Reachable Judge.sampleHash (fun _ _ => True) db :=
    .delete 1 (sampleRun_contest _ _) trivial hdb
  have hboard : (sampleContest 1).all fun db =>
      getLeaderboardWithCutoff (fun _ => 0) db none
          ≠ getLeaderboardWithCutoff (fun _ => 0) db (some 5000000) ∧
        db.submissions.rows.all fun q => q.2.createdAt < 5000000 := by decide +kernel
  rw [hdb, Option.all_some, decide_eq_true_eq] at hboard
  exact ⟨db, 5000000, hreach, createdAt_lt_of_all hboard.2, hboard.1⟩

end Contest

end Labyrithm
