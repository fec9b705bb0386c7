import Labyrithm.Go.Map
import Labyrithm.Team.Contest
import Mathlib.Data.List.Induction

/-!
# Counts of solved problems

`GetTeamProgress` of `backend/internal/judge/queries.go` compares the best score of a problem with the
maximum that the problem has now, and the leaderboard with the maximum that was recorded with the best
submission.  An administrator changes the former at any time.

* `Current` — every submission that has passed has full marks by both, or by neither.
* `Steady` — the stores of a contest in which no edit and no result makes a difference between the two.
* `progress_solved`, `leaderboard_solved` — what the two count.
* **`counts_agree`** — in a steady contest they count the same.
-/

namespace Labyrithm

open Sql Tx

/-! ## `GetTeamProgress` -/

inductive ProgressStatus
  | attempted
  | solved
  deriving DecidableEq, Repr

def ProgressStatus.text : ProgressStatus → String
  | attempted => "attempted"
  | solved => "solved"

structure ProblemProgress where
  problemId : Uuid
  bestScore : ℤ
  status : ProgressStatus
  deriving DecidableEq, Repr

/-- A row of the query: `problem_id`, `best_score` and `max_score`. -/
structure ProgressRow where
  problemId : Uuid
  bestScore : ℤ
  maxScore : ℤ
  deriving DecidableEq, Repr

/-- The rows of the query, in some order; an id is `none` where it is empty. -/
def Db.progressRows (db : Db) (teamId userId : Option Uuid) : List ProgressRow :=
  (db.problemScores.rows.filter fun s =>
    teamId = some s.1.1 ∨ (userId.isSome ∧ s.2.userId = userId)).filterMap fun s =>
      (db.catalog.problems.lookup s.1.2).map fun p => ⟨s.1.2, s.2.bestScore, p.maxScore⟩

def ProgressRow.progress (row : ProgressRow) : ProblemProgress :=
  ⟨row.problemId, row.bestScore,
    if row.bestScore ≥ row.maxScore ∧ row.maxScore > 0 then .solved else .attempted⟩

/-- The loop over the rows. -/
def getTeamProgress (rows : List ProgressRow) : Go.Map Uuid ProblemProgress :=
  rows.foldl (fun result row => result.insert row.problemId row.progress) ∅

/-- How many published problems are reported as solved. -/
def Db.reportedSolved (db : Db) (progress : Go.Map Uuid ProblemProgress) : ℕ :=
  (db.catalog.problems.rows.filter fun p =>
    p.2.published && (progress.get? p.1).any fun q => q.status = .solved).length

/-! ## Full marks -/

/-- Full marks of the problem. -/
def Problem.Full (p : Problem) (score : ℤ) : Prop := p.maxScore ≤ score ∧ 0 < p.maxScore

instance (p : Problem) (score : ℤ) : Decidable (p.Full score) := inferInstanceAs (Decidable (_ ∧ _))

/-- Full marks of a submission with this maximum. -/
def FullOf (maxScore score : ℤ) : Prop := 0 < score ∧ maxScore ≤ score

instance (maxScore score : ℤ) : Decidable (FullOf maxScore score) := inferInstanceAs (Decidable (_ ∧ _))

/-- The row has full marks by its problem, where there is one, if it has them by its own maximum. -/
def Settles (db : Db) (r : Submission) : Prop :=
  ∀ p, db.catalog.problems.lookup r.problemId = some p → (p.Full r.score ↔ FullOf r.maxScore r.score)

/-- Every row that has passed does. -/
def Current (db : Db) : Prop :=
  ∀ id r, db.submission id = some r → r.state = .passed → Settles db r

/-! ## A steady contest -/

/-- An edit that takes no submission its full marks, and gives none full marks that had not. -/
def KeepsFull (db db' : Db) : Prop :=
  ∃ catalog, db' = { db with catalog := catalog } ∧
    ∀ id r, db.submission id = some r → r.state = .passed →
      ∀ p', catalog.problems.lookup r.problemId = some p' →
        ∃ p, db.catalog.problems.lookup r.problemId = some p ∧ (p'.Full r.score ↔ p.Full r.score)

/-- A result that passes has full marks of its problem, as it is then, if it has them of the maximum that
comes with it. -/
def Op.Agrees (db : Db) : Op → Prop
  | .complete j _ _ _ => j.result.status = .passed →
      ∀ r ∈ db.submission j.result.submissionId, ∀ p ∈ db.catalog.problems.lookup r.problemId,
        (p.Full j.result.score ↔
          FullOf (if j.result.maxScore > 0 then j.result.maxScore else r.maxScore) j.result.score)
  | _ => True

instance (db : Db) : (op : Op) → Decidable (op.Agrees db)
  | .complete _ _ _ _ => inferInstanceAs (Decidable (_ → ∀ r ∈ _, ∀ p ∈ _, _))
  | .create _ _ _ | .claim _ _ _ _ | .renew _ _ _ _ | .reap _ | .review _ _ _ _ _ | .rejudge _
  | .rejudgeProblem _ | .cancel _ _ | .unstick _ _ => .isTrue trivial

/-- The stores of a contest whose edits keep full marks, whose results agree with their problems, and
whose deletions leave the recorded best submissions alone. -/
inductive Steady (hash : Hash) : Db → Prop
  | empty {db : Db} : db.Fresh → Steady hash db
  | judge {db : Db} {s : Judge.State} : Steady hash db →
      Reach (Op.program hash) KeepsFull (fun d => d = db) s →
      (∀ op c v, .committed op c v ∈ s.log → op.Agrees c) → Steady hash s.db
  | delete {db db' : Db} (userId : Uuid) : Steady hash db → LeavesScores userId db →
      deleteUser userId db = some db' → Steady hash db'

variable {hash : Hash} {db db' c v : Db} {op : Op} {id userId : Uuid} {r r' : Submission}

lemma KeepsFull.catalogEdit (h : KeepsFull db db') : Db.CatalogEdit db db' := by
  obtain ⟨catalog, rfl, -⟩ := h
  exact ⟨catalog, rfl⟩

/-- A steady contest is one whose deletions leave the recorded best submissions alone. -/
lemma Steady.reachable (h : Steady hash db) : Contest.Reachable hash LeavesScores db := by
  induction h with
  | empty h => exact .empty h
  | judge _ hs _ ih => exact .judge ih (hs.mono fun _ _ he => he.catalogEdit)
  | delete userId _ hcond hdel ih => exact .delete userId ih hcond hdel

/-! ## What the steps keep -/

/-- An edit that keeps full marks. -/
lemma Current.edit (hcurrent : Current db) (h : KeepsFull db db') : Current db' := by
  obtain ⟨catalog, rfl, hkeeps⟩ := h
  intro id r hr hpassed p' hp'
  obtain ⟨p, hp, hfull⟩ := hkeeps id r hr hpassed p' hp'
  exact hfull.trans (hcurrent id r hr hpassed p hp)

/-- A row that has passed after an update passed before, with the same marks, or by its result. -/
lemma Op.Step.passed (h : op.Step id r r') (hpassed : r'.state = .passed) :
    (r.state = .passed ∧ r'.problemId = r.problemId ∧ r'.score = r.score ∧ r'.maxScore = r.maxScore) ∨
      ∃ j workerId now clock, op = .complete j workerId now clock ∧ id = j.result.submissionId ∧
        r' = (completeUpdate j.result workerId now clock).set r := by
  cases h with
  | claim hq => cases hpassed
  | renew hlease => exact .inl ⟨hpassed, rfl, rfl, rfl⟩
  | @complete j workerId now clock _ _ hlease =>
      simp only [holdsLease, decide_eq_true_eq] at hlease
      exact .inr ⟨j, workerId, now, clock, rfl, hlease.1, rfl⟩
  | requeue hexp hle => cases hpassed
  | fail hexp hle => cases hpassed
  | review => exact .inl ⟨hpassed, rfl, rfl, rfl⟩
  | rejudge => cases hpassed
  | rejudgeProblem hproblem hactive => cases hpassed
  | cancel hactive => cases hpassed
  | unstick hteam hactive => cases hpassed

lemma Op.inserts.not_passed (h : op.inserts id r) : r.state ≠ .passed := by
  cases op with
  | create n now clock =>
      obtain ⟨-, maxScore, testsTotal, rfl⟩ := h
      exact Status.noConfusion
  | _ => exact h.elim

/-- A commit whose result agrees with its problem. -/
lemma Current.commit (hcurrent : Current c) (h : Committed op c v) (hagrees : op.Agrees c) : Current v := by
  intro id r' hr' hpassed p hp
  rw [h.catalog] at hp
  have hrow := h.rows id
  rw [hr'] at hrow
  cases hc : c.submission id with
  | none =>
      rw [hc] at hrow
      cases hrow with
      | insert hins => exact absurd hpassed hins.not_passed
  | some r =>
      rw [hc] at hrow
      cases hrow with
      | same => exact hcurrent id r' hc hpassed p hp
      | update hstep =>
          rcases hstep.passed hpassed with ⟨hwas, hproblem, hscore, hmax⟩ | ⟨j, _, _, _, rfl, rfl, rfl⟩
          · rw [hscore, hmax]
            exact hcurrent id r hc hwas p (hproblem ▸ hp)
          · exact hagrees hpassed r hc p hp

/-- A deletion. -/
lemma Current.delete (hcurrent : Current db) (h : deleteUser userId db = some db') : Current db' := by
  have hcatalog : db'.catalog.problems = db.catalog.problems := by
    simp only [deleteUser, Option.ite_none_right_eq_some, Option.some.injEq] at h
    obtain ⟨-, rfl⟩ := h
    rfl
  intro id r' hr' hpassed p hp
  obtain ⟨r, hr, -, rfl⟩ := (deleteUser_submission h).mp hr'
  rw [hcatalog] at hp
  exact hcurrent id r hr hpassed p hp

/-- In a steady contest every submission that has passed has full marks by both, or by neither. -/
lemma Steady.current (h : Steady hash db) : Current db := by
  induction h with
  | empty h =>
      intro id r hr
      rw [h.submission id] at hr
      cases hr
  | @judge db s hdb hs hagrees ih =>
      have hinit : ∀ d, d = db → ActiveUnique d := fun d hd => hd ▸ hdb.reachable.inv.unique
      have hv := @Judge.verified hash _ hinit
      have hverified : Verified (protocol hash) Committed Op.Replies (Op.program hash) KeepsFull
          (fun d => d = db) :=
        ⟨hv.prog, fun c c' hc he => hv.env c c' hc he.catalogEdit, hinit⟩
      refine Reach.history hverified
        (fun d log => (∀ op c v, .committed op c v ∈ log → op.Agrees c) → Current d)
        ?_ ?_ ?_ ?_ ?_ hs hagrees
      · exact fun d hd _ => hd ▸ ih
      · exact fun d log op hP hall => hP fun op' c v hmem => hall op' c v (List.mem_cons_of_mem _ hmem)
      · exact fun d log op a ps hP _ hall =>
          hP fun op' c v hmem => hall op' c v (List.mem_cons_of_mem _ hmem)
      · intro c v log op hP _ _ hR hall
        exact (hP fun op' c v hmem => hall op' c v (List.mem_cons_of_mem _ hmem)).commit hR
          (hall op c v List.mem_cons_self)
      · exact fun d d' log hP he hall => (hP hall).edit he
  | delete userId _ _ hdel ih => exact ih.delete hdel

/-! ## What is counted -/

section Counts

variable {teamId problemId : Uuid} {user : Option Uuid} {rows : List ProgressRow}

/-- The user has no score row in another team. -/
def OnlyIn (teamId : Uuid) (user : Option Uuid) (db : Db) : Prop :=
  ∀ k row, db.problemScore k = some row → user.isSome → row.userId = user → k.1 = teamId

/-- The rows of the query are those of the team. -/
lemma mem_progressRows (honly : OnlyIn teamId user db) {row : ProgressRow} :
    row ∈ db.progressRows (some teamId) user ↔
      ∃ s p, db.problemScore (teamId, row.problemId) = some s ∧
        db.catalog.problems.lookup row.problemId = some p ∧ row = ⟨row.problemId, s.bestScore, p.maxScore⟩ := by
  simp only [Db.progressRows, List.mem_filterMap, List.mem_filter, Prod.exists, Table.mem_rows,
    decide_eq_true_eq, Option.some.injEq, Option.map_eq_some_iff]
  constructor
  · rintro ⟨t, problem, s, ⟨hs, hteam⟩, p, hp, rfl⟩
    have ht : t = teamId := hteam.elim (fun h => h.symm) fun h => honly _ s hs h.1 h.2
    exact ⟨s, p, ht ▸ hs, hp, rfl⟩
  · rintro ⟨s, p, hs, hp, hrow⟩
    exact ⟨teamId, row.problemId, s, ⟨hs, .inl rfl⟩, p, hp, hrow.symm⟩

/-- A team has one row for a problem. -/
lemma progressRows_nodup (honly : OnlyIn teamId user db) :
    ((db.progressRows (some teamId) user).map ProgressRow.problemId).Nodup := by
  rw [Db.progressRows]
  set mine := db.problemScores.rows.filter fun s =>
    some teamId = some s.1.1 ∨ (user.isSome ∧ s.2.userId = user) with hmine
  have hsublist (l : List (Pair × ProblemScore)) : ((l.filterMap fun s =>
      (db.catalog.problems.lookup s.1.2).map fun p =>
        ProgressRow.mk s.1.2 s.2.bestScore p.maxScore).map ProgressRow.problemId).Sublist
      ((l.map Prod.fst).map Prod.snd) := by
    induction l with
    | nil => exact List.Sublist.refl []
    | cons s l ih =>
        rw [List.filterMap_cons]
        cases db.catalog.problems.lookup s.1.2 with
        | none => exact ih.cons _
        | some p => exact ih.cons_cons _
  refine (hsublist mine).nodup (List.Nodup.map_on ?_ ?_)
  · have hteam : ∀ k ∈ mine.map Prod.fst, k.1 = teamId := by
      intro k hk
      obtain ⟨s, hs, rfl⟩ := List.mem_map.mp hk
      rw [hmine, List.mem_filter, decide_eq_true_eq] at hs
      rcases hs.2 with hteam | ⟨hsome, huser⟩
      · exact (Option.some.inj hteam).symm
      · exact honly s.1 s.2 (Table.mem_rows.mp hs.1) hsome huser
    intro k hk k' hk' heq
    exact Prod.ext ((hteam k hk).trans (hteam k' hk').symm) heq
  · exact (List.filter_sublist.map Prod.fst).nodup db.problemScores.rows_nodup_keys

/-- What the loop leaves of rows with one problem each. -/
lemma get?_getTeamProgress (hnodup : (rows.map ProgressRow.problemId).Nodup) {q : ProblemProgress} :
    (getTeamProgress rows).get? problemId = some q ↔
      ∃ row ∈ rows, row.problemId = problemId ∧ row.progress = q := by
  induction rows using List.reverseRecOn with
  | nil => simp [getTeamProgress]
  | append_singleton rows row ih =>
      rw [List.map_append, List.nodup_append] at hnodup
      have hrest := ih hnodup.1
      rw [getTeamProgress] at hrest
      rw [getTeamProgress, List.foldl_append, List.foldl_cons, List.foldl_nil, Go.Map.get?_insert]
      by_cases hproblem : problemId = row.problemId
      · subst hproblem
        have hnot : ∀ row' ∈ rows, row'.problemId ≠ row.problemId := fun row' hrow' =>
          hnodup.2.2 _ (List.mem_map_of_mem hrow') _ (by simp)
        rw [if_pos rfl, Option.some.injEq]
        constructor
        · exact fun heq => ⟨row, by simp, rfl, heq⟩
        · rintro ⟨row', hrow', hsame, heq⟩
          rcases List.mem_append.mp hrow' with hold | hnew
          · exact absurd hsame (hnot row' hold)
          · exact List.mem_singleton.mp hnew ▸ heq
      · rw [if_neg hproblem, hrest]
        constructor
        · rintro ⟨row', hrow', hsame, heq⟩
          exact ⟨row', List.mem_append_left _ hrow', hsame, heq⟩
        · rintro ⟨row', hrow', hsame, heq⟩
          rcases List.mem_append.mp hrow' with hold | hnew
          · exact ⟨row', hold, hsame, heq⟩
          · exact absurd (List.mem_singleton.mp hnew ▸ hsame).symm hproblem

/-- A problem is reported as solved for full marks of what it is worth now. -/
lemma progress_solved (honly : OnlyIn teamId user db) (hrows : rows.Perm (db.progressRows (some teamId) user)) :
    (((getTeamProgress rows).get? problemId).any fun q => q.status = .solved) = true ↔
      ∃ s p, db.problemScore (teamId, problemId) = some s ∧
        db.catalog.problems.lookup problemId = some p ∧ p.Full s.bestScore := by
  have hnodup : (rows.map ProgressRow.problemId).Nodup :=
    (hrows.map ProgressRow.problemId).nodup_iff.mpr (progressRows_nodup honly)
  rw [Option.any_eq_true]
  constructor
  · rintro ⟨q, hq, hsolved⟩
    obtain ⟨row, hrow, rfl, rfl⟩ := (get?_getTeamProgress hnodup).mp hq
    obtain ⟨s, p, hs, hp, hshape⟩ := (mem_progressRows honly).mp (hrows.mem_iff.mp hrow)
    refine ⟨s, p, hs, hp, ?_⟩
    rw [hshape, decide_eq_true_eq, ProgressRow.progress] at hsolved
    by_contra hfull
    rw [Problem.Full] at hfull
    simp [ge_iff_le, gt_iff_lt, hfull] at hsolved
  · rintro ⟨s, p, hs, hp, hfull⟩
    refine ⟨_, (get?_getTeamProgress hnodup).mpr
      ⟨⟨problemId, s.bestScore, p.maxScore⟩, hrows.mem_iff.mpr ((mem_progressRows honly).mpr
        ⟨s, p, hs, hp, rfl⟩), rfl, rfl⟩, ?_⟩
    simp [ProgressRow.progress, hfull.1, hfull.2]

/-- It counts on the leaderboard for full marks of the maximum recorded with its best submission. -/
lemma leaderboard_solved :
    problemId ∈ ((db.liveStandings teamId).filter fun s =>
        decide (0 < s.score ∧ s.maxScore.any (· ≤ s.score))).map ProblemStanding.problemId ↔
      db.published problemId ∧ ∃ s, db.problemScore (teamId, problemId) = some s ∧
        ∃ r ∈ s.bestSubmissionId.bind db.submission, FullOf r.maxScore s.bestScore := by
  simp only [List.mem_map, List.mem_filter, mem_liveStandings, decide_eq_true_eq]
  constructor
  · rintro ⟨standing, ⟨⟨hpublished, s, hs, hscore, hmax, -⟩, hpos, hany⟩, rfl⟩
    refine ⟨hpublished, s, hs, ?_⟩
    rw [hmax, hscore] at hany
    cases hbest : s.bestSubmissionId.bind db.submission with
    | none => simp [hbest] at hany
    | some r => exact ⟨r, rfl, hscore ▸ hpos, by simpa [hbest] using hany⟩
  · rintro ⟨hpublished, s, hs, r, hbest, hfull⟩
    refine ⟨⟨problemId, s.bestScore, some r.maxScore, some r.createdAt⟩,
      ⟨⟨hpublished, s, hs, rfl, ?_, ?_⟩, hfull.1, by simpa using hfull.2⟩, rfl⟩
    · rw [Option.mem_def.mp hbest]
      rfl
    · rw [Option.mem_def.mp hbest]
      rfl

/-- With a current store the two agree on every problem. -/
lemma full_iff (hfaithful : Faithful (teamId, problemId) db) (hcurrent : Current db) {s : ProblemScore}
    {p : Problem} (hs : db.problemScore (teamId, problemId) = some s)
    (hp : db.catalog.problems.lookup problemId = some p) :
    p.Full s.bestScore ↔ ∃ r ∈ s.bestSubmissionId.bind db.submission, FullOf r.maxScore s.bestScore := by
  rcases hfaithful with hconsistent | ⟨⟨s', hs', hzero⟩, -⟩
  · obtain ⟨id, r, ⟨⟨hr, hpair, hscoring⟩, -⟩, hscore, hbest, -⟩ := hconsistent.best s hs
    simp only [Submission.scoring, decide_eq_true_eq] at hscoring
    have hproblem : r.problemId = problemId := congrArg Prod.snd hpair
    have hmem : s.bestSubmissionId.bind db.submission = some r := by rw [hbest, Option.bind_some, hr]
    rw [hscore, hcurrent id r hr hscoring.1 p (hproblem ▸ hp), hmem]
    simp
  · obtain rfl := Option.some.inj (hs.symm.trans hs')
    rw [hzero]
    constructor
    · exact fun hfull => absurd (hfull.2.trans_le hfull.1) (lt_irrefl 0)
    · rintro ⟨r, -, hfull⟩
      exact absurd hfull.1 (lt_irrefl 0)

/-- With a current store the counts agree. -/
lemma reportedSolved_eq (hfaithful : ∀ k, Faithful k db) (hcurrent : Current db)
    (honly : OnlyIn teamId user db) (hrows : rows.Perm (db.progressRows (some teamId) user)) :
    db.reportedSolved (getTeamProgress rows) =
      countDistinct (fun s => 0 < s.score ∧ s.maxScore.any (· ≤ s.score)) ProblemStanding.problemId
        (db.liveStandings teamId) := by
  have hreported : ((db.catalog.problems.rows.filter fun p =>
      p.2.published && ((getTeamProgress rows).get? p.1).any fun q => q.status = .solved).map
        Prod.fst).Nodup :=
    (List.filter_sublist.map Prod.fst).nodup db.catalog.problems.rows_nodup_keys
  rw [Db.reportedSolved, ← List.length_map Prod.fst, countDistinct]
  refine ((List.perm_ext_iff_of_nodup hreported (List.nodup_dedup _)).mpr fun problemId => ?_).length_eq
  rw [List.mem_dedup, leaderboard_solved]
  simp only [List.mem_map, List.mem_filter, Prod.exists, Table.mem_rows, Bool.and_eq_true,
    exists_and_right, exists_eq_right, progress_solved honly hrows]
  constructor
  · rintro ⟨p, hp, hpublished, s, p', hs, hp', hfull⟩
    obtain rfl := Option.some.inj (hp.symm.trans hp')
    refine ⟨by simp [Db.published, hp, hpublished], s, hs, ?_⟩
    exact (full_iff (hfaithful _) hcurrent hs hp).mp hfull
  · rintro ⟨hpublished, s, hs, hfull⟩
    rw [Db.published, Option.any_eq_true] at hpublished
    obtain ⟨p, hp, hpub⟩ := hpublished
    exact ⟨p, hp, hpub, s, p, hs, hp, (full_iff (hfaithful _) hcurrent hs hp).mpr hfull⟩

end Counts

/-! ## The counts -/

lemma mem_assignRanksFrom {i rank : ℕ} {prev e : LeaderboardEntry} {l : List LeaderboardEntry}
    (h : e ∈ assignRanksFrom i rank prev l) :
    ∃ e' ∈ l, e'.teamId = e.teamId ∧ e'.problemsSolved = e.problemsSolved := by
  induction l generalizing i rank prev with
  | nil => cases h
  | cons curr rest ih =>
      rcases List.mem_cons.mp h with rfl | hrest
      · exact ⟨curr, List.mem_cons_self, rfl, rfl⟩
      · obtain ⟨e', he', hsame⟩ := ih hrest
        exact ⟨e', List.mem_cons_of_mem curr he', hsame⟩

/-- Ranking changes the ranks. -/
lemma mem_assignLeaderboardRanks {e : LeaderboardEntry} {l : List LeaderboardEntry}
    (h : e ∈ assignLeaderboardRanks l) :
    ∃ e' ∈ l, e'.teamId = e.teamId ∧ e'.problemsSolved = e.problemsSolved := by
  cases l with
  | nil => cases h
  | cons curr rest =>
      rcases List.mem_cons.mp h with rfl | hrest
      · exact ⟨curr, List.mem_cons_self, rfl, rfl⟩
      · obtain ⟨e', he', hsame⟩ := mem_assignRanksFrom hrest
        exact ⟨e', List.mem_cons_of_mem curr he', hsame⟩

/-- In a steady contest a team has as many published problems reported as solved, to a member without
scores in another team, as its line on the leaderboard counts. -/
theorem counts_agree (h : Steady hash db) (collation : String → ℕ) {e : LeaderboardEntry}
    (he : e ∈ getLeaderboardWithCutoff collation db none) {user : Option Uuid}
    (honly : OnlyIn e.teamId user db) {rows : List ProgressRow}
    (hrows : rows.Perm (db.progressRows (some e.teamId) user)) :
    db.reportedSolved (getTeamProgress rows) = e.problemsSolved := by
  obtain ⟨line, hline, hteam, hsolved⟩ := mem_assignLeaderboardRanks he
  rw [List.mem_insertionSort] at hline
  obtain ⟨t, -, rfl⟩ := List.mem_map.mp hline
  rw [← hsolved]
  have hsame : t.1 = e.teamId := hteam
  rw [← hsame] at honly hrows
  exact reportedSolved_eq h.reachable.inv.scores h.current honly hrows

/-! ## A problem that is solved -/

/-- The result of a submission that passes both tests. -/
def solvedJudged : Judged where
  claimed := ⟨11, 1, 1, 7, "cpp", "int main;", 100, 2, 0, 1000, 256, none, .running⟩
  result := _
  evaluated := .graded .AC [(1, ⟨.AC, 5, 900, 40, 40⟩), (2, ⟨.AC, 5, 900, 60, 60⟩)] 100 2 none

/-- A team solves the problem. -/
def solvedOps : List Op :=
  [.create (Judge.sampleSubmission 11 1) 0 5, .claim "w1" 10 10 fun i => i,
    .complete solvedJudged "w1" 20 20]

/-- The edit of a maximum. -/
def Db.setMaxScore (db : Db) (problemId : Uuid) (maxScore : ℤ) : Db :=
  match db.catalog.problems.lookup problemId with
  | none => db
  | some p =>
      { db with catalog.problems := db.catalog.problems.insert problemId { p with maxScore := maxScore } }

lemma setMaxScore_catalogEdit (problemId : Uuid) (maxScore : ℤ) :
    db.CatalogEdit (db.setMaxScore problemId maxScore) := by
  rw [Db.setMaxScore]
  cases db.catalog.problems.lookup problemId with
  | none => exact ⟨db.catalog, rfl⟩
  | some p => exact ⟨_, rfl⟩

/-- A step that was committed agrees with the store it was made in. -/
def eventAgrees : Event Op Db Reply → Bool
  | .committed op c _ => op.Agrees c
  | _ => true

theorem counts_agree_sample :
    ∃ e ∈ getLeaderboardWithCutoff (fun _ => 0) (Judge.sampleRun solvedOps).db none, e.problemsSolved = 1 ∧
      (Judge.sampleRun solvedOps).db.reportedSolved
        (getTeamProgress ((Judge.sampleRun solvedOps).db.progressRows (some e.teamId) none)) =
          e.problemsSolved := by
  have hstart : Reach (Op.program Judge.sampleHash) KeepsFull (fun d => d = Judge.sampleStore)
      ⟨Judge.sampleStore, [], []⟩ := .init rfl
  have hlog : (Judge.sampleRun solvedOps).log.all eventAgrees = true := by
    decide +kernel
  have hsteady : Steady Judge.sampleHash (Judge.sampleRun solvedOps).db := by
    refine .judge (.empty Judge.sampleStore_fresh) (hstart.serve 60 solvedOps) fun op c v hmem => ?_
    exact of_decide_eq_true (List.all_eq_true.mp hlog _ hmem)
  have hline : ((getLeaderboardWithCutoff (fun _ => 0) (Judge.sampleRun solvedOps).db none).find? fun e =>
      e.problemsSolved = 1).isSome = true := by
    decide +kernel
  obtain ⟨e, he⟩ := Option.isSome_iff_exists.mp hline
  have hmem := List.mem_of_find?_eq_some he
  exact ⟨e, hmem, by simpa using List.find?_some he,
    counts_agree hsteady _ hmem (fun _ _ _ hsome => by cases hsome) (List.Perm.refl _)⟩

/-- The team has solved the problem for 100 points, and then it is worth 200: it is solved on the
leaderboard, and not in the progress of the team. -/
theorem counts_differ :
    ∃ db, Contest.Reachable Judge.sampleHash LeavesScores db ∧
      ∃ e ∈ getLeaderboardWithCutoff (fun _ => 0) db none,
        db.reportedSolved (getTeamProgress (db.progressRows (some e.teamId) none)) ≠ e.problemsSolved := by
  have hreach : Judge.ReachableFrom Judge.sampleHash (fun d => d = Judge.sampleStore)
      ⟨(Judge.sampleRun solvedOps).db.setMaxScore 7 200, (Judge.sampleRun solvedOps).sessions,
        (Judge.sampleRun solvedOps).log⟩ :=
    .env (Judge.sampleRun_reachableFrom (by rfl) solvedOps) (setMaxScore_catalogEdit 7 200)
  refine ⟨_, .judge (.empty Judge.sampleStore_fresh) hreach, ?_⟩
  have hline : ((getLeaderboardWithCutoff (fun _ => 0) ((Judge.sampleRun solvedOps).db.setMaxScore 7 200)
      none).any fun e => ((Judge.sampleRun solvedOps).db.setMaxScore 7 200).reportedSolved (getTeamProgress
        (((Judge.sampleRun solvedOps).db.setMaxScore 7 200).progressRows (some e.teamId) none)) ≠
          e.problemsSolved) = true := by
    decide +kernel
  obtain ⟨e, he, hne⟩ := List.any_eq_true.mp hline
  exact ⟨e, he, by simpa using hne⟩

end Labyrithm
