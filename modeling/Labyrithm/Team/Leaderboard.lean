import Labyrithm.Judge.Scores
import Labyrithm.Sql.Aggregate

/-!
# The leaderboard

`backend/internal/team/leaderboard.go`.  Without a cutoff the board is computed from
`problem_scores`; with one, from the submissions up to it.  Both queries aggregate, for each team, one
standing for each problem, and sort and rank alike.

* `Faithful` — the score row of a pair puts on the board what the submissions put there.
* `leaderboards_agree` — when every score row does, the live board is the board frozen at any time no
  earlier than the last submission.
-/

namespace Labyrithm

open Sql

/-- What one problem contributes to a team's line. -/
structure ProblemStanding where
  problemId : Uuid
  score : ℤ
  maxScore : Option ℤ
  createdAt : Option Time
  deriving DecidableEq

structure LeaderboardEntry where
  teamId : Uuid
  teamName : String
  totalScore : ℤ
  problemsSolved : ℕ
  lastSubmissionAt : Option Time
  rank : ℕ
  deriving DecidableEq

/-- `p.published`, false when there is no such problem. -/
def Db.published (db : Db) (problemId : Uuid) : Bool :=
  (db.catalog.problems.lookup problemId).any Problem.published

/-! ## The live query -/

/-- The rows `ps`, `p`, `s` of the live query for one team, where `p.published`. -/
def Db.liveStandings (db : Db) (teamId : Uuid) : List ProblemStanding :=
  (db.problemScores.rows.filter fun p => p.1.1 = teamId ∧ db.published p.1.2).map fun p =>
    let s := p.2.bestSubmissionId.bind db.submission
    ⟨p.1.2, p.2.bestScore, s.map Submission.maxScore, s.map Submission.createdAt⟩

/-! ## The frozen query -/

/-- The row `DISTINCT ON (s.team_id, s.problem_id)` keeps of the pair `k`. -/
def Db.frozenBest (db : Db) (cutoff : Time) (k : Pair) : Option (Uuid × Submission) :=
  first scoreOrder (db.submissions.rows.filter fun p => p.2.pair = k ∧ db.published p.2.problemId ∧
    p.2.createdAt ≤ cutoff ∧ p.2.state = .passed ∧ p.2.reviewStatus = .accepted)

/-- The rows of `team_problem_scores` for one team. -/
def Db.frozenStandings (db : Db) (cutoff : Time) (teamId : Uuid) : List ProblemStanding :=
  ((db.submissions.rows.filter fun p => p.2.teamId = teamId).map
    fun p => p.2.problemId).dedup.filterMap fun problemId =>
      (db.frozenBest cutoff (teamId, problemId)).map fun s =>
        ⟨problemId, s.2.score, some s.2.maxScore, some s.2.createdAt⟩

/-! ## The board -/

/-- One line of the board, not ranked yet. -/
def leaderboardEntry (teamId : Uuid) (team : Team) (l : List ProblemStanding) : LeaderboardEntry where
  teamId := teamId
  teamName := team.name
  totalScore := sumOf ProblemStanding.score l
  problemsSolved :=
    countDistinct (fun s => 0 < s.score ∧ s.maxScore.any (· ≤ s.score)) ProblemStanding.problemId l
  lastSubmissionAt := maxOf (fun s => 0 < s.score) ProblemStanding.createdAt l
  rank := 0

/-- `last_submission_at ASC NULLS LAST`: `a` comes strictly before `b`. -/
def beforeNullsLast : Option Time → Option Time → Bool
  | some a, some b => a < b
  | some _, none => true
  | none, _ => false

/-- `ORDER BY total_score DESC, last_submission_at ASC NULLS LAST, t.name ASC`; `collation` is the
order of the database on names. -/
def boardOrder (collation : String → ℕ) (a b : LeaderboardEntry) : Bool :=
  b.totalScore < a.totalScore ∨ (a.totalScore = b.totalScore ∧
    (beforeNullsLast a.lastSubmissionAt b.lastSubmissionAt ∨
      (a.lastSubmissionAt = b.lastSubmissionAt ∧ collation a.teamName ≤ collation b.teamName)))

/-- `isTie`: the same total and the same last submission. -/
def isTie (curr prev : LeaderboardEntry) : Bool :=
  curr.totalScore = prev.totalScore ∧ curr.lastSubmissionAt = prev.lastSubmissionAt

/-- The loop of `assignLeaderboardRanks` from the entry `i` on. -/
def assignRanksFrom (i currentRank : ℕ) (prev : LeaderboardEntry) :
    List LeaderboardEntry → List LeaderboardEntry
  | [] => []
  | curr :: rest =>
      let rank := if isTie curr prev then currentRank else i + 1
      { curr with rank := rank } :: assignRanksFrom (i + 1) rank curr rest

def assignLeaderboardRanks : List LeaderboardEntry → List LeaderboardEntry
  | [] => []
  | e :: rest => { e with rank := 1 } :: assignRanksFrom 1 1 e rest

def getLeaderboardWithCutoff (collation : String → ℕ) (db : Db) (cutoff : Option Time) :
    List LeaderboardEntry :=
  let standings := match cutoff with
    | none => db.liveStandings
    | some t => db.frozenStandings t
  assignLeaderboardRanks <|
    (db.catalog.teams.rows.map fun t => leaderboardEntry t.1 t.2 (standings t.1)).insertionSort
      fun a b => boardOrder collation a b

/-! ## Agreement -/

variable {db : Db} {k : Pair} {teamId problemId : Uuid} {cutoff : Time} {s : ProblemStanding}

/-- The recorded score is 0, and so is all that counts for the pair, whichever submission the row
names. -/
def Orphaned (k : Pair) (db : Db) : Prop :=
  (∃ row, db.problemScore k = some row ∧ row.bestScore = 0) ∧ ∀ id r, Counts db k id r → r.score = 0

/-- The score row of `k` puts on the board what the submissions put there. -/
def Faithful (k : Pair) (db : Db) : Prop := Consistent k db ∨ Orphaned k db

/-- A line depends on the standings with a nonzero score only, and not on their order. -/
lemma leaderboardEntry_congr {l l' : List ProblemStanding} (team : Team)
    (h : (l.filter fun s => s.score ≠ 0).Perm (l'.filter fun s => s.score ≠ 0)) :
    leaderboardEntry teamId team l = leaderboardEntry teamId team l' := by
  have hsum : ∀ s : ProblemStanding, (decide (s.score ≠ 0)) = false → s.score = 0 := by simp
  have hpos : ∀ s : ProblemStanding, 0 < s.score → s.score ≠ 0 := fun s hs => hs.ne'
  simp only [leaderboardEntry, LeaderboardEntry.mk.injEq, true_and, and_true]
  refine ⟨?_, ?_, ?_⟩
  · rw [← sumOf_filter _ hsum, sumOf_perm _ h, sumOf_filter _ hsum]
  · rw [← countDistinct_filter (q := fun s => decide (s.score ≠ 0)), countDistinct_perm _ _ h,
      countDistinct_filter] <;> simpa using fun s hs _ => hpos s hs
  · rw [← maxOf_filter (q := fun s => decide (s.score ≠ 0)), maxOf_perm _ _ h, maxOf_filter] <;>
      simpa using hpos

lemma liveStandings_nodup (db : Db) (teamId : Uuid) : (db.liveStandings teamId).Nodup := by
  refine List.Nodup.map_on ?_ (db.problemScores.rows_nodup_keys.of_map.filter _)
  rintro ⟨⟨t, p⟩, row⟩ hx ⟨⟨t', p'⟩, row'⟩ hy heq
  simp only [List.mem_filter, Table.mem_rows, decide_eq_true_eq] at hx hy
  simp only [ProblemStanding.mk.injEq] at heq
  obtain ⟨hrow, rfl, -⟩ := hx
  obtain ⟨hrow', rfl, -⟩ := hy
  obtain rfl := heq.1
  rw [hrow, Option.some.injEq] at hrow'
  rw [hrow']

lemma frozenStandings_nodup (db : Db) (cutoff : Time) (teamId : Uuid) :
    (db.frozenStandings cutoff teamId).Nodup := by
  refine (List.nodup_dedup _).filterMap ?_
  intro p p' s hs hs'
  simp only [Option.mem_def, Option.map_eq_some_iff] at hs hs'
  obtain ⟨_, _, heq⟩ := hs
  obtain ⟨_, _, heq'⟩ := hs'
  exact congrArg ProblemStanding.problemId (heq.trans heq'.symm)

lemma mem_liveStandings : s ∈ db.liveStandings teamId ↔ db.published s.problemId ∧
    ∃ row, db.problemScore (teamId, s.problemId) = some row ∧ s.score = row.bestScore ∧
      s.maxScore = (row.bestSubmissionId.bind db.submission).map Submission.maxScore ∧
      s.createdAt = (row.bestSubmissionId.bind db.submission).map Submission.createdAt := by
  obtain ⟨problemId, score, maxScore, createdAt⟩ := s
  simp only [Db.liveStandings, List.mem_map, List.mem_filter, Prod.exists, Table.mem_rows,
    decide_eq_true_eq, ProblemStanding.mk.injEq]
  constructor
  · rintro ⟨t, p, row, ⟨hrow, rfl, hpub⟩, rfl, rfl, rfl, rfl⟩
    exact ⟨hpub, row, hrow, rfl, rfl, rfl⟩
  · rintro ⟨hpub, row, hrow, rfl, rfl, rfl⟩
    exact ⟨teamId, problemId, row, ⟨hrow, rfl, hpub⟩, rfl, rfl, rfl, rfl⟩

/-- Once every passed submission is finished and none is later than the cutoff, the frozen query
picks the best submission of each published problem. -/
lemma frozenBest_eq (hfinished : ∀ id r, db.submission id = some r → r.state = .passed →
      r.finishedAt.isSome) (hcutoff : ∀ id r, db.submission id = some r → r.createdAt ≤ cutoff)
    (k : Pair) : db.frozenBest cutoff k = if db.published k.2 then db.bestSubmission k else none := by
  split_ifs with hpub
  · refine congrArg (first scoreOrder) (List.filter_congr ?_)
    rintro ⟨id, r⟩ hr
    have hr : db.submission id = some r := Table.mem_rows.mp hr
    have hf := hfinished id r hr
    have hc := hcutoff id r hr
    refine decide_eq_decide.mpr ⟨?_, ?_⟩
    · rintro ⟨rfl, -, -, hp, ha⟩
      exact ⟨rfl, decide_eq_true ⟨hp, ha, hf hp⟩⟩
    · rintro ⟨rfl, hs⟩
      simp only [Submission.scoring, decide_eq_true_eq] at hs
      exact ⟨rfl, hpub, hc, hs.1, hs.2.1⟩
  · rw [Db.frozenBest, first_eq_none, List.filter_eq_nil_iff]
    rintro ⟨id, r⟩ -
    simp only [decide_eq_true_eq]
    rintro ⟨rfl, hp, -⟩
    exact hpub hp

lemma mem_frozenStandings : s ∈ db.frozenStandings cutoff teamId ↔
    ∃ id r, db.frozenBest cutoff (teamId, s.problemId) = some (id, r) ∧ s.score = r.score ∧
      s.maxScore = some r.maxScore ∧ s.createdAt = some r.createdAt := by
  obtain ⟨problemId, score, maxScore, createdAt⟩ := s
  simp only [Db.frozenStandings, List.mem_filterMap, List.mem_dedup, List.mem_map, List.mem_filter,
    Prod.exists, Table.mem_rows, decide_eq_true_eq, Option.map_eq_some_iff, ProblemStanding.mk.injEq]
  constructor
  · rintro ⟨p, -, id, r, hbest, rfl, rfl, rfl, rfl⟩
    exact ⟨id, r, hbest, rfl, rfl, rfl⟩
  · rintro ⟨id, r, hbest, rfl, rfl, rfl⟩
    have hmem := first_mem hbest
    simp only [List.mem_filter, Table.mem_rows, decide_eq_true_eq, Submission.pair,
      Prod.mk.injEq] at hmem
    exact ⟨problemId, ⟨id, r, ⟨hmem.1, hmem.2.1.1⟩, hmem.2.1.2⟩, id, r, hbest, rfl, rfl, rfl, rfl⟩

/-- When every score row is faithful, the live board is the frozen board. -/
theorem leaderboards_agree (hfaithful : ∀ k, Faithful k db)
    (hfinished : ∀ id r, db.submission id = some r → r.state = .passed → r.finishedAt.isSome)
    (hcutoff : ∀ id r, db.submission id = some r → r.createdAt ≤ cutoff) (collation : String → ℕ) :
    getLeaderboardWithCutoff collation db none = getLeaderboardWithCutoff collation db (some cutoff) := by
  have hline : ∀ teamId team, leaderboardEntry teamId team (db.liveStandings teamId)
      = leaderboardEntry teamId team (db.frozenStandings cutoff teamId) := by
    intro teamId team
    refine leaderboardEntry_congr team ((List.perm_ext_iff_of_nodup
      ((liveStandings_nodup db teamId).filter _) ((frozenStandings_nodup db cutoff teamId).filter _)).mpr
      fun s => ?_)
    simp only [List.mem_filter, decide_eq_true_eq, mem_liveStandings, mem_frozenStandings,
      frozenBest_eq hfinished hcutoff, Option.ite_none_right_eq_some]
    refine and_congr_left fun hs => ?_
    rcases hfaithful (teamId, s.problemId) with hcons | ⟨⟨row, hrow, hzero⟩, hcounts⟩
    · rw [consistent_iff.mp hcons]
      constructor
      · rintro ⟨hpub, row, hrow, hscore, hmax, hat⟩
        obtain ⟨⟨id, r⟩, hbest, rfl⟩ := Option.map_eq_some_iff.mp hrow
        have hr : db.submission id = some r := (bestSubmission_eq_some.mp hbest).1.1
        exact ⟨id, r, ⟨hpub, hbest⟩, hscore, by simpa [scoreRow, hr] using hmax,
          by simpa [scoreRow, hr] using hat⟩
      · rintro ⟨id, r, ⟨hpub, hbest⟩, hscore, hmax, hat⟩
        have hr : db.submission id = some r := (bestSubmission_eq_some.mp hbest).1.1
        exact ⟨hpub, scoreRow (id, r), by rw [hbest, Option.map_some], hscore,
          by simp [scoreRow, hr, hmax], by simp [scoreRow, hr, hat]⟩
    · constructor
      · rintro ⟨-, row', hrow', hscore, -⟩
        rw [hrow, Option.some.injEq] at hrow'
        subst hrow'
        exact absurd (hscore.trans hzero) hs
      · rintro ⟨id, r, ⟨-, hbest⟩, hscore, -⟩
        exact absurd (hscore.trans (hcounts id r (bestSubmission_eq_some.mp hbest).1)) hs
  simp only [getLeaderboardWithCutoff, hline]

end Labyrithm
