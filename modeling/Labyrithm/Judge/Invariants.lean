import Labyrithm.Judge.Handlers

/-!
# What holds of every store the judge can reach

Invariants of the committed store over all interleaved runs, from the one theorem `Judge.verified`:

* **`Judge.active_unique`** — one active submission for each team and problem, and the index that
  enforces it can stop nobody but `CreateSubmission`.
* **`Judge.scores_consistent`** — the score of every pair is that of its best submission.
* **`Judge.rows_wellFormed`** — every row shows what its state says and nothing else.
-/

namespace Labyrithm

open Sql Tx

variable {hash : Hash} {op : Op} {id : Uuid} {k : Pair} {r r' : Submission} {c v : Db}
  {s : Judge.State}

lemma Db.Fresh.submission (h : c.Fresh) (id : Uuid) : c.submission id = none := by
  rw [Db.submission, h.submissions]
  exact AList.lookup_empty id

lemma Db.Fresh.activeUnique (h : c.Fresh) : ActiveUnique c := by
  intro id id' r r' k hr
  rw [h.submission id] at hr
  cases hr

/-- Induction over the history of the judge, from any stores that obey the unique index. -/
theorem Judge.history {init : Db → Prop} (hinit : ∀ db, init db → ActiveUnique db)
    (P : Db → Judge.Log → Prop) (hnil : ∀ db, init db → P db [])
    (hstart : ∀ db log op, P db log → P db (.started op :: log))
    (hreply : ∀ db log op a ps, P db log → op.Replies a → P db (.replied op a ps :: log))
    (hcommit : ∀ c v log op, P c log → ActiveUnique v → Committed op c v →
      P v (.committed op c v :: log))
    (hedit : ∀ db catalog log, P db log → P { db with catalog := catalog } log)
    (hs : Judge.ReachableFrom hash init s) : P s.db s.log := by
  refine Reach.history (Judge.verified hinit) P hnil hstart hreply ?_ ?_ hs
  · exact fun c v log op hP _ hv hR => hcommit c v log op hP hv hR
  · rintro db _ log hP ⟨catalog, rfl⟩
    exact hedit db catalog log hP

/-- The same for facts about the store alone. -/
theorem Judge.store_invariant {init : Db → Prop} (hinit : ∀ db, init db → ActiveUnique db)
    (P : Db → Prop) (hnil : ∀ db, init db → P db)
    (hcommit : ∀ c v op, P c → ActiveUnique v → Committed op c v → P v)
    (hedit : ∀ (db : Db) catalog, P db → P { db with catalog := catalog })
    (hs : Judge.ReachableFrom hash init s) : P s.db :=
  Judge.history hinit (fun db _ => P db) hnil (fun _ _ _ h => h) (fun _ _ _ _ _ h _ => h)
    (fun c v _ op => hcommit c v op) (fun db catalog _ => hedit db catalog) hs

/-! ## One active submission for each team and problem -/

/-- Only an insertion brings a row into the partial unique index. -/
lemma RowStep.indexEntry {o : Option Submission} (h : RowStep op id o (some r'))
    (hk : r'.indexEntry = some k) :
    (∃ r, o = some r ∧ r.indexEntry = some k) ∨ (o = none ∧ op.inserts id r') := by
  cases h with
  | same => exact Or.inl ⟨r', rfl, hk⟩
  | update hstep => exact Or.inl ⟨_, rfl, hstep.indexEntry hk⟩
  | insert hins => exact Or.inr ⟨rfl, hins⟩

lemma indexEntry_eq_some : r.indexEntry = some k ↔ r.active ∧ r.isRejudge = false ∧ r.pair = k := by
  simp [Submission.indexEntry, and_assoc]

/-- In every reachable system a team has at most one active submission of a problem that is no
rejudge.  No handler but that of `CreateSubmission` replies with a collision in the index that
enforces this, and no commit but one of `CreateSubmission` brings a row into it. -/
theorem Judge.active_unique (hs : Judge.Reachable hash s) :
    (∀ id id' r r', s.db.submission id = some r → s.db.submission id' = some r' →
      r.active → r.isRejudge = false → r'.active → r'.isRejudge = false → r.pair = r'.pair →
      id = id') ∧
    (∀ op e ps, .replied op (.error e) ps ∈ s.log → e.constraint = some .activeTeamProblem →
      ∃ n now clock, op = .create n now clock) ∧
    (∀ op c v, .committed op c v ∈ s.log → ∀ id r', v.submission id = some r' → r'.active →
      r'.isRejudge = false →
      (∃ r, c.submission id = some r ∧ r.active ∧ r.isRejudge = false ∧ r.pair = r'.pair) ∨
        (c.submission id = none ∧ ∃ n now clock, op = .create n now clock ∧ n.id = id)) := by
  have hinit : ∀ db : Db, db.Fresh → ActiveUnique db := fun db h => h.activeUnique
  refine ⟨?_, ?_⟩
  · intro id id' r r' hr hr' ha hj ha' hj' hp
    exact (hs.good (Judge.verified hinit)).inv id id' r r' r'.pair hr hr'
      (indexEntry_eq_some.mpr ⟨ha, hj, hp⟩) (indexEntry_eq_some.mpr ⟨ha', hj', rfl⟩)
  · have hlog : ∀ e ∈ s.log, match e with
        | .started _ => True
        | .replied op a _ => op.Replies a
        | .committed op c v => Committed op c v := by
      refine Judge.history hinit (fun _ log => ∀ e ∈ log, match e with
        | .started _ => True
        | .replied op a _ => op.Replies a
        | .committed op c v => Committed op c v) (by simp) ?_ ?_ ?_ (fun _ _ _ h => h) hs
      · exact fun db log op h => List.forall_mem_cons.mpr ⟨trivial, h⟩
      · exact fun db log op a ps h ha => List.forall_mem_cons.mpr ⟨ha, h⟩
      · exact fun c v log op h _ hR => List.forall_mem_cons.mpr ⟨hR, h⟩
    refine ⟨fun op e ps he hc => ?_, fun op c v hcommit id r' hr' ha hj => ?_⟩
    · have hreply := hlog _ he
      cases op with
      | create n now clock => exact ⟨n, now, clock, rfl⟩
      | _ => exact absurd hc hreply.1
    · have hrow := (hlog _ hcommit).rows id
      rw [hr'] at hrow
      rcases hrow.indexEntry (indexEntry_eq_some.mpr ⟨ha, hj, rfl⟩) with ⟨r, hr, hk⟩ | ⟨hnone, hins⟩
      · exact Or.inl ⟨r, hr, indexEntry_eq_some.mp hk⟩
      · cases op with
        | create n now clock => exact Or.inr ⟨hnone, n, now, clock, rfl, hins.1.symm⟩
        | _ => exact hins.elim

/-- A first submission is queued; a second of the same team is turned away. -/
theorem Judge.active_unique_sample :
    ∃ s : Judge.State, Judge.Reachable sampleHash s ∧ (s.db.submission 11).isSome ∧
      s.db.submission 12 = none ∧
      ∀ id id' r r', s.db.submission id = some r → s.db.submission id' = some r' →
        r.active → r.isRejudge = false → r'.active → r'.isRejudge = false → r.pair = r'.pair →
        id = id' :=
  ⟨sampleRun [.create (sampleSubmission 11 1) 0 5, .create (sampleSubmission 12 1) 5000000 5000005],
    sampleRun_reachable _, by decide +kernel, by decide +kernel,
    (Judge.active_unique (sampleRun_reachable _)).1⟩

/-! ## The scores -/

/-- A commit of the judge keeps every score right: it leaves alone what the score depends on, or
settles it. -/
lemma Committed.consistent (h : Committed op c v) (hc : Consistent k c) : Consistent k v :=
  (h.scores k).elim hc.of_same id

/-- In every reachable system, whoever is in the middle of a transaction, the score of a pair is
absent if nothing counts for it, and else records its best submission. -/
theorem Judge.scores_consistent (hs : Judge.Reachable hash s) (k : Pair) : Consistent k s.db := by
  refine Judge.store_invariant (fun db h => h.activeUnique) (Consistent k) ?_
    (fun c v op hc _ h => h.consistent hc) ?_ hs
  · intro db h
    have hnone : ∀ id r, ¬ Counts db k id r := by
      rintro id r ⟨hr, -⟩
      rw [h.submission id] at hr
      cases hr
    have hscore : db.problemScore k = none := by
      rw [Db.problemScore, h.problemScores]
      exact AList.lookup_empty k
    exact ⟨⟨fun _ => hnone, fun _ => hscore⟩, fun s hs => by simp [hscore] at hs⟩
  · exact fun db catalog h => ⟨h.absent, h.best⟩

/-- A submission that scores 40 of 100 points, is rejected and then accepted again. -/
theorem Judge.scores_consistent_sample :
    ∃ s : Judge.State, Judge.Reachable sampleHash s ∧
      s.db.problemScore (1, 7) = some ⟨some 1, 40, some 11, 5⟩ ∧ Consistent (1, 7) s.db :=
  ⟨sampleRun [.create (sampleSubmission 11 1) 0 5, .claim "w1" 10 10 id,
      .complete (sampleJudged 11 1) "w1" 20 20, .review 11 (some 2) .rejected "copied" 30,
      .review 11 (some 2) .accepted "cleared" 40],
    sampleRun_reachable _, by decide +kernel,
    Judge.scores_consistent (sampleRun_reachable _) (1, 7)⟩

/-! ## The rows -/

/-- What the state of a submission says of the columns that claims and results fill. -/
structure Submission.WellFormed (r : Submission) : Prop where
  active : r.active → r.verdict = none ∧ r.score = 0 ∧ r.testsDone = 0 ∧ r.compileError = none ∧
    r.finishedAt = none
  queued : r.state = .queued → r.claimedBy = none ∧ r.claimedAt = none ∧ r.leaseUntil = none
  running : r.state = .running → r.claimedBy.isSome ∧ r.claimedAt.isSome ∧ r.leaseUntil.isSome
  terminal : r.state = .passed ∨ r.state = .failed →
    r.verdict.isSome ∧ r.finishedAt.isSome ∧ r.isRejudge = false

lemma Submission.active_iff : r.active ↔ r.state = .queued ∨ r.state = .running := by
  simp [Submission.active]

/-- A submission that was given up is well formed if it was active before. -/
lemma abandon_wellFormed (now : Time) : (abandon now r).WellFormed :=
  ⟨by simp [abandon_active], by simp [abandon], by simp [abandon], by simp [abandon]⟩

/-- A submission sent back for a rejudge is well formed, whatever it was. -/
lemma requeueForRejudge_wellFormed : (requeueForRejudge r).WellFormed :=
  ⟨by simp [requeueForRejudge], by simp [requeueForRejudge], by simp [requeueForRejudge],
    by simp [requeueForRejudge]⟩

/-- Every update keeps rows well formed. -/
lemma Op.Step.wellFormed (h : op.Step id r r') (hr : r.WellFormed) : r'.WellFormed := by
  cases h with
  | claim hq =>
      have := hr.active (Submission.active_iff.mpr (Or.inl hq))
      exact ⟨fun _ => this, by simp [claimUpdate], by simp [claimUpdate], by simp [claimUpdate]⟩
  | renew hlease =>
      simp only [holdsLease, decide_eq_true_eq] at hlease
      have hrun := hr.running hlease.2.2.1
      refine ⟨hr.active, ?_, fun _ => ⟨hrun.1, hrun.2.1, rfl⟩, hr.terminal⟩
      simp [renewUpdate, hlease.2.2.1]
  | @complete j =>
      rcases j.evaluated.status with hs | hs <;>
      exact ⟨by simp [completeUpdate, Submission.active, hs], by simp [completeUpdate, hs],
        by simp [completeUpdate, hs], by simp [completeUpdate, j.evaluated.verdict]⟩
  | requeue hexp =>
      exact ⟨fun _ => hr.active (active_of_expired hexp), by simp [requeueUpdate],
        by simp [requeueUpdate], by simp [requeueUpdate]⟩
  | review => exact ⟨hr.active, hr.queued, hr.running, hr.terminal⟩
  | rejudge | rejudgeProblem => exact requeueForRejudge_wellFormed
  | fail | cancel | unstick => exact abandon_wellFormed _

lemma Op.inserts.wellFormed (h : op.inserts id r) : r.WellFormed := by
  cases op with
  | create n now clock =>
      obtain ⟨-, maxScore, testsTotal, rfl⟩ := h
      exact ⟨by simp [newRow], by simp [newRow], by simp [newRow], by simp [newRow]⟩
  | _ => exact h.elim

/-- An operation keeps what every update keeps and every inserted row has. -/
lemma RowStep.forall {P : Submission → Prop} {o : Option Submission} (h : RowStep op id o (some r'))
    (hstep : ∀ r, op.Step id r r' → P r → P r') (hins : op.inserts id r' → P r')
    (ho : ∀ r, o = some r → P r) : P r' := by
  cases h with
  | same => exact ho r' rfl
  | update hs => exact hstep _ hs (ho _ rfl)
  | insert hi => exact hins hi

/-- In every reachable system a queued or running submission shows no result, a queued one no claim,
a running one its claim, and a finished one a verdict. -/
theorem Judge.rows_wellFormed (hs : Judge.Reachable hash s) (id : Uuid) (r : Submission)
    (hr : s.db.submission id = some r) :
    r.WellFormed ∧ (r.active → ∀ ordinal, s.db.test id ordinal = none) := by
  have hinv : ∀ id, TestsClear s.db id ∧ ∀ r, s.db.submission id = some r → r.WellFormed := by
    refine Judge.store_invariant (fun db h => h.activeUnique)
      (fun db => ∀ id, TestsClear db id ∧ ∀ r, db.submission id = some r → r.WellFormed) ?_ ?_
      (fun _ _ h => h) hs
    · intro db h id
      refine ⟨fun _ o => ?_, fun r hr => ?_⟩
      · rw [Db.test, h.submissionTests]
        exact AList.lookup_empty _
      · rw [h.submission id] at hr
        cases hr
    · intro c v op hc _ h id
      refine ⟨h.tests id (hc id).1, fun r hr => ?_⟩
      have hrow := h.rows id
      rw [hr] at hrow
      exact hrow.forall (fun _ hstep => hstep.wellFormed) (fun hins => hins.wellFormed) (hc id).2
  refine ⟨(hinv id).2 r hr, fun hactive => (hinv id).1 fun r' hr' => ?_⟩
  rw [hr, Option.some.injEq] at hr'
  exact hr' ▸ hactive

/-- A submission that was judged and is running again, for a rejudge. -/
theorem Judge.rows_wellFormed_sample :
    ∃ s : Judge.State, Judge.Reachable sampleHash s ∧
      ∃ r, s.db.submission 11 = some r ∧ r.state = .running ∧ r.isRejudge ∧
        r.WellFormed ∧ (r.active → ∀ ordinal, s.db.test 11 ordinal = none) := by
  let s := sampleRun [.create (sampleSubmission 11 1) 0 5, .claim "w1" 10 10 id,
    .complete (sampleJudged 11 1) "w1" 20 20, .rejudge 11, .claim "w2" 40 40 id]
  obtain ⟨r, hr⟩ : ∃ r, s.db.submission 11 = some r :=
    Option.isSome_iff_exists.mp (by decide +kernel)
  have hstate : (s.db.submission 11).all fun r => r.state = .running ∧ r.isRejudge := by
    decide +kernel
  simp only [hr, Option.all_some, decide_eq_true_eq] at hstate
  exact ⟨s, sampleRun_reachable _, r, hr, hstate.1, hstate.2,
    Judge.rows_wellFormed (sampleRun_reachable _) 11 r hr⟩

end Labyrithm
