import Labyrithm.Judge.StatementRules

/-!
# Every handler keeps the protocol

The handlers of `System.lean`, each walked through once with the rules of `StatementRules.lean`.

* `Judge.verified` — all of them keep the unique index, commit only `Committed` steps, and never
  fail on a collision that the locks rule out (`CreateSubmission` apart, which may meet the unique
  index of active submissions).

The theorems about the judge's runs rest on this one alone.
-/

namespace Labyrithm

open Sql Tx

variable {hash : Hash} {op : Op} {S : List (Uuid × Submission)} {H : List Lock}
  {ws : List Write} {c : Db} {id : Uuid} {α β : Type}

/-- Nothing is left to be settled. -/
abbrev Settled (hash : Hash) (op : Op) (S : List (Uuid × Submission)) : Assert Db Write Lock :=
  Ok hash op (fun _ => False) (fun _ => False) S

lemma start_settled (c : Db) : Settled hash op [] H [] c := Ok.start

/-- The handler may be started at any time, and fails only harmlessly. -/
abbrev Keeps (hash : Hash) (op : Op) (t : Handler α) : Prop :=
  ∀ c, ActiveUnique c →
    Ensures (protocol hash) (Committed op) t (fun _ _ _ _ => True) Harmless [] [] c

/-- Commit, once everything is settled. -/
lemma finish_ensures {k : Unit → Handler β} {Q : β → Assert Db Write Lock}
    (hins : ∀ id r, ¬ op.inserts id r) (h : Settled hash op S H ws c)
    (hach : ∀ c', (protocol hash).Rely H c c' → op.Achieved c' (view ws c'))
    (hk : ∀ c', ActiveUnique c' → Ensures (protocol hash) (Committed op) (k ()) Q Harmless [] [] c') :
    Ensures (protocol hash) (Committed op) (finish >>= k) Q Harmless H ws c :=
  Ensures.finish (fun c' hc => (h.stable hc).committed hins hc.1 (hach c' hc)) hk

/-- Commit as the last statement. -/
lemma finish_last (hins : ∀ id r, ¬ op.inserts id r) (h : Settled hash op S H ws c)
    (hach : ∀ c', (protocol hash).Rely H c c' → op.Achieved c' (view ws c')) :
    Ensures (protocol hash) (Committed op) (finish : Handler Unit) (fun _ _ _ _ => True) Harmless
      H ws c :=
  fun c' hc => ⟨(h.stable hc).committed hins hc.1 (hach c' hc), fun _ _ _ _ => trivial⟩

/-- A transaction whose body keeps the protocol. -/
lemma Keeps.transaction {body : Handler α} (h : Keeps hash op body) :
    Keeps hash op (transaction body) :=
  fun c hc => Ensures.transaction hc (h c hc)

/-- What a handler answers does not matter to the protocol. -/
lemma Keeps.answer {t : Handler α} (h : Keeps hash op t) (f : α → β) :
    Keeps hash op (do return f (← t)) :=
  fun c hc => Ensures.seq hc (h c hc) fun _ _ _ _ _ _ => Ensures.pure fun _ _ => trivial

lemma harmless_of_constraint {e : JudgeError} (h : e.constraint = none) : Harmless e := by
  simp [Harmless, h]

/-! ## One `UPDATE` and the bookkeeping -/

lemma scoring_of_active {r : Submission} (h : r.active) : r.scoring = false := by
  simp only [Submission.active, Submission.scoring, decide_eq_true_eq, decide_eq_false_iff_not] at *
  rintro ⟨hp, -⟩
  simp [hp] at h

lemma abandon_scoring (now : Time) (r : Submission) : (abandon now r).scoring = false := by
  simp [abandon, Submission.scoring]

lemma abandon_active (now : Time) (r : Submission) : (abandon now r).active = false := by
  simp [abandon, Submission.active]

lemma active_of_expired {now : Time} {r : Submission} (h : expired now r) : r.active := by
  simp only [expired, decide_eq_true_eq] at h
  simp [Submission.active, h.1]

/-- An `UPDATE` that takes active rows to rows that do not count, and makes no row active, leaves
nothing to be settled. -/
lemma updateSubmissions_settled {u : Update} {context : String} (hins : ∀ id r, ¬ op.inserts id r)
    (h : Settled hash op S H ws c) (hstep : ∀ id r, u.applies id r → op.Step id r (u.set r))
    (hbefore : ∀ id r, u.applies id r → r.active)
    (hafter : ∀ id r, u.applies id r → (u.set r).scoring = false) :
    Ensures (protocol hash) (Committed op) (updateSubmissions context u)
      (fun rows => Settled hash op (S ++ rows)) Harmless H ws c := by
  refine (updateSubmissions_ensures False False hins h hstep ?_ ?_).mono ?_
  · exact fun id r happ => Or.inr ⟨scoring_of_active (hbefore id r happ), hafter id r happ⟩
  · exact fun id r happ => Or.inr fun _ => hbefore id r happ
  · exact fun rows H ws c ok => ok.weaken (by simp [alsoPairs]) (by simp [alsoTests]) fun p hp => hp

/-- The bookkeeping after it. -/
lemma reconcile_settled {rows : List (Uuid × Submission)} (hinv : ActiveUnique c)
    (h : Settled hash op (S ++ rows) H ws c) :
    Ensures (protocol hash) (Committed op) (reconcileSubmissionChanges hash rows)
      (fun _ => Settled hash op (S ++ rows)) Harmless H ws c := by
  have h' : Ok hash op (alsoPairs (fun _ => False) False rows) (alsoTests (fun _ => False) False rows)
      (S ++ rows) H ws c := h.weaken (by simp) (by simp) fun p hp => hp
  exact (reconcile_ensures hinv h').mono fun _ _ _ _ ok => ok.2

theorem reclaimExpiredLeases_keeps (now : Time) :
    Keeps hash (.reap now) (reclaimExpiredLeases hash now) := by
  refine Keeps.transaction fun c hc => ?_
  have hins : ∀ id r, ¬ (Op.reap now).inserts id r := fun _ _ h => h
  refine Ensures.seq hc (updateSubmissions_settled hins Ok.start ?_ ?_ ?_) ?_
  · intro id r happ
    simp only [requeueUpdate, decide_eq_true_eq] at happ
    exact .requeue happ.1 happ.2
  · intro id r happ
    simp only [requeueUpdate, decide_eq_true_eq] at happ
    exact active_of_expired happ.1
  · exact fun id r _ => scoring_of_active rfl
  intro requeued H₁ ws₁ c₁ hc₁ ok₁
  refine Ensures.seq hc₁ (updateSubmissions_settled hins ok₁ ?_ ?_ ?_) ?_
  · intro id r happ
    simp only [failUpdate, decide_eq_true_eq] at happ
    exact .fail happ.1 happ.2
  · intro id r happ
    simp only [failUpdate, decide_eq_true_eq] at happ
    exact active_of_expired happ.1
  · exact fun id r _ => abandon_scoring now r
  intro failed H₂ ws₂ c₂ hc₂ ok₂
  refine Ensures.seq hc₂ (reconcile_settled hc₂ ok₂) fun n H₃ ws₃ c₃ _ ok₃ => ?_
  exact finish_ensures hins ok₃ (fun _ _ => trivial) fun _ _ _ _ => trivial

/-- A cancellation or an unstick: end the active rows, settle, and finish or fail. -/
lemma abandon_keeps {now : Time} {u : Update} {context : String} {rest : ℕ → Handler α}
    (hins : ∀ id r, ¬ op.inserts id r)
    (hset : u.set = abandon now) (hstep : ∀ id r, u.applies id r → op.Step id r (u.set r))
    (hactive : ∀ id r, u.applies id r → r.active)
    (hrest : ∀ n S H ws c, ActiveUnique c → Settled hash op S H ws c →
      Ensures (protocol hash) (Committed op) (rest n) (fun _ _ _ _ => True) Harmless H ws c) :
    Keeps hash op (do
      let rows ← updateSubmissions context u
      let n ← reconcileSubmissionChanges hash rows
      rest n) := by
  intro c hc
  refine Ensures.seq hc (updateSubmissions_settled hins Ok.start hstep hactive ?_) ?_
  · exact fun id r _ => hset ▸ abandon_scoring now r
  intro rows H₁ ws₁ c₁ hc₁ ok₁
  refine Ensures.seq hc₁ (reconcile_settled hc₁ ok₁) fun n H₂ ws₂ c₂ hc₂ ok₂ => ?_
  exact hrest n _ H₂ ws₂ c₂ hc₂ ok₂

theorem cancelSubmission_keeps (id : Uuid) (now : Time) :
    Keeps hash (.cancel id now) (cancelSubmission hash id now) := by
  have hins : ∀ id' r, ¬ (Op.cancel id now).inserts id' r := fun _ _ h => h
  refine Keeps.transaction (abandon_keeps hins rfl ?_ ?_ ?_)
  · intro id' r happ
    simp only [cancelUpdate, decide_eq_true_eq] at happ
    obtain ⟨rfl, hactive⟩ := happ
    exact .cancel hactive
  · intro id' r happ
    simp only [cancelUpdate, decide_eq_true_eq] at happ
    exact happ.2
  · intro n S H ws c _ ok
    by_cases hn : n = 0
    · simp only [hn, if_true]
      exact Ensures.throw (harmless_of_constraint rfl)
    · simp only [hn, if_false]
      exact finish_last hins ok fun _ _ => trivial

theorem unstickTeamSubmissions_keeps (teamId : Uuid) (now : Time) :
    Keeps hash (.unstick teamId now) (unstickTeamSubmissions hash teamId now) := by
  have hins : ∀ id' r, ¬ (Op.unstick teamId now).inserts id' r := fun _ _ h => h
  refine Keeps.transaction (abandon_keeps hins rfl ?_ ?_ ?_)
  · intro id r happ
    simp only [unstickUpdate, decide_eq_true_eq] at happ
    exact .unstick happ.1 happ.2
  · intro id r happ
    simp only [unstickUpdate, decide_eq_true_eq] at happ
    exact happ.2
  · exact fun n S H ws c _ ok =>
      finish_last hins ok fun _ _ => trivial

/-! ## The rejudges -/

/-- A rejudge takes rows that may count back to the queue, and settles what they leave. -/
lemma rejudge_keeps {u : Update} {context : String} {rest : ℕ → Handler α}
    (hins : ∀ id r, ¬ op.inserts id r)
    (hstep : ∀ id r, u.applies id r → op.Step id r (u.set r))
    (hrest : ∀ n S H ws c, ActiveUnique c → Settled hash op S H ws c →
      Ensures (protocol hash) (Committed op) (rest n) (fun _ _ _ _ => True) Harmless H ws c) :
    Keeps hash op (do
      let rows ← updateSubmissions context u
      let n ← reconcileSubmissionChanges hash rows
      rest n) := by
  intro c hc
  refine Ensures.seq hc (updateSubmissions_ensures True True hins Ok.start hstep
    (fun _ _ _ => Or.inl trivial) fun _ _ _ => Or.inl trivial) ?_
  intro rows H₁ ws₁ c₁ hc₁ ok₁
  refine Ensures.seq hc₁ (reconcile_ensures hc₁ ok₁) ?_
  rintro n H₂ ws₂ c₂ hc₂ ⟨-, ok₂⟩
  exact hrest n _ H₂ ws₂ c₂ hc₂ ok₂

theorem rejudgeSubmission_keeps (id : Uuid) :
    Keeps hash (.rejudge id) (rejudgeSubmission hash id) := by
  have hins : ∀ id' r, ¬ (Op.rejudge id).inserts id' r := fun _ _ h => h
  refine Keeps.transaction (rejudge_keeps hins ?_ ?_)
  · intro id' r happ
    simp only [rejudgeUpdate, decide_eq_true_eq] at happ
    subst happ
    exact .rejudge
  · intro n S H ws c _ ok
    by_cases hn : n = 0
    · simp only [hn, if_true]
      exact Ensures.throw (harmless_of_constraint rfl)
    · simp only [hn, if_false]
      exact finish_last hins ok fun _ _ => trivial

theorem rejudgeProblemSubmissions_keeps (problemId : Uuid) :
    Keeps hash (.rejudgeProblem problemId) (rejudgeProblemSubmissions hash problemId) := by
  have hins : ∀ id' r, ¬ (Op.rejudgeProblem problemId).inserts id' r := fun _ _ h => h
  refine Keeps.transaction (rejudge_keeps hins ?_ ?_)
  · intro id r happ
    simp only [rejudgeProblemUpdate, decide_eq_true_eq, Bool.not_eq_true'] at happ
    exact .rejudgeProblem happ.1 happ.2
  · exact fun n S H ws c _ ok =>
      finish_ensures hins ok (fun _ _ => trivial) fun _ _ _ _ => trivial

/-! ## The lease -/

theorem renewLease_keeps (submissionId : Uuid) (workerId : ClaimId) (now clock : Time) :
    Keeps hash (.renew submissionId workerId now clock)
      (renewLease submissionId workerId now clock) := by
  have hins : ∀ id r, ¬ (Op.renew submissionId workerId now clock).inserts id r := fun _ _ h => h
  have hactive : ∀ id r, holdsLease submissionId workerId now id r → r.active := by
    intro id r happ
    simp only [holdsLease, decide_eq_true_eq] at happ
    simp [Submission.active, happ.2.2.1]
  intro c hc
  refine Ensures.seq (P := fun _ _ _ _ => True) hc (Ensures.transaction hc ?_) ?_
  · refine Ensures.seq hc (updateSubmissions_settled hins Ok.start (fun _ _ => .renew) hactive ?_) ?_
    · exact fun id r happ => scoring_of_active (hactive id r happ)
    · intro rows H₁ ws₁ c₁ _ ok₁
      exact finish_ensures hins ok₁ (fun _ _ => trivial) fun _ _ _ _ => trivial
  · intro rows H₁ ws₁ c₁ _ _
    cases rows with
    | nil => exact Ensures.throw (harmless_of_constraint rfl)
    | cons p rows => exact Ensures.pure fun _ _ => trivial

/-- `FOR UPDATE SKIP LOCKED LIMIT 1` writes nothing, and what it returns is a queued row it has
locked. -/
lemma claimFirst_ensures (ids : List Uuid) :
    Ensures (protocol hash) (Committed op) (claimFirst ids)
      (fun a H' ws' c' => ws' = [] ∧ ∀ id r p, a = some (id, r, p) →
        Lock.submission id ∈ H' ∧ c'.submission id = some r ∧ r.state = .queued)
      Harmless H [] c := by
  induction ids generalizing H c with
  | nil => exact Ensures.pure fun _ _ => ⟨rfl, by simp⟩
  | cons id ids ih =>
      refine Ensures.tryAcquire (fun c₁ h₁ => ?_) fun c₁ _ => ih
      refine Ensures.select fun c₂ h₂ => ?_
      simp only [view_nil]
      cases hrow : c₂.claimable id with
      | none => exact ih
      | some rp =>
          obtain ⟨r, p⟩ := rp
          refine Ensures.pure fun c₃ h₃ => ⟨rfl, ?_⟩
          simp only [Option.some.injEq, Prod.mk.injEq]
          rintro _ _ _ ⟨rfl, rfl, rfl⟩
          rw [Db.claimable] at hrow
          cases hr : c₂.submission id with
          | none => simp [hr] at hrow
          | some r' =>
              simp only [hr] at hrow
              split_ifs at hrow with hq
              obtain ⟨_, -, hp⟩ := Option.map_eq_some_iff.mp hrow
              obtain ⟨rfl, -⟩ := Prod.mk.inj hp
              exact ⟨by simp, (rely_row h₃ (by simp)).trans hr, hq⟩

theorem claimNextSubmission_keeps (workerId : ClaimId) (now clock : Time) (ties : Uuid → ℕ) :
    Keeps hash (.claim workerId now clock ties) (claimNextSubmission workerId now clock ties) := by
  have hins : ∀ id r, ¬ (Op.claim workerId now clock ties).inserts id r := fun _ _ h => h
  refine Keeps.transaction fun c hc => Ensures.select fun c₁ h₁ => ?_
  refine Ensures.seq h₁.1 (claimFirst_ensures _) ?_
  rintro a H₂ ws₂ c₂ hc₂ ⟨rfl, hrow⟩
  rcases a with - | ⟨id, s, p⟩
  · exact Ensures.throw (harmless_of_constraint rfl)
  obtain ⟨hlock, hs, hqueued⟩ := hrow id s p rfl
  refine Ensures.seq hc₂ (updateRow_ensures hins (start_settled _) ?_) ?_
  · intro c' r hc' hr _
    have : r = s := Option.some.inj (hr.symm.trans ((rely_row hc' hlock).trans hs))
    exact .claim (this ▸ hqueued)
  intro b H₃ ws₃ c₃ _ hupd
  cases b with
  | none => exact Ensures.throw (harmless_of_constraint rfl)
  | some q =>
      obtain ⟨rfl, hlock₃, r, hr, -, rfl⟩ := hupd.some q rfl
      obtain rfl : r = s :=
        Option.some.inj (hr.symm.trans ((rely_row hupd.rely hlock).trans hs))
      have hstep : (Op.claim workerId now clock ties).Step id r
          ((claimUpdate id workerId now (clock + leaseDuration)).set r) := .claim hqueued
      have hactive : r.active := by simp [Submission.active, hqueued]
      have ok₃ := hupd.ok.putRow hlock₃ hr hstep (fun _ hk => hk) (fun _ hi => hi)
        (Or.inr ⟨scoring_of_active hactive, scoring_of_active rfl⟩) (Or.inr fun _ => hactive)
      refine finish_ensures hins ok₃ (fun c₄ h₄ => ?_) fun _ _ => Ensures.pure fun _ _ => trivial
      refine ⟨id, r, (rely_row h₄ hlock₃).trans hr, hqueued, ?_, fun id' hne => ?_⟩
      · rw [view_putSubmission, if_pos rfl]
      · rw [view_putSubmission, if_neg hne.symm, view_nil]

/-! ## The completion -/

/-- A test row of a submission that is over. -/
lemma Ok.putTest {D : Pair → Prop} {E : Uuid → Prop} {ordinal : ℤ} {t : SubmissionTest}
    {r : Submission} (h : Ok hash op D E S H ws c) (hlock : Lock.submission id ∈ H)
    (hr : (view ws c).submission id = some r) (hover : r.active = false) :
    Ok hash op D E S H (ws ++ [.putTest id ordinal t]) c := by
  refine h.putOther (fun _ _ => rfl) ?_ (fun _ hk => hk) (by simp [Write.pair]) fun i hi => ?_
  · simp only [Write.submissionId, Option.some.injEq]
    rintro i rfl
    exact hlock
  · by_cases hid : id = i
    · subst hid
      refine Or.inr fun hrow => absurd (hrow r ?_) (by simp [hover])
      rw [view_append_singleton, Db.submission_apply, Write.onSubmission]
      · exact hr
      · exact fun _ _ h => by cases h
    · exact Or.inl ⟨hi, fun o t => by simp [Write.onTest, hid]⟩

lemma insertTest_ensures {D : Pair → Prop} {E : Uuid → Prop} {p : Uuid × Submission}
    (t : ℤ × SubmissionTest) (h : Ok hash op D E S H ws c) (hp : p ∈ S)
    (hover : p.2.active = false) :
    Ensures (protocol hash) (Committed op) (insertTest p.1 t) (fun _ => Ok hash op D E S) Harmless
      H ws c := by
  unfold insertTest
  refine Ensures.select fun c₁ h₁ => ?_
  have ok₁ := h.stable h₁
  obtain ⟨hlock, hview, -⟩ := ok₁.changed p hp
  by_cases htaken : ((view ws c₁).test p.1 t.1).isSome
  · simp only [htaken, if_true]
    exact Ensures.throw (by simp [Harmless, JudgeError.constraint])
  · simp only [htaken]
    exact fun c₂ h₂ c₃ h₃ => (ok₁.putTest hlock hview hover).stable (h₂.trans h₃)

theorem completeSubmissionTx_keeps (j : Judged) (workerId : ClaimId) (now clock : Time) :
    Keeps hash (.complete j workerId now clock)
      (completeSubmissionTx hash j.result workerId now clock) := by
  have hins : ∀ id r, ¬ (Op.complete j workerId now clock).inserts id r := fun _ _ h => h
  have hheld : ∀ id r, holdsLease j.result.submissionId workerId now id r →
      id = j.result.submissionId ∧ r.state = .running := by
    intro id r happ
    simp only [holdsLease, decide_eq_true_eq] at happ
    exact ⟨happ.1, happ.2.2.1⟩
  have hover : ∀ r, ((completeUpdate j.result workerId now clock).set r).active = false := by
    intro r
    rcases j.evaluated.status with hs | hs <;> simp [completeUpdate, Submission.active, hs]
  refine Keeps.transaction fun c hc => ?_
  refine Ensures.seq hc (updateSubmissions_ensures True False hins Ok.start (fun _ _ => .complete)
    (fun _ _ _ => Or.inl trivial) fun id r _ => Or.inr fun h => by simp [hover r] at h) ?_
  intro rows H₁ ws₁ c₁ hc₁ ok₁
  rcases hrows : rows with - | ⟨⟨id, r⟩, rest⟩
  · exact Ensures.throw (harmless_of_constraint rfl)
  rw [← hrows]
  have hisEmpty : rows.isEmpty = false := by simp [hrows]
  simp only [hisEmpty, Bool.false_eq_true, if_false]
  have hmem : (id, r) ∈ rows := by simp [hrows]
  -- the one row the statement changed is the one asked for
  have hrow : ∀ H ws c D E, Ok hash (Op.complete j workerId now clock) D E rows H ws c →
      ∀ q ∈ rows, q.1 = j.result.submissionId ∧ ∃ r₀, c.submission q.1 = some r₀ ∧
        holdsLease j.result.submissionId workerId now q.1 r₀ ∧
        q.2 = (completeUpdate j.result workerId now clock).set r₀ := by
    intro H ws c D E ok q hq
    obtain ⟨-, -, r₀, hr₀, hstep⟩ := ok.changed q hq
    obtain ⟨i, r'⟩ := q
    cases hstep with
    | complete h => exact ⟨(hheld i r₀ h).1, r₀, hr₀, h, rfl⟩
  obtain ⟨rfl, r₀, -, -, rfl⟩ := hrow _ _ _ _ _ ok₁ (id, r) hmem
  let J : List (ℤ × SubmissionTest) → List Unit → Assert Db Write Lock := fun _ _ =>
    Ok hash (Op.complete j workerId now clock) (alsoPairs (fun _ => False) True rows)
      (fun _ => False) rows
  refine Ensures.put fun c₂ h₂ => ?_
  have ok₂ : J j.result.tests [] H₁ (ws₁ ++ [.deleteTests j.result.submissionId]) c₂ :=
    ((ok₁.deleteTests (ok₁.changed _ hmem).1).stable h₂).weaken (fun _ hk => hk)
      (by simp [alsoTests]) fun p hp => hp
  refine Ensures.seq h₂.1 (Ensures.forEach (J := J) (fun _ => Ok.stable) ?_ [] h₂.1 ok₂) ?_
  · exact fun t _ _ _ _ _ _ ok => insertTest_ensures t ok hmem (hover r₀)
  intro _ H₃ ws₃ c₃ _ ok₃
  refine Ensures.select fun c₄ h₄ => ?_
  have ok₄ := Ok.stable ok₃ h₄
  rw [(ok₄.changed _ hmem).2.1]
  refine Ensures.seq h₄.1 (recomputeProblemScore_ensures _ ok₄) fun _ H₅ ws₅ c₅ _ ok₅ => ?_
  have settled : Settled hash (Op.complete j workerId now clock) rows H₅ ws₅ c₅ := by
    refine ok₅.weaken ?_ (fun _ hi => hi) fun p hp => hp
    rintro k ⟨hk | ⟨-, q, hq, rfl⟩, hne⟩
    · exact hk
    · refine hne (congrArg Submission.pair (Option.some.inj ?_))
      rw [← (ok₅.changed q hq).2.1, (hrow _ _ _ _ _ ok₅ q hq).1, (ok₅.changed _ hmem).2.1]
  refine finish_last hins settled fun c₆ h₆ => ?_
  have ok₆ := settled.stable h₆
  obtain ⟨-, r₁, hr₁, hlease, heq⟩ := hrow _ _ _ _ _ ok₆ _ hmem
  exact ⟨r₁, hr₁, hlease, by rw [(ok₆.changed _ hmem).2.1, heq]⟩

/-! ## The review -/

/-- A write that concerns neither submissions nor tests nor scores. -/
lemma Ok.putReview {D : Pair → Prop} {E : Uuid → Prop} (h : Ok hash op D E S H ws c)
    (review : SubmissionReview) : Ok hash op D E S H (ws ++ [.putReview review]) c :=
  h.putOther (fun _ _ => rfl) (by simp [Write.submissionId]) (fun _ hk => hk) (by simp [Write.pair])
    fun _ hi => Or.inl ⟨hi, fun _ _ => rfl⟩

/-- What remains of a review once the row is updated: settle the score of its pair, and commit. -/
lemma settleReview_ensures {k : Pair} (hins : ∀ id r, ¬ op.inserts id r) (hinv : ActiveUnique c)
    (hach : ∀ c v, op.Achieved c v) (h : Ok hash op (fun j => j = k) (fun _ => False) S H ws c) :
    Ensures (protocol hash) (Committed op) (do
      recomputeProblemScore hash k
      finish : Handler Unit) (fun _ _ _ _ => True) Harmless H ws c := by
  refine Ensures.seq hinv (recomputeProblemScore_ensures k h) fun _ H₁ ws₁ c₁ _ ok₁ => ?_
  exact finish_last hins (ok₁.weaken (fun j hj => hj.2 hj.1) (fun _ hi => hi) fun p hp => hp)
    fun c' _ => hach c' _

theorem reviewSubmissionTx_keeps (submissionId : Uuid) (reviewerId : Option Uuid)
    (status : ReviewStatus) (reason : String) (now : Time) :
    Keeps hash (.review submissionId reviewerId status reason now)
      (reviewSubmissionTx hash submissionId reviewerId status reason now) := by
  have hins : ∀ id r, ¬ (Op.review submissionId reviewerId status reason now).inserts id r :=
    fun _ _ h => h
  have hach : ∀ c v, (Op.review submissionId reviewerId status reason now).Achieved c v :=
    fun _ _ => trivial
  refine Keeps.transaction fun c hc => Ensures.acquire fun c₁ h₁ => ?_
  refine Ensures.select fun c₂ h₂ => ?_
  have hlock : Lock.submission submissionId ∈ [Lock.submission submissionId] := by simp
  simp only [view_nil]
  cases hr : c₂.submission submissionId with
  | none => exact Ensures.throw (harmless_of_constraint rfl)
  | some r =>
      refine Ensures.seq h₂.1 (updateRow_ensures hins (start_settled _) ?_) ?_
      · intro c' r' _ _ happ
        simp only [reviewUpdate, decide_eq_true_eq] at happ
        exact .review
      intro a H₃ ws₃ c₃ hc₃ hupd
      -- whether or not the row was written, only the score of its pair can be unsettled
      have ok₃ : ∃ S', Ok hash (.review submissionId reviewerId status reason now) (fun j => j = r.pair)
          (fun _ => False) S' H₃ ws₃ c₃ := by
        cases a with
        | none =>
            rw [hupd.none rfl]
            exact ⟨[], hupd.ok.weaken (by simp) (by simp) (by simp)⟩
        | some p =>
            obtain ⟨rfl, hlock₃, r', hr', happ, rfl⟩ := hupd.some p rfl
            obtain rfl : r' = r :=
              Option.some.inj (hr'.symm.trans ((rely_row hupd.rely hlock).trans hr))
            exact ⟨_, hupd.ok.putRow hlock₃ hr' .review (by simp) (fun _ hi => hi) (Or.inl rfl)
              (Or.inr fun hactive => hactive)⟩
      obtain ⟨S', ok₃⟩ := ok₃
      refine Ensures.select fun c₄ h₄ => ?_
      have ok₄ := ok₃.stable h₄
      split_ifs with hknown hchanged
      · refine Ensures.put fun c₅ h₅ => ?_
        exact settleReview_ensures hins h₅.1 hach ((ok₄.stable h₅).putReview _)
      · exact settleReview_ensures hins h₄.1 hach ok₄
      · exact Ensures.throw (harmless_of_constraint rfl)

theorem reviewSubmission_keeps (submissionId : Uuid) (reviewerId : Option Uuid)
    (status : ReviewStatus) (reason : String) (now : Time) :
    Keeps hash (.review submissionId reviewerId status reason now)
      (reviewSubmission hash submissionId reviewerId status reason now) := by
  intro c hc
  refine Ensures.seq hc (reviewSubmissionTx_keeps _ _ _ _ _ c hc) fun _ H₁ ws₁ c₁ _ _ => ?_
  refine Ensures.select fun c₂ h₂ => ?_
  cases (view ws₁ c₂).submission submissionId with
  | none => exact Ensures.throw (harmless_of_constraint rfl)
  | some r => exact Ensures.pure fun _ _ => trivial

/-! ## The insertion -/

/-- A row under a key that no row is under, and what is read once it is there. -/
lemma ActiveUnique.insert {db db' : Db} {id : Uuid} {row : Submission} {k : Pair} (h : ActiveUnique db)
    (hread : ∀ i, db'.submission i = if id = i then some row else db.submission i)
    (hentry : row.indexEntry = some k)
    (halone : ∀ i r, db.submission i = some r → r.indexEntry ≠ some k) : ActiveUnique db' := by
  intro i i' r r' k' hr hr' hk hk'
  rw [hread] at hr hr'
  split_ifs at hr hr' with hi hi' hi'
  · exact hi.symm.trans hi'
  · obtain rfl := Option.some.inj hr
    obtain rfl := Option.some.inj (hentry.symm.trans hk)
    exact absurd hk' (halone i' r' hr')
  · obtain rfl := Option.some.inj hr'
    obtain rfl := Option.some.inj (hentry.symm.trans hk')
    exact absurd hk (halone i r hr)
  · exact h i i' r r' k' hr hr' hk hk'

/-- It leaves to the others what they rely on. -/
lemma frame_insert {db db' : Db} {id : Uuid} {row : Submission} {k : Pair} {l : Lock}
    (hread : ∀ i, db'.submission i = if id = i then some row else db.submission i)
    (htests : ∀ i o, db'.test i o = db.test i o) (hentry : row.indexEntry = some k)
    (hscores : ∀ k, ScoringSame k db db') (hl : l ∉ [Lock.activeEntry k, .submission id]) :
    frame hash l db db' := by
  cases l with
  | submission i =>
      have hi : id ≠ i := fun h => hl (by simp [h])
      exact ⟨by rw [hread, if_neg hi], htests i⟩
  | activeEntry k' =>
      intro i r hr hk
      rw [hread] at hr
      split_ifs at hr with hi
      · obtain rfl := Option.some.inj hr
        obtain rfl := Option.some.inj (hentry.symm.trans hk)
        exact absurd (by simp) hl
      · exact ⟨r, hr, hk⟩
  | advisory key => exact fun k _ => hscores k

/-- The `INSERT` may commit: nobody else has the id, and nobody else is in the unique index under the
key of the new row, nor can have entered since the check. -/
lemma insert_committed {s : NewSubmission} {now clock : Time} {maxScore testsTotal : ℤ} {c' : Db}
    (hnew : c.submission s.id = none)
    (hconflict : c.indexConflict s.id (newRow s maxScore testsTotal clock) = false)
    (hc : (protocol hash).Rely [.activeEntry (s.teamId, s.problemId), .submission s.id] c c') :
    ActiveUnique (view [.putSubmission s.id (newRow s maxScore testsTotal clock)] c') ∧
      Committed (.create s now clock) c'
        (view [.putSubmission s.id (newRow s maxScore testsTotal clock)] c') ∧
      ∀ l ∉ [Lock.activeEntry (s.teamId, s.problemId), .submission s.id],
        frame hash l c' (view [.putSubmission s.id (newRow s maxScore testsTotal clock)] c') := by
  generalize hrow : newRow s maxScore testsTotal clock = row at *
  have hentry : row.indexEntry = some (s.teamId, s.problemId) := by
    subst hrow
    simp [newRow, Submission.indexEntry, Submission.active, Submission.pair]
  have hscoring : row.scoring = false := by
    subst hrow
    simp [newRow, Submission.scoring]
  have hnew' : c'.submission s.id = none := (rely_row hc (by simp)).trans hnew
  have hview : ∀ i, (view [.putSubmission s.id row] c').submission i
      = if s.id = i then some row else c'.submission i := fun i => by
    rw [← List.nil_append [Write.putSubmission s.id row], view_putSubmission, view_nil]
  have halone : ∀ i r, c'.submission i = some r → r.indexEntry ≠ some (s.teamId, s.problemId) := by
    intro i r hr hk
    obtain ⟨r₀, hr₀, hk₀⟩ := hc.2 (.activeEntry (s.teamId, s.problemId)) (by simp) i r hr hk
    have hne : i ≠ s.id := by
      rintro rfl
      simp [hnew] at hr₀
    simp only [Db.indexConflict, hentry, Option.isSome_some, Bool.true_and, List.any_eq_false,
      decide_eq_true_eq, not_and] at hconflict
    exact hconflict (i, r₀) (Table.mem_rows.mpr hr₀) hne hk₀
  have hscores : ∀ k, ScoringSame k c' (view [.putSubmission s.id row] c') := by
    refine fun k => ⟨fun i => ?_, rfl⟩
    rw [hview]
    split_ifs with hi
    · rw [← hi, hnew', scoringFor_of_not_scoring hscoring]
      rfl
    · rfl
  refine ⟨ActiveUnique.insert hc.1 hview hentry halone,
    ⟨fun i => ?_, fun i hclear => ?_, fun k => Or.inl (hscores k), rfl, trivial⟩,
    fun l hl => frame_insert hview (fun _ _ => rfl) hentry hscores hl⟩
  · rw [hview]
    split_ifs with hi
    · rw [← hi, hnew', ← hrow]
      exact .insert ⟨rfl, maxScore, testsTotal, rfl⟩
    · exact .same _
  · intro hactive o
    refine hclear (fun r hr => ?_) o
    by_cases hi : s.id = i
    · subst hi
      simp [hnew'] at hr
    · exact hactive r (by rw [hview, if_neg hi, hr])

lemma insertSubmission_ensures (s : NewSubmission) (now clock : Time) (maxScore testsTotal : ℤ)
    (hc : ActiveUnique c) :
    Ensures (protocol hash) (Committed (.create s now clock))
      (insertSubmission s.id (newRow s maxScore testsTotal clock)) (fun _ _ _ _ => True)
      (fun _ => True) [] [] c := by
  let ready : Unit → Assert Db Write Lock := fun _ H ws c =>
    H = [.activeEntry (s.teamId, s.problemId), .submission s.id] ∧
      ws = [.putSubmission s.id (newRow s maxScore testsTotal clock)] ∧
      ∃ c₀, c₀.submission s.id = none ∧
        c₀.indexConflict s.id (newRow s maxScore testsTotal clock) = false ∧
        (protocol hash).Rely [.activeEntry (s.teamId, s.problemId), .submission s.id] c₀ c
  refine Ensures.transaction hc (Ensures.seq (P := ready) hc (Ensures.acquire fun c₁ h₁ => ?_) ?_)
  · refine Ensures.select fun c₂ h₂ => ?_
    cases htaken : c₂.submission s.id with
    | some r =>
        simp only [view_nil, htaken, Option.isSome_some, if_true]
        exact Ensures.throw trivial
    | none =>
        have hentry : (newRow s maxScore testsTotal clock).indexEntry = some (s.teamId, s.problemId) := by
          simp [newRow, Submission.indexEntry, Submission.active, Submission.pair]
        simp only [view_nil, htaken, Option.isSome_none, Bool.false_eq_true, if_false, storeRow, hentry,
          Option.bind_none, ne_eq, reduceCtorEq, not_false_eq_true, if_true]
        refine Ensures.seq (P := ready) h₂.1 (Ensures.acquire fun c₃ h₃ => ?_) ?_
        · refine Ensures.select fun c₄ h₄ => ?_
          have hnew : c₄.submission s.id = none :=
            (rely_row h₄ (by simp)).trans ((rely_row h₃ (by simp)).trans htaken)
          split_ifs with hconflict
          · exact Ensures.throw trivial
          · exact fun c₅ h₅ c₆ h₆ =>
              ⟨rfl, rfl, c₄, hnew, by simpa using hconflict, h₅.trans h₆⟩
        · rintro _ H ws c₃ - ⟨rfl, rfl, c₀, hnew, hconflict, hrely⟩
          refine Ensures.select fun c₄ h₄ => ?_
          split_ifs
          · exact Ensures.pure fun c₅ h₅ =>
              ⟨rfl, rfl, c₀, hnew, hconflict, hrely.trans (h₄.trans h₅)⟩
          · exact Ensures.throw trivial
  · rintro _ H ws c₁ - ⟨rfl, rfl, c₀, hnew, hconflict, hrely⟩
    exact Ensures.finish (fun c₂ h₂ => insert_committed hnew hconflict (hrely.trans h₂))
      fun _ _ => Ensures.pure fun _ _ => trivial

theorem createSubmission_keeps (s : NewSubmission) (now clock : Time) (c : Db) :
    Ensures (protocol hash) (Committed (.create s now clock)) (createSubmission s now clock)
      (fun _ _ _ _ => True) (fun _ => True) [] [] c := by
  refine Ensures.select fun c₁ h₁ => ?_
  split_ifs
  · exact Ensures.throw trivial
  refine Ensures.select fun c₂ h₂ => ?_
  split_ifs
  · exact Ensures.throw trivial
  refine Ensures.select fun c₃ h₃ => ?_
  cases (view [] c₃).problemMetadata s.problemId with
  | none => exact Ensures.throw trivial
  | some m =>
      simp only
      split_ifs
      · exact Ensures.throw trivial
      · refine Ensures.seq h₃.1 (Ensures.rethrow h₃.1
          (insertSubmission_ensures s now clock _ _ h₃.1) fun _ _ => trivial) ?_
        exact fun _ H ws c _ _ => Ensures.select fun _ _ => Ensures.pure fun _ _ => trivial

/-! ## All of them -/

/-- A handler's reply is not a collision in the unique index of active submissions, nor in the
primary key of the scores.  `CreateSubmission` is excepted: it may meet the first. -/
def Op.Replies : Op → Reply → Prop
  | create _ _ _, _ => True
  | _, .ok _ => True
  | _, .error e => Harmless e

lemma Keeps.program {t : Handler Answer} (hop : op.handler hash = t) (h : Keeps hash op t)
    (hc : ActiveUnique c) :
    Safe (protocol hash) (Committed op) (op.program hash) (fun a _ _ _ => op.Replies a) [] [] c := by
  subst hop
  refine Safe.mono (h c hc) fun r _ _ _ hr => ?_
  cases op <;> cases r <;> trivial

/-- **The discipline.**  Every handler keeps the protocol, whatever stores it starts in. -/
theorem Judge.verified {init : Db → Prop} (hinit : ∀ db, init db → ActiveUnique db) :
    Verified (protocol hash) Committed Op.Replies (Op.program hash) Db.CatalogEdit init where
  prog op c hc := by
    cases op with
    | create s now clock =>
        exact Safe.mono (Ensures.seq (E := fun _ => True) (Q := fun _ _ _ _ => True) hc
          (createSubmission_keeps s now clock c)
          fun _ _ _ _ _ _ => Ensures.pure fun _ _ => trivial) fun _ _ _ _ _ => trivial
    | claim => exact ((claimNextSubmission_keeps _ _ _ _).answer _).program rfl hc
    | renew => exact ((renewLease_keeps _ _ _ _).answer fun _ => Answer.done).program rfl hc
    | complete => exact ((completeSubmissionTx_keeps _ _ _ _).answer fun _ => Answer.done).program rfl hc
    | reap => exact ((reclaimExpiredLeases_keeps _).answer _).program rfl hc
    | review => exact ((reviewSubmission_keeps _ _ _ _ _).answer fun p => Answer.item p.1 p.2).program rfl hc
    | rejudge => exact ((rejudgeSubmission_keeps _).answer fun _ => Answer.done).program rfl hc
    | rejudgeProblem => exact ((rejudgeProblemSubmissions_keeps _).answer _).program rfl hc
    | cancel => exact ((cancelSubmission_keeps _ _).answer fun _ => Answer.done).program rfl hc
    | unstick => exact ((unstickTeamSubmissions_keeps _ _).answer fun _ => Answer.done).program rfl hc
  env := by
    rintro c _ hc ⟨catalog, rfl⟩
    refine ⟨hc, fun l => ?_⟩
    cases l with
    | submission i => exact ⟨rfl, fun _ => rfl⟩
    | activeEntry k => exact fun i r hr hk => ⟨r, hr, hk⟩
    | advisory key => exact fun k _ => ⟨fun _ => rfl, rfl⟩
  init := hinit

end Labyrithm
