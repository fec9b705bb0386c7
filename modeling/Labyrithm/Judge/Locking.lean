import Labyrithm.Judge.Scores
import Labyrithm.Judge.System

/-!
# The locking discipline of the judge

What the handlers agree on, as a protocol: while a session holds the lock of a row, nobody else
changes the row or its tests; while it holds the advisory lock of a pair, nobody else changes what
the score of the pair depends on; while it waits in the unique index, nobody else enters there.

`Ok` is the assertion that carries a handler from its first statement to its commit: it names the
pairs whose score and the submissions whose tests the transaction has still to settle.

* `Op.Step.again`, `Op.Step.pair`, `Op.Step.indexEntry` — what every update has in common.
* `Ok.stable` — the other sessions cannot falsify the assertion.
* `Ok.putRow`, `Ok.putOther` — what each write does to it.
* `Ok.committed` — a transaction that has settled everything may commit, and `Committed` is what its
  commit amounts to.
-/

namespace Labyrithm

open Sql Tx

variable {hash : Hash} {op : Op} {id : Uuid} {k : Pair} {r r' r'' : Submission}

/-! ## The protocol -/

/-- No two rows stand under one key of the partial unique index. -/
def ActiveUnique (db : Db) : Prop :=
  ∀ id id' r r' k, db.submission id = some r → db.submission id' = some r' →
    r.indexEntry = some k → r'.indexEntry = some k → id = id'

/-- What everyone who does not hold the lock leaves as it is. -/
def frame (hash : Hash) : Lock → Db → Db → Prop
  | .submission id, c, c' =>
      c'.submission id = c.submission id ∧ ∀ ordinal, c'.test id ordinal = c.test id ordinal
  | .activeEntry k, c, c' => ∀ id r', c'.submission id = some r' → r'.indexEntry = some k →
      ∃ r, c.submission id = some r ∧ r.indexEntry = some k
  | .advisory key, c, c' => ∀ k, hash k = key → ScoringSame k c c'

def protocol (hash : Hash) : Protocol Db Lock where
  inv := ActiveUnique
  frame := frame hash
  frame_refl l c := by
    cases l with
    | submission id => exact ⟨rfl, fun _ => rfl⟩
    | activeEntry k => exact fun id r' h hk => ⟨r', h, hk⟩
    | advisory key => exact fun k _ => .refl k c
  frame_trans l {a b c} h₁ h₂ := by
    cases l with
    | submission id => exact ⟨h₂.1.trans h₁.1, fun o => (h₂.2 o).trans (h₁.2 o)⟩
    | activeEntry k =>
        intro id r' h hk
        obtain ⟨r, hr, hrk⟩ := h₂ id r' h hk
        exact h₁ id r hr hrk
    | advisory key => exact fun k hk => (h₁ k hk).trans (h₂ k hk)

/-- A row that may have to show test results shows none: it is active, or not there yet. -/
def TestsClear (db : Db) (id : Uuid) : Prop :=
  (∀ r, db.submission id = some r → r.active) → ∀ ordinal, db.test id ordinal = none

/-- What a particular operation is for. -/
def Op.Achieved : Op → Db → Db → Prop
  | claim workerId now clock _, c, v => ∃ id r, c.submission id = some r ∧ r.state = .queued ∧
      v.submission id = some ((claimUpdate id workerId now (clock + leaseDuration)).set r) ∧
      ∀ id' ≠ id, v.submission id' = c.submission id'
  | complete j workerId now clock, c, v => ∃ r, c.submission j.result.submissionId = some r ∧
      holdsLease j.result.submissionId workerId now j.result.submissionId r ∧
      v.submission j.result.submissionId = some ((completeUpdate j.result workerId now clock).set r)
  | _, _, _ => True

/-- What one commit of `op` does to the store. -/
structure Committed (op : Op) (c v : Db) : Prop where
  rows : ∀ id, RowStep op id (c.submission id) (v.submission id)
  tests : ∀ id, TestsClear c id → TestsClear v id
  scores : ∀ k, ScoringSame k c v ∨ Consistent k v
  catalog : v.catalog = c.catalog
  achieved : op.Achieved c v

/-! ## The updates -/

/-- An operation that would change a row again changes nothing: its updates are idempotent or
exclude each other. -/
lemma Op.Step.again (h : op.Step id r r') (h' : op.Step id r' r'') : r'' = r' := by
  cases h <;> cases h' <;>
    simp_all [claimUpdate, renewUpdate, completeUpdate, requeueUpdate, reviewUpdate,
      requeueForRejudge, abandon, expired]

/-- No update moves a row to another pair. -/
lemma Op.Step.pair (h : op.Step id r r') : r'.pair = r.pair := by
  cases h <;> rfl

/-- No update moves a row into the partial unique index. -/
lemma Op.Step.indexEntry (h : op.Step id r r') (hk : r'.indexEntry = some k) :
    r.indexEntry = some k := by
  suffices r'.active ∧ r'.isRejudge = false → r.active ∧ r.isRejudge = false by
    have hpair := h.pair
    simp only [Submission.indexEntry, Option.ite_none_right_eq_some, Option.some.injEq] at hk ⊢
    exact ⟨this hk.1, by rw [← hpair, hk.2]⟩
  cases h with
  | claim h => simp [claimUpdate, Submission.active, h]
  | renew | review => exact fun h => h
  | @complete j =>
      rcases j.evaluated.status with hs | hs <;> simp [completeUpdate, Submission.active, hs]
  | requeue h => simp_all [requeueUpdate, Submission.active, expired]
  | rejudge | rejudgeProblem => simp [requeueForRejudge]
  | fail | cancel | unstick => simp [abandon, Submission.active]

/-! ## A transaction in progress -/

/-- The submission whose row or tests a write changes. -/
def Write.submissionId : Write → Option Uuid
  | putSubmission id _ | deleteTests id | putTest id _ _ => some id
  | _ => none

/-- The pair whose score a write changes. -/
def Write.pair : Write → Option Pair
  | deleteScore k | putScore k _ => some k
  | _ => none

lemma Write.onSubmission_other {w : Write} (h : w.submissionId ≠ some id)
    (o : Option Submission) : w.onSubmission id o = o := by
  cases w <;> simp_all [Write.submissionId, Write.onSubmission]

lemma Write.onTest_other {w : Write} {ordinal : ℤ} (h : w.submissionId ≠ some id)
    (o : Option SubmissionTest) : w.onTest id ordinal o = o := by
  cases w <;> simp_all [Write.submissionId, Write.onTest]

lemma Write.onScore_other {w : Write} (h : w.pair ≠ some k) (o : Option ProblemScore) :
    w.onScore k o = o := by
  cases w <;> simp_all [Write.pair, Write.onScore]

section View

variable {ws : List Write} {c c' : Db}

lemma view_submission_other (h : ∀ w ∈ ws, w.submissionId ≠ some id) (c : Db) :
    (view ws c).submission id = c.submission id :=
  view_untouched (fun db : Db => db.submission id) ws c fun w hw s => by
    rw [Db.submission_apply, Write.onSubmission_other (h w hw)]

lemma view_test_other {ordinal : ℤ} (h : ∀ w ∈ ws, w.submissionId ≠ some id) (c : Db) :
    (view ws c).test id ordinal = c.test id ordinal :=
  view_untouched (fun db : Db => db.test id ordinal) ws c fun w hw s => by
    rw [Db.test_apply, Write.onTest_other (h w hw)]

lemma view_score_other (h : ∀ w ∈ ws, w.pair ≠ some k) (c : Db) :
    (view ws c).problemScore k = c.problemScore k :=
  view_untouched (fun db : Db => db.problemScore k) ws c fun w hw s => by
    rw [Db.problemScore_apply, Write.onScore_other (h w hw)]

lemma view_submission_congr (h : c'.submission id = c.submission id) :
    (view ws c').submission id = (view ws c).submission id :=
  view_congr (fun db : Db => db.submission id) (Write.onSubmission id)
    (fun w c => Db.submission_apply w c id) ws h

lemma view_test_congr {ordinal : ℤ} (h : c'.test id ordinal = c.test id ordinal) :
    (view ws c').test id ordinal = (view ws c).test id ordinal :=
  view_congr (fun db : Db => db.test id ordinal) (Write.onTest id ordinal)
    (fun w c => Db.test_apply w c id ordinal) ws h

lemma view_score_congr (h : c'.problemScore k = c.problemScore k) :
    (view ws c').problemScore k = (view ws c).problemScore k :=
  view_congr (fun db : Db => db.problemScore k) (Write.onScore k)
    (fun w c => Db.problemScore_apply w c k) ws h

lemma view_putSubmission (i : Uuid) (c : Db) : (view (ws ++ [.putSubmission id r]) c).submission i
    = if id = i then some r else (view ws c).submission i := by
  rw [view_append_singleton, Db.submission_apply, Write.onSubmission]

lemma view_catalog (ws : List Write) (c : Db) : (view ws c).catalog = c.catalog :=
  view_untouched Db.catalog ws c fun w _ s => Db.catalog_apply w s

end View

/-- The transaction has not touched the score of `k`, nor anything it depends on. -/
def Untouched (k : Pair) (ws : List Write) (c : Db) : Prop :=
  (∀ w ∈ ws, w.pair ≠ some k) ∧
    ∀ id, scoringFor k ((view ws c).submission id) = scoringFor k (c.submission id)

/-- The state of a transaction of `op` that has still to settle the scores of the pairs in `D` and
the tests of the submissions in `E`, and has changed the rows in `S`. -/
structure Ok (hash : Hash) (op : Op) (D : Pair → Prop) (E : Uuid → Prop)
    (S : List (Uuid × Submission)) (H : List Lock) (ws : List Write) (c : Db) : Prop where
  locked : ∀ w ∈ ws, ∀ id, w.submissionId = some id → Lock.submission id ∈ H
  rows : ∀ id, RowStep op id (c.submission id) ((view ws c).submission id)
  tests : ∀ id, ¬ E id → TestsClear c id → TestsClear (view ws c) id
  scores : ∀ k, ¬ D k →
    Untouched k ws c ∨ (Lock.advisory (hash k) ∈ H ∧ Consistent k (view ws c))
  changed : ∀ p ∈ S, Lock.submission p.1 ∈ H ∧ (view ws c).submission p.1 = some p.2 ∧
    ∃ r, c.submission p.1 = some r ∧ op.Step p.1 r p.2

section Stability

variable {D D' : Pair → Prop} {E E' : Uuid → Prop} {S S' : List (Uuid × Submission)}
  {H H' : List Lock} {ws : List Write} {c c' : Db}

lemma rely_row (hc : (protocol hash).Rely H c c') (hid : Lock.submission id ∈ H) :
    c'.submission id = c.submission id := (hc.2 _ hid).1

lemma rely_test {ordinal : ℤ} (hc : (protocol hash).Rely H c c')
    (hid : Lock.submission id ∈ H) : c'.test id ordinal = c.test id ordinal := (hc.2 _ hid).2 _

lemma rely_score (hc : (protocol hash).Rely H c c') (hk : Lock.advisory (hash k) ∈ H) :
    ScoringSame k c c' := hc.2 _ hk k rfl

namespace Ok

/-- A row whose lock the session does not hold is the committed one. -/
lemma free (h : Ok hash op D E S H ws c) (hid : Lock.submission id ∉ H) :
    ∀ w ∈ ws, w.submissionId ≠ some id :=
  fun w hw he => hid (h.locked w hw id he)

lemma weaken (h : Ok hash op D E S H ws c) (hD : ∀ k, D k → D' k) (hE : ∀ id, E id → E' id)
    (hS : ∀ p ∈ S', p ∈ S) : Ok hash op D' E' S' H ws c where
  locked := h.locked
  rows := h.rows
  tests id hid := h.tests id fun hE' => hid (hE id hE')
  scores k hk := h.scores k fun hD' => hk (hD k hD')
  changed p hp := h.changed p (hS p hp)

/-- More locks do no harm. -/
lemma grow (h : Ok hash op D E S H ws c) (hH : ∀ l ∈ H, l ∈ H') : Ok hash op D E S H' ws c where
  locked w hw id hid := hH _ (h.locked w hw id hid)
  rows := h.rows
  tests := h.tests
  scores k hk := (h.scores k hk).imp_right fun hk' => ⟨hH _ hk'.1, hk'.2⟩
  changed p hp := ⟨hH _ (h.changed p hp).1, (h.changed p hp).2⟩

/-- The other sessions cannot falsify it. -/
theorem stable : Assert.Stable (protocol hash) (Ok hash op D E S) := by
  intro H ws c c' h hc
  have held : ∀ id, Lock.submission id ∈ H →
      (view ws c').submission id = (view ws c).submission id :=
    fun id hid => view_submission_congr (rely_row hc hid)
  refine ⟨h.locked, fun id => ?_, fun id hid hclear => ?_, fun k hk => ?_, fun p hp => ?_⟩
  · by_cases hid : Lock.submission id ∈ H
    · rw [held id hid, rely_row hc hid]
      exact h.rows id
    · rw [view_submission_other (h.free hid)]
      exact .same _
  · by_cases hlock : Lock.submission id ∈ H
    · have hsame : TestsClear (view ws c) id := by
        refine h.tests id hid fun hrow o => ?_
        rw [← rely_test hc hlock]
        exact hclear (fun r hr => hrow r (by rw [← rely_row hc hlock, hr])) o
      intro hrow o
      rw [view_test_congr (rely_test hc hlock)]
      exact hsame (fun r hr => hrow r (by rw [held id hlock, hr])) o
    · intro hrow o
      rw [view_test_other (h.free hlock)]
      rw [view_submission_other (h.free hlock)] at hrow
      exact hclear hrow o
  · rcases h.scores k hk with hk' | ⟨hlock, hcons⟩
    · refine Or.inl ⟨hk'.1, fun id => ?_⟩
      by_cases hid : Lock.submission id ∈ H
      · rw [held id hid, rely_row hc hid]
        exact hk'.2 id
      · rw [view_submission_other (h.free hid)]
    · have hsame := rely_score hc hlock
      refine Or.inr ⟨hlock, hcons.of_same ⟨fun id => ?_, view_score_congr hsame.score⟩⟩
      by_cases hid : Lock.submission id ∈ H
      · rw [held id hid]
      · rw [view_submission_other (h.free hid), view_submission_other (h.free hid)]
        exact hsame.rows id
  · obtain ⟨hid, hview, r, hr, hstep⟩ := h.changed p hp
    exact ⟨hid, by rw [held _ hid, hview], r, by rw [rely_row hc hid, hr], hstep⟩

/-! ### The writes -/

/-- A transaction that has written nothing has nothing to settle. -/
lemma start : Ok hash op (fun _ => False) (fun _ => False) [] H [] c where
  locked := by simp
  rows id := .same _
  tests id _ h := h
  scores k _ := Or.inl ⟨by simp, fun _ => rfl⟩
  changed := by simp

/-- A row that is read is the committed one, or the transaction has changed it so already. -/
lemma origin (h : Ok hash op D E S H ws c) (hr : (view ws c).submission id = some r)
    (hstep : op.Step id r r') : ∃ r₀, c.submission id = some r₀ ∧ op.Step id r₀ r' := by
  have hrow := h.rows id
  rw [hr] at hrow
  generalize c.submission id = o at hrow ⊢
  cases hrow with
  | same => exact ⟨r, rfl, hstep⟩
  | update h₀ => exact ⟨_, rfl, (h₀.again hstep).symm ▸ h₀⟩
  | insert hins => cases hstep <;> exact hins.elim

/-- What a step leaves of the scores of a pair, if it is another one or no score is concerned. -/
lemma scoringFor_step (hstep : op.Step id r r') {k : Pair}
    (hscore : r.pair ≠ k ∨ (r.scoring = false ∧ r'.scoring = false)) :
    scoringFor k (some r') = scoringFor k (some r) := by
  obtain hpair | ⟨hold, hnew⟩ := hscore
  · rw [scoringFor_of_pair_ne (hstep.pair.trans_ne hpair), scoringFor_of_pair_ne hpair]
  · rw [scoringFor_of_not_scoring hnew, scoringFor_of_not_scoring hold]

/-- The next version of a row. -/
theorem putRow (h : Ok hash op D E S H ws c) (hlock : Lock.submission id ∈ H)
    (hr : (view ws c).submission id = some r) (hstep : op.Step id r r')
    (hD : ∀ k, D k → D' k) (hE : ∀ id, E id → E' id)
    (hscore : D' r.pair ∨ (r.scoring = false ∧ r'.scoring = false))
    (htests : E' id ∨ (r'.active → r.active)) :
    Ok hash op D' E' (S ++ [(id, r')]) H (ws ++ [.putSubmission id r']) c := by
  have hview : ∀ i, (view (ws ++ [.putSubmission id r']) c).submission i
      = if id = i then some r' else (view ws c).submission i := fun i => view_putSubmission i c
  have htest : ∀ i o, (view (ws ++ [.putSubmission id r']) c).test i o = (view ws c).test i o :=
    fun i o => by
      rw [view_append_singleton, Db.test_apply]
      rfl
  have hsettled : ∀ k, ¬ D' k → scoringFor k (some r') = scoringFor k (some r) := fun k hk =>
    scoringFor_step hstep (hscore.imp_left fun hpair heq => hk (heq ▸ hpair))
  have hrows : ∀ k, ¬ D' k → ∀ i, scoringFor k ((view (ws ++ [.putSubmission id r']) c).submission i)
      = scoringFor k ((view ws c).submission i) := by
    intro k hk i
    rw [hview]
    split_ifs with hi
    · rw [← hi, hr, hsettled k hk]
    · rfl
  refine ⟨?_, fun i => ?_, fun i hi hclear => ?_, fun k hk => ?_, fun p hp => ?_⟩
  · simp only [List.mem_append, List.mem_singleton]
    rintro w (hw | rfl) i hi
    · exact h.locked w hw i hi
    · cases hi
      exact hlock
  · rw [hview]
    split_ifs with hi
    · obtain ⟨r₀, h₀, hstep₀⟩ := h.origin hr hstep
      rw [← hi, h₀]
      exact .update hstep₀
    · exact h.rows i
  · have hbefore := h.tests i (fun hEi => hi (hE i hEi)) hclear
    intro hrow o
    rw [htest]
    refine hbefore (fun r₁ hr₁ => ?_) o
    by_cases hid : id = i
    · subst hid
      rw [hr, Option.some.injEq] at hr₁
      subst hr₁
      exact htests.resolve_left hi (hrow r' (by rw [hview, if_pos rfl]))
    · exact hrow r₁ (by rw [hview, if_neg hid, hr₁])
  · refine (h.scores k fun hDk => hk (hD k hDk)).imp (fun hu => ⟨?_, fun i => ?_⟩) fun hc => ?_
    · simp only [List.mem_append, List.mem_singleton]
      rintro w (hw | rfl)
      · exact hu.1 w hw
      · simp [Write.pair]
    · rw [hrows k hk, hu.2]
    · refine ⟨hc.1, hc.2.of_same ⟨hrows k hk, ?_⟩⟩
      rw [view_append_singleton, Db.problemScore_apply]
      rfl
  · rcases List.mem_append.mp hp with hp | hp
    · obtain ⟨hl, hv, r₀, hr₀, hstep₀⟩ := h.changed p hp
      refine ⟨hl, ?_, r₀, hr₀, hstep₀⟩
      rw [hview]
      split_ifs with hi
      · subst hi
        rw [hr, Option.some.injEq] at hv
        subst hv
        rw [hstep₀.again hstep]
      · exact hv
    · obtain rfl := List.mem_singleton.mp hp
      exact ⟨hlock, by rw [hview, if_pos rfl], h.origin hr hstep⟩

/-- A write to another table than `submissions`. -/
theorem putOther {w : Write} (h : Ok hash op D E S H ws c)
    (hrow : ∀ i o, w.onSubmission i o = o)
    (hlock : ∀ i, w.submissionId = some i → Lock.submission i ∈ H)
    (hD : ∀ k, D k → D' k) (hpair : ∀ k, w.pair = some k → D' k)
    (htests : ∀ i, ¬ E' i → (¬ E i ∧ ∀ o t, w.onTest i o t = t) ∨
      TestsClear (view (ws ++ [w]) c) i) :
    Ok hash op D' E' S H (ws ++ [w]) c := by
  have hview : ∀ i, (view (ws ++ [w]) c).submission i = (view ws c).submission i := fun i => by
    rw [view_append_singleton, Db.submission_apply, hrow]
  refine ⟨?_, fun i => ?_, fun i hi hclear => ?_, fun k hk => ?_, fun p hp => ?_⟩
  · simp only [List.mem_append, List.mem_singleton]
    rintro w' (hw | rfl) i hi
    · exact h.locked w' hw i hi
    · exact hlock i hi
  · rw [hview]
    exact h.rows i
  · rcases htests i hi with ⟨hEi, hsame⟩ | hdone
    · intro hrow' o
      rw [view_append_singleton, Db.test_apply, hsame]
      exact h.tests i hEi hclear (fun r hr => hrow' r (by rw [hview, hr])) o
    · exact hdone
  · have hother : w.pair ≠ some k := fun hw => hk (hpair k hw)
    refine (h.scores k fun hDk => hk (hD k hDk)).imp (fun hu => ⟨?_, fun i => ?_⟩) fun hc => ?_
    · simp only [List.mem_append, List.mem_singleton]
      rintro w' (hw | rfl)
      · exact hu.1 w' hw
      · exact hother
    · rw [hview, hu.2]
    · refine ⟨hc.1, hc.2.of_same ⟨fun i => by rw [hview], ?_⟩⟩
      rw [view_append_singleton, Db.problemScore_apply, Write.onScore_other hother]
  · rw [hview]
    exact h.changed p hp

/-- A row the transaction sees in the partial unique index stood there before. -/
lemma entry_before (h : Ok hash op D E S H ws c) (hins : ∀ id r, ¬ op.inserts id r)
    (hr : (view ws c).submission id = some r) (hk : r.indexEntry = some k) :
    ∃ r₀, c.submission id = some r₀ ∧ r₀.indexEntry = some k := by
  have := h.rows id
  rw [hr] at this
  generalize c.submission id = o at this ⊢
  cases this with
  | same => exact ⟨r, rfl, hk⟩
  | update h₀ => exact ⟨_, rfl, h₀.indexEntry hk⟩
  | insert hi => exact (hins _ _ hi).elim

/-- What the transaction sees breaks no unique index. -/
lemma view_unique (h : Ok hash op D E S H ws c) (hins : ∀ id r, ¬ op.inserts id r)
    (hinv : ActiveUnique c) : ActiveUnique (view ws c) := by
  intro i i' r r' k hr hr' hk hk'
  obtain ⟨r₀, hr₀, hk₀⟩ := h.entry_before hins hr hk
  obtain ⟨r₁, hr₁, hk₁⟩ := h.entry_before hins hr' hk'
  exact hinv i i' r₀ r₁ k hr₀ hr₁ hk₀ hk₁

/-- A transaction that has settled everything may commit. -/
theorem committed (h : Ok hash op (fun _ => False) (fun _ => False) S H ws c)
    (hins : ∀ id r, ¬ op.inserts id r) (hinv : ActiveUnique c)
    (hach : op.Achieved c (view ws c)) :
    ActiveUnique (view ws c) ∧ Committed op c (view ws c) ∧
      ∀ l ∉ H, frame hash l c (view ws c) := by
  have hscores : ∀ k, ScoringSame k c (view ws c) ∨
      (Lock.advisory (hash k) ∈ H ∧ Consistent k (view ws c)) := fun k =>
    (h.scores k id).imp_left fun hu => ⟨hu.2, view_score_other hu.1 c⟩
  refine ⟨h.view_unique hins hinv, ⟨h.rows, fun i => h.tests i id,
    fun k => (hscores k).imp_right And.right, view_catalog ws c, hach⟩, fun l hl => ?_⟩
  cases l with
  | submission i =>
      exact ⟨view_submission_other (h.free hl) c, fun o => view_test_other (h.free hl) c⟩
  | activeEntry k => exact fun i r' hr' hk => h.entry_before hins hr' hk
  | advisory key =>
      intro k hk
      subst hk
      exact (hscores k).resolve_right fun hk => hl hk.1

end Ok

end Stability

end Labyrithm
