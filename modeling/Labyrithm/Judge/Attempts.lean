import Labyrithm.Judge.Invariants

/-!
# A submission that kills its workers

The claim counts the attempts, the reaper looks at the count, the rejudge sets it back.

* `reclaimExpiredLeases_alone` — what one run of the reaper makes of every row.
* `Judge.attempts_eq` — the counter is the number of claims since the last rejudge.
* **`Judge.poison_pill`** — a submission is claimed at most three times between two rejudges, and
  when the lease of the third claim expires it fails.
-/

namespace Labyrithm

open Sql Tx

variable {hash : Hash} {op : Op} {id : Uuid} {k : Pair} {r r' : Submission} {c v : Db}
  {s : Judge.State}

/-! ## One run of the reaper -/

lemma ActiveUnique.put (h : ActiveUnique v) (hr : v.submission id = some r)
    (hentry : ∀ k, r'.indexEntry = some k → r.indexEntry = some k) :
    ActiveUnique (Store.apply (Write.putSubmission id r') v) := by
  have hbefore : ∀ i q k, (Store.apply (Write.putSubmission id r') v).submission i = some q →
      q.indexEntry = some k → ∃ q₀, v.submission i = some q₀ ∧ q₀.indexEntry = some k := by
    intro i q k hq hk
    rw [Db.submission_apply, Write.onSubmission] at hq
    split_ifs at hq with hi
    · obtain rfl := Option.some.inj hq
      exact ⟨r, hi ▸ hr, hentry k hk⟩
    · exact ⟨q, hq, hk⟩
  intro i i' q q' k hq hq' hk hk'
  obtain ⟨q₀, hq₀, hk₀⟩ := hbefore i q k hq hk
  obtain ⟨q₁, hq₁, hk₁⟩ := hbefore i' q' k hq' hk'
  exact h i i' q₀ q₁ k hq₀ hq₁ hk₀ hk₁

/-- Nobody else around, an update of a row that brings nothing into the unique index succeeds. -/
lemma updateRow_alone {u : Update} {context : String} (h : ActiveUnique v)
    (hr : v.submission id = some r) (happ : u.applies id r)
    (hentry : ∀ k, (u.set r).indexEntry = some k → r.indexEntry = some k) :
    Alone (updateRow context u id)
      (fun _ c' v' => c' = c ∧ v' = Store.apply (Write.putSubmission id (u.set r)) v) c v := by
  refine Alone.acquire (Alone.select ?_)
  simp only [hr, happ, if_true]
  refine Alone.seq (P := fun _ c' v' => c' = c ∧
    v' = Store.apply (Write.putSubmission id (u.set r)) v) ?_ fun _ _ _ hp => Alone.pure hp
  unfold storeRow
  cases hk : (u.set r).indexEntry with
  | none => exact ⟨(), rfl, rfl, rfl⟩
  | some k =>
      have hbefore := hentry k hk
      simp only [Option.bind_some, hbefore, ne_eq, not_true_eq_false, if_false]
      refine Alone.select ?_
      rw [indexConflict_eq_false h hr (hbefore.trans hk.symm)]
      exact ⟨(), rfl, rfl, rfl⟩

/-- What an `UPDATE` makes of a row. -/
def Update.apply (u : Update) (id : Uuid) (r : Submission) : Submission :=
  if u.applies id r then u.set r else r

/-- Nobody else around, an `UPDATE` changes exactly the rows it matches. -/
lemma updateSubmissions_alone {u : Update} {context : String} (h : ActiveUnique v)
    (hentry : ∀ id r k, u.applies id r → (u.set r).indexEntry = some k → r.indexEntry = some k) :
    Alone (updateSubmissions context u)
      (fun _ c' v' => c' = c ∧ ActiveUnique v' ∧
        ∀ i, v'.submission i = (v.submission i).map (u.apply i)) c v := by
  let J : List Uuid → Db → Db → Prop := fun rest c' v' => c' = c ∧ ActiveUnique v' ∧
    rest.Nodup ∧ (∀ i ∈ rest, ∃ r, v.submission i = some r ∧ u.applies i r) ∧
    ∀ i, v'.submission i = if i ∈ rest then v.submission i else (v.submission i).map (u.apply i)
  have body : ∀ i rest c₁ v₁, J (i :: rest) c₁ v₁ →
      Alone (updateRow context u i) (fun _ => J rest) c₁ v₁ := by
    rintro i rest c₁ v₁ ⟨rfl, hu, hnodup, hmatch, hrows⟩
    obtain ⟨hi, hnodup⟩ := List.nodup_cons.mp hnodup
    obtain ⟨r, hr, happ⟩ := hmatch i (by simp)
    have hr₁ : v₁.submission i = some r := by rw [hrows, if_pos (by simp), hr]
    refine (updateRow_alone hu hr₁ happ fun k => hentry i r k happ).mono ?_
    rintro _ c₂ v₂ ⟨rfl, rfl⟩
    refine ⟨rfl, hu.put hr₁ fun k => hentry i r k happ, hnodup,
      fun j hj => hmatch j (List.mem_cons_of_mem _ hj), fun j => ?_⟩
    rw [Db.submission_apply, Write.onSubmission]
    by_cases hij : i = j
    · subst hij
      rw [if_pos rfl, if_neg hi, hr, Option.map_some, Update.apply, if_pos happ]
    · rw [if_neg hij, hrows]
      simp [Ne.symm hij]
  refine Alone.select (Alone.seq (Alone.forEach (J := J) body ?_) ?_)
  · have hsub : ((v.submissions.rows.filter fun p => u.applies p.1 p.2).map Prod.fst).Nodup :=
      (List.filter_sublist.map _).nodup v.submissions.rows_nodup_keys
    have hmem : ∀ i, i ∈ (v.submissions.rows.filter fun p => u.applies p.1 p.2).map Prod.fst ↔
        ∃ r, v.submission i = some r ∧ u.applies i r := by
      intro i
      simp [Db.submission]
    refine ⟨rfl, h, hsub, fun i hi => (hmem i).mp hi, fun i => ?_⟩
    split_ifs with hi
    · rfl
    · cases hr : v.submission i with
      | none => rfl
      | some r =>
          have : u.applies i r = false := by
            by_contra hne
            exact hi ((hmem i).mpr ⟨r, hr, by simpa using hne⟩)
          simp [Update.apply, this]
  · rintro as c₁ v₁ ⟨hc, hu, -, -, hrows⟩
    exact Alone.pure ⟨hc, hu, fun i => by simpa using hrows i⟩

/-- The bookkeeping alone succeeds, and changes no submission. -/
lemma recomputeProblemScore_alone (k : Pair) :
    Alone (recomputeProblemScore hash k)
      (fun _ c' v' => c' = c ∧ v'.submission = v.submission) c v := by
  have insert : ∀ v₁ : Db, v₁.submission = v.submission → v₁.problemScore k = none →
      Alone (insertBestScore k) (fun _ c' v' => c' = c ∧ v'.submission = v.submission) c v₁ := by
    intro v₁ hsub hnone
    refine Alone.select ?_
    simp only [hnone, Option.isSome_none]
    cases v₁.bestSubmission k with
    | none => exact Alone.pure ⟨rfl, hsub⟩
    | some best => exact ⟨(), rfl, rfl, hsub⟩
  refine Alone.acquire (Alone.select ?_)
  cases hpresent : v.problemScore k with
  | none => exact insert v rfl hpresent
  | some s =>
      refine Alone.put (insert _ rfl ?_)
      rw [Db.problemScore_apply, Write.onScore, if_pos rfl]

lemma reconcile_alone (rows : List (Uuid × Submission)) :
    Alone (reconcileSubmissionChanges hash rows)
      (fun _ c' v' => c' = c ∧ v'.submission = v.submission) c v := by
  unfold reconcileSubmissionChanges
  split_ifs
  · exact Alone.pure ⟨rfl, rfl⟩
  refine Alone.seq (Alone.forEach (J := fun _ c' v' => c' = c ∧ v'.submission = v.submission) ?_
    ⟨rfl, rfl⟩) ?_
  · rintro p rest c₁ v₁ ⟨rfl, hsub⟩
    exact ⟨(), rfl, rfl, hsub⟩
  rintro _ c₁ v₁ ⟨hc₁, hsub₁⟩
  refine Alone.seq (Alone.forEach (J := fun _ c' v' => c' = c ∧ v'.submission = v.submission) ?_
    ⟨hc₁, hsub₁⟩) ?_
  · rintro k rest c₂ v₂ ⟨rfl, hsub⟩
    exact (recomputeProblemScore_alone k).mono fun _ _ _ h => ⟨h.1, h.2.trans hsub⟩
  · exact fun _ _ _ h => Alone.pure h

/-- What the reaper makes of a row. -/
def reaped (now : Time) (r : Submission) : Submission :=
  if expired now r then
    if r.attempts < 3 then (requeueUpdate now).set r else abandon now r
  else r

lemma indexEntry_of_reap {u : Update} {now : Time} (hu : u = requeueUpdate now ∨ u = failUpdate now)
    (happ : u.applies id r) (hk : (u.set r).indexEntry = some k) : r.indexEntry = some k := by
  have hstep : (Op.reap now).Step id r (u.set r) := by
    rcases hu with rfl | rfl
    · simp only [requeueUpdate, decide_eq_true_eq] at happ
      exact .requeue happ.1 happ.2
    · simp only [failUpdate, decide_eq_true_eq] at happ
      exact .fail happ.1 happ.2
  exact hstep.indexEntry hk

lemma reaped_eq (now : Time) (r : Submission) :
    (failUpdate now).apply id ((requeueUpdate now).apply id r) = reaped now r := by
  by_cases hexp : expired now r
  · by_cases hlt : r.attempts < 3
    · have hrunning : expired now ((requeueUpdate now).set r) = false := by
        simp [expired, requeueUpdate]
      simp [reaped, hexp, hlt, Update.apply, failUpdate, hrunning,
        show (requeueUpdate now).applies id r by simp [requeueUpdate, hexp, hlt]]
    · simp [reaped, hexp, hlt, Update.apply, failUpdate, requeueUpdate, Nat.le_of_not_lt hlt]
  · simp [reaped, hexp, Update.apply, failUpdate, requeueUpdate]

/-- One run of the reaper, with nobody else around, succeeds; it requeues the expired submissions
that have an attempt left, fails those that have none, and leaves the others. -/
theorem reclaimExpiredLeases_alone (hash : Hash) (h : ActiveUnique c) (now : Time) :
    ∃ n, ((reclaimExpiredLeases hash now).run.atomically c).1 = .ok n ∧
      ∀ i, ((reclaimExpiredLeases hash now).run.atomically c).2.submission i
        = (c.submission i).map (reaped now) := by
  have hrun : Alone (reclaimExpiredLeases hash now)
      (fun _ c' _ => ∀ i, c'.submission i = (c.submission i).map (reaped now)) c c := by
    refine Alone.transaction (Alone.seq (updateSubmissions_alone h fun i r k happ hk =>
      indexEntry_of_reap (Or.inl rfl) happ hk) ?_)
    rintro requeued c₁ v₁ ⟨-, hu₁, hrows₁⟩
    refine Alone.seq (updateSubmissions_alone hu₁ fun i r k happ hk =>
      indexEntry_of_reap (Or.inr rfl) happ hk) ?_
    rintro failed c₂ v₂ ⟨-, -, hrows₂⟩
    refine Alone.seq (reconcile_alone failed) ?_
    rintro n c₃ v₃ ⟨-, hsub⟩
    refine Alone.finish (Alone.pure fun i => ?_)
    rw [hsub, hrows₂, hrows₁, Option.map_map]
    congr 1
    funext r
    exact reaped_eq now r
  obtain ⟨n, hn, hrows⟩ := hrun
  exact ⟨n, hn, hrows⟩

/-! ## Counting in the history -/

/-- The event is a claim of the submission `id`. -/
def claimsOf (id : Uuid) : Event Op Db Reply → Bool
  | .committed (.claim _ _ _ _) c v => c.submission id ≠ v.submission id
  | _ => false

/-- The event sends the submission `id` back for a rejudge. -/
def rejudgesOf (id : Uuid) : Event Op Db Reply → Bool
  | .committed (.rejudge _) c v => c.submission id ≠ v.submission id
  | .committed (.rejudgeProblem _) c v => c.submission id ≠ v.submission id
  | _ => false

/-- The event is the reaper's, and puts the submission `id` back in the queue. -/
def requeuesOf (id : Uuid) : Event Op Db Reply → Bool
  | .committed (.reap _) c v =>
      c.submission id ≠ v.submission id ∧ (v.submission id).any fun r => r.state = .queued
  | _ => false

/-- The events since the last rejudge of the submission `id`. -/
def sinceRejudge (id : Uuid) (log : Judge.Log) : Judge.Log :=
  log.takeWhile fun e => !rejudgesOf id e

/-- `claims` claims and `requeues` requeues fit the row. -/
structure AttemptsFit (claims requeues : ℕ) (r : Submission) : Prop where
  attempts : r.attempts = claims
  claims_le : claims ≤ 3
  requeues_le : requeues ≤ 2
  queued : r.state = .queued → claims ≤ 2 ∧ requeues ≤ claims
  running : r.state = .running → requeues < claims

/-- What has been counted since the last rejudge fits the row of the submission `id`. -/
def Counted (id : Uuid) (db : Db) (log : Judge.Log) : Prop :=
  match db.submission id with
  | none => (sinceRejudge id log).countP (claimsOf id) = 0 ∧
      (sinceRejudge id log).countP (requeuesOf id) = 0
  | some r => AttemptsFit ((sinceRejudge id log).countP (claimsOf id))
      ((sinceRejudge id log).countP (requeuesOf id)) r

lemma sinceRejudge_cons (id : Uuid) (e : Event Op Db Reply) (log : Judge.Log) :
    sinceRejudge id (e :: log) = if rejudgesOf id e then [] else e :: sinceRejudge id log := by
  by_cases h : rejudgesOf id e <;> simp [sinceRejudge, h]

/-- An event that none of the counts is about. -/
lemma Counted.skip {e : Event Op Db Reply} {log : Judge.Log} (h : Counted id c log)
    (hrow : v.submission id = c.submission id) (hclaim : claimsOf id e = false)
    (hrejudge : rejudgesOf id e = false) (hrequeue : requeuesOf id e = false) :
    Counted id v (e :: log) := by
  simp only [Counted, sinceRejudge_cons, hrejudge, Bool.false_eq_true, if_false, hrow,
    List.countP_cons, hclaim, hrequeue, Nat.add_zero]
  exact h

/-- A commit keeps the count. -/
lemma Counted.commit {log : Judge.Log} (h : Counted id c log) (hR : Committed op c v) :
    Counted id v (.committed op c v :: log) := by
  by_cases hsame : c.submission id = v.submission id
  · refine h.skip hsame.symm ?_ ?_ ?_ <;> cases op <;> simp [claimsOf, rejudgesOf, requeuesOf, hsame]
  have hrow := hR.rows id
  generalize hc : c.submission id = o at hrow
  generalize hv : v.submission id = o' at hrow
  simp only [Counted, hc] at h
  cases hrow with
  | same => exact absurd (hc.trans hv.symm) hsame
  | insert hins =>
      cases op with
      | create n now clock =>
          obtain ⟨-, maxScore, testsTotal, rfl⟩ := hins
          simp only [Counted, hv, sinceRejudge_cons, rejudgesOf, Bool.false_eq_true, if_false,
            List.countP_cons, claimsOf, requeuesOf, h.1, h.2]
          exact ⟨rfl, by simp, by simp, by simp, by simp [newRow]⟩
      | _ => exact hins.elim
  | update hstep =>
      simp only [Counted, hv, sinceRejudge_cons]
      have hne : c.submission id ≠ v.submission id := hsame
      cases hstep with
      | claim hq =>
          simp only [rejudgesOf, claimsOf, requeuesOf, hne, Bool.false_eq_true, if_false,
            List.countP_cons, ne_eq, not_false_eq_true, decide_true, if_true, Nat.add_zero]
          obtain ⟨hle, hlt⟩ := h.queued hq
          exact ⟨by simp [claimUpdate, h.attempts], by omega, h.requeues_le, by simp [claimUpdate],
            fun _ => by omega⟩
      | renew | review =>
          simp only [rejudgesOf, claimsOf, requeuesOf, Bool.false_eq_true, if_false,
            List.countP_cons, Nat.add_zero]
          exact ⟨h.attempts, h.claims_le, h.requeues_le, h.queued, h.running⟩
      | @complete j =>
          simp only [rejudgesOf, claimsOf, requeuesOf, Bool.false_eq_true, if_false,
            List.countP_cons, Nat.add_zero]
          rcases j.evaluated.status with hs | hs <;>
          exact ⟨h.attempts, h.claims_le, h.requeues_le, by simp [completeUpdate, hs],
            by simp [completeUpdate, hs]⟩
      | @requeue now _ _ hexp hlt =>
          have hcount : requeuesOf id (.committed (.reap now) c v) = true :=
            decide_eq_true ⟨hsame, by simp [hv, requeueUpdate]⟩
          simp only [expired, decide_eq_true_eq] at hexp
          simp only [rejudgesOf, claimsOf, hcount, Bool.false_eq_true, if_false, List.countP_cons,
            if_true, Nat.add_zero]
          have hclaims := h.attempts
          have hrunning := h.running hexp.1
          exact ⟨h.attempts, h.claims_le, by omega, fun _ => ⟨by omega, by omega⟩,
            by simp [requeueUpdate]⟩
      | fail hexp hle =>
          simp only [rejudgesOf, claimsOf, requeuesOf, hv, Bool.false_eq_true, if_false,
            List.countP_cons, abandon, Option.any_some, reduceCtorEq, decide_false, and_false,
            Nat.add_zero]
          exact ⟨h.attempts, h.claims_le, h.requeues_le, by simp, by simp⟩
      | rejudge | rejudgeProblem =>
          simp only [rejudgesOf, hne, ne_eq, not_false_eq_true, decide_true, if_true,
            List.countP_nil]
          exact ⟨rfl, by simp, by simp, by simp, by simp [requeueForRejudge]⟩
      | cancel | unstick =>
          simp only [rejudgesOf, claimsOf, requeuesOf, Bool.false_eq_true, if_false,
            List.countP_cons, Nat.add_zero]
          exact ⟨h.attempts, h.claims_le, h.requeues_le, by simp [abandon], by simp [abandon]⟩

/-- In every reachable system the counter of a submission is the number of claims since its last
rejudge. -/
theorem Judge.attempts_eq (hs : Judge.Reachable hash s) (id : Uuid) : Counted id s.db s.log := by
  refine Judge.history (fun db h => h.activeUnique) (Counted id) ?_ ?_ ?_
    (fun c v log op h _ hR => h.commit hR) (fun _ _ _ h => h) hs
  · intro db h
    simp [Counted, h.submission id, sinceRejudge]
  · exact fun db log op h => h.skip rfl rfl rfl rfl
  · exact fun db log op a ps h _ => h.skip rfl rfl rfl rfl

/-- The counter and the row, as far as the counts bound them. -/
lemma Counted.row {log : Judge.Log} (h : Counted id c log) (hr : c.submission id = some r) :
    AttemptsFit ((sinceRejudge id log).countP (claimsOf id))
      ((sinceRejudge id log).countP (requeuesOf id)) r := by
  simpa only [Counted, hr] using h

lemma Counted.bounds {log : Judge.Log} (h : Counted id c log) :
    (sinceRejudge id log).countP (claimsOf id) ≤ 3 ∧
      (sinceRejudge id log).countP (requeuesOf id) ≤ 2 := by
  cases hr : c.submission id with
  | none =>
      simp only [Counted, hr] at h
      omega
  | some r => exact ⟨(h.row hr).claims_le, (h.row hr).requeues_le⟩

/-- A stretch of the history without a rejudge is part of what is counted at its end. -/
lemma countP_le_sinceRejudge {p : Event Op Db Reply → Bool} {segment older : Judge.Log}
    (h : ∀ e ∈ segment, rejudgesOf id e = false) :
    segment.countP p ≤ (sinceRejudge id (segment ++ older)).countP p := by
  rw [sinceRejudge, List.takeWhile_append_of_pos fun e he => by simp [h e he], List.countP_append]
  exact Nat.le_add_right _ _

/-- **The poison pill.**  In every reachable system the counter of a submission is at most 3, and at
most 2 while it is queued; in a stretch of the history without a rejudge of it, it is claimed at most
three times and requeued at most twice; when the lease of its third claim has expired, the reaper
makes it failed with verdict IE; and no reaper's commit does anything else to it, or requeues it. -/
theorem Judge.poison_pill (hs : Judge.Reachable hash s) (id : Uuid) :
    (∀ r, s.db.submission id = some r →
      r.attempts ≤ 3 ∧ (r.state = .queued → r.attempts ≤ 2)) ∧
    (∀ newer segment older, s.log = newer ++ (segment ++ older) →
      (∀ e ∈ segment, rejudgesOf id e = false) →
      segment.countP (claimsOf id) ≤ 3 ∧ segment.countP (requeuesOf id) ≤ 2) ∧
    (∀ now r, s.db.submission id = some r → expired now r → r.attempts = 3 →
      (∃ n, ((reclaimExpiredLeases hash now).run.atomically s.db).1 = .ok n) ∧
      ((reclaimExpiredLeases hash now).run.atomically s.db).2.submission id
        = some (abandon now r)) ∧
    (∀ now c v r, .committed (.reap now) c v ∈ s.log → c.submission id = some r →
      r.attempts = 3 → v.submission id = some r ∨ v.submission id = some (abandon now r)) := by
  have hinit : ∀ db : Db, db.Fresh → ActiveUnique db := fun db h => h.activeUnique
  refine ⟨fun r hr => ?_, fun newer segment older hlog hseg => ?_, fun now r hr hexp hthree => ?_,
    fun now c v r hmem hr hthree => ?_⟩
  · have hfit := (Judge.attempts_eq hs id).row hr
    rw [hfit.attempts]
    exact ⟨hfit.claims_le, fun hq => (hfit.queued hq).1⟩
  · obtain ⟨s', hs', hlog'⟩ := hs.older hlog
    have hbounds := (Judge.attempts_eq hs' id).bounds
    rw [hlog'] at hbounds
    exact ⟨(countP_le_sinceRejudge hseg).trans hbounds.1,
      (countP_le_sinceRejudge hseg).trans hbounds.2⟩
  · obtain ⟨n, hn, hrows⟩ :=
      reclaimExpiredLeases_alone hash (hs.good (Judge.verified hinit)).inv now
    refine ⟨⟨n, hn⟩, ?_⟩
    rw [hrows, hr, Option.map_some, reaped, if_pos hexp, if_neg (by omega)]
  · obtain ⟨newer, older, hlog⟩ := List.append_of_mem hmem
    have hrow := ((hs.committed (Judge.verified hinit) hlog).1).rows id
    rw [hr] at hrow
    generalize v.submission id = o at hrow
    cases hrow with
    | same => exact Or.inl rfl
    | update hstep =>
        cases hstep with
        | requeue hexp hlt => omega
        | fail hexp hle => exact Or.inr rfl

/-- Three workers in a row take the submission and are never heard of again. -/
theorem Judge.poison_pill_sample :
    ∃ s : Judge.State, Judge.Reachable sampleHash s ∧
      (∃ r, s.db.submission 11 = some r ∧ r.attempts = 3 ∧ expired 300000000 r) ∧
      s.log.countP (claimsOf 11) = 3 ∧
      ∀ newer segment older, s.log = newer ++ (segment ++ older) →
        (∀ e ∈ segment, rejudgesOf 11 e = false) →
        segment.countP (claimsOf 11) ≤ 3 ∧ segment.countP (requeuesOf 11) ≤ 2 := by
  let s := sampleRun [.create (sampleSubmission 11 1) 0 5, .claim "w1" 10 10 id, .reap 100000000,
    .claim "w2" 100000010 100000010 id, .reap 200000000, .claim "w3" 200000010 200000010 id]
  obtain ⟨r, hr⟩ : ∃ r, s.db.submission 11 = some r :=
    Option.isSome_iff_exists.mp (by decide +kernel)
  have hstate : (s.db.submission 11).all fun r => r.attempts = 3 ∧ expired 300000000 r := by
    decide +kernel
  simp only [hr, Option.all_some, decide_eq_true_eq] at hstate
  exact ⟨s, sampleRun_reachable _, ⟨r, hr, hstate⟩, by decide +kernel,
    (Judge.poison_pill (sampleRun_reachable _) 11).2.1⟩

end Labyrithm
