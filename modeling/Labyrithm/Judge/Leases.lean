import Labyrithm.Judge.Invariants
import Labyrithm.Sql.Published

/-!
# The lease fences off outdated results

A worker's claim id is the token it completes under.  `HeldSince id claim log` says that since the
claim was written to the submission nothing but renewals and reviews has changed it.

* `Judge.History` — the histories that commits of the judge's operations make; that of every
  reachable system is one.
* `Judge.History.held_since` — a running submission has been held since its claim was written.
* `Judge.History.completion_unique` — under one claim id at most one completion commits.
* **`Judge.lease_fencing`** — both, and that a handler that has lost the lease leaves the store as it
  is.
-/

namespace Labyrithm

open Sql Tx

variable {hash : Hash} {op : Op} {id : Uuid} {claim : ClaimId} {r r' : Submission} {c v : Db}
  {s : Judge.State} {log newer older : Judge.Log} {j : Judged} {now clock : Time}

/-- The claim id of a committed claim. -/
def claimIdOf : Event Op Db Reply → Option ClaimId
  | .committed (.claim workerId _ _ _) _ _ => some workerId
  | _ => none

/-- Each committed claim has a claim id of its own. -/
def FreshClaims (log : Judge.Log) : Prop := (log.filterMap claimIdOf).Nodup

/-- The event neither claims, completes, reaps, cancels, unsticks nor rejudges the submission `id`:
it leaves the row as it is, or it is a renewal or a review. -/
def KeepsClaim (id : Uuid) : Event Op Db Reply → Prop
  | .committed (.renew _ _ _ _) _ _ => True
  | .committed (.review _ _ _ _ _) _ _ => True
  | .committed _ c v => v.submission id = c.submission id
  | _ => True

/-- `claim` was written to the submission `id`, and every later event has kept it. -/
def HeldSince (id : Uuid) (claim : ClaimId) (log : Judge.Log) : Prop :=
  ∃ between earlier now clock ties c v,
    log = between ++ .committed (.claim claim now clock ties) c v :: earlier ∧
    v.submission id ≠ c.submission id ∧ ∀ e ∈ between, KeepsClaim id e

lemma HeldSince.cons {e : Event Op Db Reply} (h : HeldSince id claim log) (he : KeepsClaim id e) :
    HeldSince id claim (e :: log) := by
  obtain ⟨between, earlier, now, clock, ties, c, v, rfl, hne, hbetween⟩ := h
  exact ⟨e :: between, earlier, now, clock, ties, c, v, rfl, hne,
    List.forall_mem_cons.mpr ⟨he, hbetween⟩⟩

/-- The submissions that are running have been held since their claim. -/
def AllHeld (db : Db) (log : Judge.Log) : Prop :=
  ∀ id r claim, db.submission id = some r → r.state = .running → r.claimedBy = some claim →
    HeldSince id claim log

lemma AllHeld.commit (h : AllHeld c log) (hR : Committed op c v) :
    AllHeld v (.committed op c v :: log) := by
  intro id r' claim hr' hrun hclaim
  have hrow := hR.rows id
  by_cases hsame : v.submission id = c.submission id
  · refine (h id r' claim (hsame ▸ hr') hrun hclaim).cons ?_
    cases op <;> trivial
  rw [hr'] at hrow
  generalize hr : c.submission id = o at hrow
  cases hrow with
  | same => exact absurd (hr'.trans hr.symm) hsame
  | insert hins =>
      cases op with
      | create n now clock =>
          obtain ⟨-, _, _, rfl⟩ := hins
          simp [newRow] at hrun
      | _ => exact hins.elim
  | update hstep =>
      cases hstep with
      | claim hq =>
          obtain rfl := Option.some.inj hclaim
          exact ⟨[], log, _, _, _, c, v, rfl, hsame, by simp⟩
      | renew hlease =>
          simp only [holdsLease, decide_eq_true_eq] at hlease
          exact (h id _ claim hr hlease.2.2.1 hclaim).cons trivial
      | review => exact (h id _ claim hr hrun hclaim).cons trivial
      | @complete j => rcases j.evaluated.status with hs | hs <;> simp [completeUpdate, hs] at hrun
      | requeue => simp [requeueUpdate] at hrun
      | rejudge | rejudgeProblem => simp [requeueForRejudge] at hrun
      | fail | cancel | unstick => simp [abandon] at hrun

namespace Judge

/-- The store and the history that commits of operations of the judge, and edits of the catalogue,
lead to. -/
inductive History : Db → Log → Prop
  | nil {db : Db} : db.Fresh → History db []
  | other {db : Db} {log : Log} {e : Event Op Db Reply} :
      (∀ op c v, e ≠ .committed op c v) → History db log → History db (e :: log)
  | commit {c v : Db} {log : Log} {op : Op} :
      History c log → Committed op c v → History v (.committed op c v :: log)
  | edit {db : Db} {log : Log} (catalog : Catalog) :
      History db log → History { db with catalog := catalog } log

/-- The history of a reachable system. -/
theorem history_of_reachable (hs : Reachable hash s) : History s.db s.log := by
  refine Judge.history (fun db h => h.activeUnique) History ?_ ?_ ?_ ?_ ?_ hs
  · exact fun db h => .nil h
  · exact fun db log op h => .other (fun _ _ _ he => by cases he) h
  · exact fun db log op a ps h _ => .other (fun _ _ _ he => by cases he) h
  · exact fun c v log op h _ hR => .commit h hR
  · exact fun db catalog log h => .edit catalog h

namespace History

/-- A commit in the history was one of its operation, made where what is older had led. -/
lemma committed {db : Db} (h : History db log)
    (hlog : log = newer ++ .committed op c v :: older) : Committed op c v ∧ History c older := by
  induction h generalizing newer with
  | nil => simp at hlog
  | other hother _ ih =>
      cases newer with
      | nil => exact absurd (List.cons.inj hlog).1 (hother _ _ _)
      | cons e newer => exact ih (List.cons.inj hlog).2
  | commit h hR ih =>
      cases newer with
      | nil =>
          obtain ⟨he, rfl⟩ := List.cons.inj hlog
          obtain ⟨rfl, rfl, rfl⟩ := Event.committed.inj he
          exact ⟨hR, h⟩
      | cons e newer => exact ih (List.cons.inj hlog).2
  | edit catalog _ ih => exact ih hlog

/-- A running submission has been held since its claim was written. -/
theorem held_since {db : Db} (h : History db log) : AllHeld db log := by
  induction h with
  | @nil db h =>
      intro id r claim hr
      rw [h.submission id] at hr
      cases hr
  | @other db log e hother _ ih =>
      have hkeep : ∀ id, KeepsClaim id e := by
        intro id
        cases e with
        | committed op c v => exact absurd rfl (hother op c v)
        | _ => trivial
      exact fun id r claim hr hrun hc => (ih id r claim hr hrun hc).cons (hkeep id)
  | commit _ hR ih => exact ih.commit hR
  | edit catalog _ ih => exact ih

/-! ## Completions -/

/-- A completion commits only while its claim holds the submission, under a lease that had not
expired when its transaction began; it ends the submission. -/
lemma completion_held {db : Db} (h : History db log)
    (hlog : log = newer ++ .committed (.complete j claim now clock) c v :: older) :
    (∃ r, c.submission j.result.submissionId = some r ∧
      holdsLease j.result.submissionId claim now j.result.submissionId r) ∧
    v.submission j.result.submissionId ≠ c.submission j.result.submissionId ∧
    HeldSince j.result.submissionId claim older := by
  obtain ⟨hR, holder⟩ := h.committed hlog
  obtain ⟨r, hr, hlease, hv⟩ := hR.achieved
  have hheld := hlease
  simp only [holdsLease, decide_eq_true_eq] at hheld
  refine ⟨⟨r, hr, hlease⟩, fun hsame => ?_, ?_⟩
  · have hrow : (completeUpdate j.result claim now clock).set r = r :=
      Option.some.inj (hv.symm.trans (hsame.trans hr))
    have hstate : j.result.status = .running := (congrArg Submission.state hrow).trans hheld.2.2.1
    rcases j.evaluated.status with h | h <;> simp [h] at hstate
  · exact holder.held_since j.result.submissionId r claim hr hheld.2.2.1 hheld.2.1

end History

end Judge

/-- Two elements with one key are one, if the keys are distinct. -/
lemma not_nodup_of_two {α β : Type} {f : α → Option β} {b : β} {x y : α} {l₁ l₂ l₃ : List α}
    (hx : f x = some b) (hy : f y = some b) :
    ¬ ((l₁ ++ x :: (l₂ ++ y :: l₃)).filterMap f).Nodup := by
  simp [List.filterMap_append, hx, hy, List.nodup_append]

/-- A list splits in one way at an element with a given key, if the keys are distinct. -/
lemma split_unique {α β : Type} (f : α → Option β) (b : β) {l₁ l₂ m₁ m₂ : List α} {x y : α}
    (hx : f x = some b) (hy : f y = some b) (hnodup : ((l₁ ++ x :: l₂).filterMap f).Nodup)
    (h : l₁ ++ x :: l₂ = m₁ ++ y :: m₂) : l₁ = m₁ ∧ x = y ∧ l₂ = m₂ := by
  rcases List.append_eq_append_iff.mp h with ⟨t, rfl, ht⟩ | ⟨t, rfl, ht⟩
  · cases t with
    | nil => simpa using ht
    | cons z t =>
        obtain ⟨rfl, rfl⟩ := List.cons.inj ht
        exact absurd hnodup (not_nodup_of_two hx hy)
  · cases t with
    | nil => simpa [eq_comm] using ht
    | cons z t =>
        obtain ⟨rfl, rfl⟩ := List.cons.inj ht
        rw [List.append_assoc] at hnodup
        exact absurd hnodup (not_nodup_of_two hy hx)

/-- Under one claim id at most one completion commits, whatever submissions it is for. -/
theorem Judge.History.completion_unique {db : Db} (h : Judge.History db log)
    (hfresh : FreshClaims log) {j' : Judged} {now' clock' : Time} {c' v' : Db} {between : Judge.Log}
    (hlog : log = newer ++ .committed (.complete j claim now clock) c v ::
      (between ++ .committed (.complete j' claim now' clock') c' v' :: older)) : False := by
  obtain ⟨-, -, b₁, e₁, n₁, k₁, t₁, c₁, v₁, hsplit₁, hne₁, hkeep₁⟩ := h.completion_held hlog
  have hlog' : log = (newer ++ .committed (.complete j claim now clock) c v :: between) ++
      .committed (.complete j' claim now' clock') c' v' :: older := by
    rw [hlog, List.append_assoc, List.cons_append]
  obtain ⟨-, hended, b₂, e₂, n₂, k₂, t₂, c₂, v₂, hsplit₂, hne₂, hkeep₂⟩ := h.completion_held hlog'
  -- both claims are the one claim with this id
  have hfresh' : ((b₁ ++ .committed (.claim claim n₁ k₁ t₁) c₁ v₁ :: e₁).filterMap claimIdOf).Nodup := by
    rw [FreshClaims, hlog, hsplit₁, List.filterMap_append, List.filterMap_cons] at hfresh
    exact hfresh.of_append_right
  have hsplit : b₁ ++ .committed (.claim claim n₁ k₁ t₁) c₁ v₁ :: e₁
      = (between ++ .committed (.complete j' claim now' clock') c' v' :: b₂)
        ++ .committed (.claim claim n₂ k₂ t₂) c₂ v₂ :: e₂ := by
    rw [← hsplit₁, hsplit₂, List.append_assoc, List.cons_append]
  obtain ⟨rfl, hclaim, -⟩ := split_unique claimIdOf claim rfl rfl hfresh' hsplit
  obtain ⟨-, rfl, rfl⟩ := Event.committed.inj hclaim
  -- and a claim claims one submission
  have hlog₁ : log = (newer ++ .committed (.complete j claim now clock) c v ::
      (between ++ .committed (.complete j' claim now' clock') c' v' :: b₂)) ++
      .committed (.claim claim n₁ k₁ t₁) c₁ v₁ :: e₁ := by
    rw [hlog, hsplit₁]
    simp
  obtain ⟨i, r, -, -, -, hothers⟩ := (h.committed hlog₁).1.achieved
  have hid : ∀ i', v₁.submission i' ≠ c₁.submission i' → i' = i :=
    fun i' hne => by_contra fun h => hne (hothers i' h)
  have hsame : j.result.submissionId = j'.result.submissionId :=
    (hid _ hne₁).trans (hid _ hne₂).symm
  exact hended (hsame ▸ hkeep₁ (.committed (.complete j' claim now' clock') c' v') (by simp))

/-! ## Handlers that have lost the lease -/

lemma storeRow_silent (context : String) (id : Uuid) (old : Option Submission) (new : Submission) :
    Silent (storeRow context id old new).run := by
  unfold storeRow
  cases new.indexEntry with
  | none => trivial
  | some k =>
      have check : ∀ conflict : Bool, Silent (if conflict then
          throw (.sql context (.uniqueViolation .activeTeamProblem))
        else put (.putSubmission id new) : Handler Unit).run := by
        intro conflict
        cases conflict <;> trivial
      simp only
      split_ifs
      · exact Silent.bind trivial fun _ => Silent.bind (fun _ => trivial) check
      · exact Silent.bind (fun _ => trivial) check

lemma updateRow_silent (context : String) (u : Update) (id : Uuid) :
    Silent (updateRow context u id).run := by
  refine Silent.bind trivial fun _ => Silent.bind (fun _ => trivial) fun row => ?_
  cases row with
  | none => trivial
  | some r =>
      simp only
      split_ifs
      · exact Silent.bind (storeRow_silent _ _ _ _) fun _ => trivial
      · trivial

lemma updateSubmissions_silent (context : String) (u : Update) :
    Silent (updateSubmissions context u).run :=
  Silent.bind (fun _ => trivial) fun ids =>
    Silent.bind (Silent.forEach (updateRow_silent context u) ids) fun _ => trivial

lemma recomputeProblemScore_silent (k : Pair) : Silent (recomputeProblemScore hash k).run := by
  have insert : Silent (insertBestScore k).run := by
    refine Silent.bind (fun _ => trivial) fun row => ?_
    rcases row with ⟨best, present⟩
    cases best <;> cases present <;> trivial
  refine Silent.bind trivial fun _ => Silent.bind (fun _ => trivial) fun present => ?_
  cases present with
  | true => exact Silent.bind trivial fun _ => insert
  | false => exact insert

lemma insertTest_silent (id : Uuid) (t : ℤ × SubmissionTest) : Silent (insertTest id t).run := by
  refine Silent.bind (fun _ => trivial) fun taken => ?_
  cases taken <;> trivial

/-- A completion that fails, for whatever reason, has published nothing. -/
theorem completeSubmissionTx_unpublished (res : Result) (workerId : ClaimId) (now clock : Time) :
    FailsUnpublished (completeSubmissionTx hash res workerId now clock) := by
  refine FailsUnpublished.transaction (.bind (updateSubmissions_silent _ _) fun rows => ?_)
  cases rows with
  | nil => exact .of_silent trivial
  | cons p rows =>
      refine .bind trivial fun _ => .bind (Silent.forEach (insertTest_silent _) _) fun _ => ?_
      refine .bind (fun _ => trivial) fun row => ?_
      cases row with
      | none => exact .of_silent trivial
      | some k => exact .bind (recomputeProblemScore_silent k) fun _ => .finish

/-- An `UPDATE` that changed no row has written nothing. -/
lemma updateSubmissions_returns (context : String) (u : Update) (ws : List Write) :
    Returns (updateSubmissions context u) (fun rows ws' => rows = [] → ws' = ws) ws := by
  have row : ∀ id as ws', (as.reduceOption = [] → ws' = ws) →
      Returns (updateRow context u id)
        (fun a ws'' => (as ++ [a]).reduceOption = [] → ws'' = ws) ws' := by
    intro id as ws' has
    have unwritten : Returns (pure none : Handler (Option (Uuid × Submission)))
        (fun a ws'' => (as ++ [a]).reduceOption = [] → ws'' = ws) ws' :=
      Returns.pure (by simpa [List.reduceOption_append] using has)
    refine Returns.bind (P := fun _ ws'' => ws'' = ws') (fun _ _ _ => rfl) fun _ ws₁ h₁ => ?_
    subst h₁
    refine Returns.bind (P := fun _ ws'' => ws'' = ws₁) (fun _ _ _ _ => rfl) fun row ws₂ h₂ => ?_
    subst h₂
    cases row with
    | none => exact unwritten
    | some r =>
        simp only
        split_ifs
        · refine Returns.bind (Returns.trivial (Q := fun _ _ => True) fun _ _ => trivial) ?_
          exact fun _ _ _ => Returns.pure (by simp [List.reduceOption_append])
        · exact unwritten
  refine Returns.bind (P := fun _ ws' => ws' = ws) (fun _ _ _ _ => rfl) fun ids ws₁ h₁ => ?_
  subst h₁
  exact Returns.bind (Returns.forEach row ids [] fun _ => rfl) fun as ws' h => Returns.pure h

/-- A renewal that has lost the lease has published nothing but an empty transaction. -/
theorem renewLease_publishes (submissionId : Uuid) (workerId : ClaimId) (now clock : Time) :
    Publishes (renewLease submissionId workerId now clock).run
      (fun a ps _ => a = .error .leaseLost → ∀ p ∈ ps, p.2 = p.1) [] [] := by
  have body : Publishes (updateSubmissions "renew lease"
      (renewUpdate submissionId workerId now clock)).run
      (fun r ps ws => ps = [] ∧ ∀ rows, r = .ok rows → rows = [] → ws = []) [] [] :=
    (Publishes.of_silent (updateSubmissions_silent _ _)).and (updateSubmissions_returns _ _ [] [])
  refine publishes_bind.mpr (publishes_bind.mpr (publishes_bind.mpr (body.mono ?_)))
  rintro r ps ws ⟨rfl, hws⟩
  cases r with
  | error e => exact fun _ p hp => by cases hp
  | ok rows =>
      refine fun c => ?_
      cases rows with
      | nil =>
          obtain rfl := hws [] rfl rfl
          intro _ p hp
          obtain rfl : p = (c, view [] c) := by simpa using hp
          rfl
      | cons q rows => exact fun h => by cases h

/-- The handler has lost the lease and leaves the store as it is: each of its commits left it so. -/
def LostUnchanged : Op → Reply → List (Db × Db) → Prop
  | .complete _ _ _ _, a, ps | .renew _ _ _ _, a, ps =>
      a = .error .leaseLost → ∀ p ∈ ps, p.2 = p.1
  | _, _, _ => True

lemma Op.publishes (op : Op) :
    Publishes (op.program hash) (fun a ps _ => LostUnchanged op a ps) [] [] := by
  cases op with
  | complete j workerId now clock =>
      have hfails : FailsUnpublished (completeSubmissionTx hash j.result workerId now clock) :=
        completeSubmissionTx_unpublished j.result workerId now clock
      refine (hfails.answer (fun _ => Answer.done) [] []).mono fun a ps _ h hlost p hp => ?_
      rw [h _ hlost] at hp
      cases hp
  | renew submissionId workerId now clock =>
      refine publishes_bind.mpr ((renewLease_publishes submissionId workerId now clock).mono ?_)
      intro r ps ws h
      cases r with
      | ok _ => exact fun he => by cases he
      | error e => exact fun he => h (by cases he; rfl)
  | _ => exact Publishes.true _ _ _

/-- **Lease fencing.**  In every reachable system whose claims have claim ids of their own:

* a completion that has committed held the submission under its claim id, with a lease that had not
  expired when its transaction began; since that claim was written to the submission, nothing but
  renewals and reviews had changed it; and no other completion under the claim id has committed;
* a completion or renewal that has replied that the lease is lost has left the store as it was. -/
theorem Judge.lease_fencing (hs : Judge.Reachable hash s) (hfresh : FreshClaims s.log) :
    (∀ newer older j claim now clock c v,
      s.log = newer ++ .committed (.complete j claim now clock) c v :: older →
      (∃ r lease, c.submission j.result.submissionId = some r ∧ r.state = .running ∧
        r.claimedBy = some claim ∧ r.leaseUntil = some lease ∧ now < lease) ∧
      HeldSince j.result.submissionId claim older ∧
      ∀ j' now' clock' c' v',
        .committed (.complete j' claim now' clock') c' v' ∉ newer ++ older) ∧
    (∀ j claim now clock ps,
      .replied (.complete j claim now clock) (.error .leaseLost) ps ∈ s.log → ∀ p ∈ ps, p.2 = p.1) ∧
    (∀ id claim now clock ps,
      .replied (.renew id claim now clock) (.error .leaseLost) ps ∈ s.log → ∀ p ∈ ps, p.2 = p.1) := by
  have hhistory := Judge.history_of_reachable hs
  refine ⟨fun newer older j claim now clock c v hlog => ?_, fun j claim now clock ps h => ?_,
    fun id claim now clock ps h => ?_⟩
  · obtain ⟨⟨r, hr, hlease⟩, -, hheld⟩ := hhistory.completion_held hlog
    simp only [holdsLease, decide_eq_true_eq] at hlease
    obtain ⟨lease, hl, hlt⟩ := (Option.any_eq_true _ _).mp hlease.2.2.2
    refine ⟨⟨r, lease, hr, hlease.2.2.1, hlease.2.1, hl, by simpa using hlt⟩, hheld, ?_⟩
    intro j' now' clock' c' v' hmem
    rcases List.mem_append.mp hmem with hmem | hmem
    · obtain ⟨l₁, l₂, rfl⟩ := List.append_of_mem hmem
      rw [List.append_assoc, List.cons_append] at hlog
      exact hhistory.completion_unique hfresh hlog
    · obtain ⟨l₁, l₂, rfl⟩ := List.append_of_mem hmem
      exact hhistory.completion_unique hfresh hlog
  · exact hs.replied (Q := LostUnchanged) Op.publishes h rfl
  · exact hs.replied (Q := LostUnchanged) Op.publishes h rfl

/-- The event is a completion under `claim`. -/
def completesUnder (claim : ClaimId) : Event Op Db Reply → Bool
  | .committed (.complete _ workerId _ _) _ _ => workerId = claim
  | _ => false

/-- The event is the reply to a completion that has lost the lease `claim`. -/
def losesLease (claim : ClaimId) : Event Op Db Reply → Bool
  | .replied (.complete _ workerId _ _) (.error .leaseLost) _ => workerId = claim
  | _ => false

/-- A worker loses the submission to the reaper; the next one completes it, and the first is told that
its lease is lost. -/
theorem Judge.lease_fencing_sample :
    ∃ s : Judge.State, Judge.Reachable sampleHash s ∧ FreshClaims s.log ∧
      s.log.countP (completesUnder "w2") = 1 ∧ s.log.countP (losesLease "w1") = 1 ∧
      ∀ newer older j claim now clock c v,
        s.log = newer ++ .committed (.complete j claim now clock) c v :: older →
        HeldSince j.result.submissionId claim older := by
  let ops : List Op := [.create (sampleSubmission 11 1) 0 5, .claim "w1" 10 10 id, .reap 100000000,
    .claim "w2" 100000010 100000010 id,
    .complete (sampleJudged 11 1) "w1" 100000020 100000020,
    .complete (sampleJudged 11 1) "w2" 100000030 100000030]
  have hfresh : FreshClaims (sampleRun ops).log := by
    show ((sampleRun ops).log.filterMap claimIdOf).Nodup
    decide +kernel
  refine ⟨sampleRun ops, sampleRun_reachable ops, hfresh, by decide +kernel, by decide +kernel,
    fun newer older j claim now clock c v hlog => ?_⟩
  have hfencing := (Judge.lease_fencing (sampleRun_reachable ops) hfresh).1
  exact (hfencing newer older j claim now clock c v hlog).2.1

end Labyrithm
