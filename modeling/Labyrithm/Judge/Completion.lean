import Labyrithm.Judge.Leases
import Labyrithm.Sql.Faults

/-!
# `CompleteSubmission` reports what happened

`queue.go`, lines 88–161.  A worker that has judged a submission tries `completeSubmissionTx` up to
three times: it stops at the first success and at the first `ErrLeaseLost`, and otherwise returns the
last error.  Each attempt has a connection of its own, which may break before the commit or lose the
acknowledgement of the commit; to the worker both are the same error.

The requests of the judge run interleaved with any number of such workers (`Completion.Reachable`).
The reply of `CompleteSubmission` carries, besides what it returns, the outcomes of the attempts it
has made, which the worker itself cannot tell apart.

**`Judge.completion_reports`** — what `CompleteSubmission` returns is right unless the acknowledgement
of a commit was lost.  When one was lost it is wrong: the next attempt finds the lease gone, because
the submission is no longer running, and reports the worker's own success as a lost lease.
-/

namespace Labyrithm

open Sql Tx

/-! ## One attempt -/

/-- What becomes of the connection of an attempt. -/
inductive Connection
  | sound
  | breaks (n : ℕ)
  | losesAck
  deriving DecidableEq, Repr

/-- One turn of the loop: the start of its transaction, the worker's clock and its connection. -/
structure Try where
  now : Time
  clock : Time
  connection : Connection

/-- What an attempt has come to. -/
inductive Outcome
  | committed
  | refused (e : JudgeError)
  | broken
  | unacknowledged
  deriving DecidableEq, Repr

/-- The errors of `CompleteSubmission`. -/
inductive CompletionError
  | judge (e : JudgeError)
  | connection
  deriving DecidableEq, Repr

/-- The error `completeSubmissionTx` returns to the loop, `none` being Go's `nil`. -/
def Outcome.error : Outcome → Option CompletionError
  | committed => none
  | refused e => some (.judge e)
  | broken | unacknowledged => some .connection

/-- The attempt has written its result. -/
def Outcome.landed : Outcome → Bool
  | committed | unacknowledged => true
  | refused _ | broken => false

/-- `completeSubmissionTx` as the loop calls it: a new transaction, which ends in an outcome. -/
def completion (hash : Hash) (res : Result) (workerId : ClaimId) (now clock : Time) :
    Tx Db Write Lock Outcome :=
  rollback <| (completeSubmissionTx hash res workerId now clock).run >>= fun r =>
    match r with
    | .ok _ => ret .committed
    | .error e => ret (.refused e)

/-- An attempt over its connection. -/
def attempt (hash : Hash) (res : Result) (workerId : ClaimId) (t : Try) :
    Tx Db Write Lock Outcome :=
  let tx := completion hash res workerId t.now t.clock
  match t.connection with
  | .sound => tx
  | .breaks n => breakAfter .broken tx n
  | .losesAck => loseAck .unacknowledged tx

/-! ## The loop -/

/-- What `CompleteSubmission` returns, and the outcomes of the attempts it has made. -/
structure Report where
  returned : Option CompletionError
  outcomes : List Outcome
  deriving DecidableEq, Repr

/-- `for attempt := 0; attempt < 3; attempt++`, over the attempts left to make. -/
def completeLoop (hash : Hash) (res : Result) (workerId : ClaimId) :
    Option CompletionError → List Try → Tx Db Write Lock Report
  | lastErr, [] => ret ⟨lastErr, []⟩
  | _, t :: ts => attempt hash res workerId t >>= fun o =>
      match o.error with
      | none => ret ⟨none, [o]⟩
      | some err =>
          if err = .judge .leaseLost then
            ret ⟨some err, [o]⟩
          else
            completeLoop hash res workerId (some err) ts >>= fun report =>
              ret { report with outcomes := o :: report.outcomes }

/-- The three turns of the loop. -/
abbrev Tries := Fin 3 → Try

/-- `CompleteSubmission`. -/
def completeSubmission (hash : Hash) (res : Result) (workerId : ClaimId) (tries : Tries) :
    Tx Db Write Lock Report :=
  completeLoop hash res workerId none [tries 0, tries 1, tries 2]

/-! ## The judge and its workers -/

/-- The requests of the judge and the calls of `CompleteSubmission`. -/
inductive Request
  | judge (op : Op)
  | completeSubmission (j : Judged) (workerId : ClaimId) (tries : Tries)

inductive Response
  | judge (reply : Reply)
  | completed (report : Report)

def Request.program (hash : Hash) : Request → Tx Db Write Lock Response
  | judge op => op.program hash >>= fun reply => ret (.judge reply)
  | completeSubmission j workerId tries =>
      Labyrithm.completeSubmission hash j.result workerId tries >>= fun report =>
        ret (.completed report)

/-- The operations that the commits of a request carry out. -/
def Request.Commits : Request → Op → Prop
  | judge op, op' => op' = op
  | completeSubmission j workerId tries, op' =>
      ∃ i, op' = .complete j workerId (tries i).now (tries i).clock

namespace Completion

abbrev State := Sys Request Db Write Lock Response

abbrev Log := List (Event Request Db Response)

/-- The interleaved runs of the judge and its workers. -/
abbrev Reachable (hash : Hash) : State → Prop :=
  Reach (Request.program hash) Db.CatalogEdit Db.Fresh

end Completion

/-- Its result has been recorded for the submission: a commit of the call, from one store to the next,
was a completion of it. -/
def Recorded (j : Judged) (workerId : ClaimId) (tries : Tries) (ps : List (Db × Db)) : Prop :=
  ∃ p ∈ ps, ∃ i, (Op.complete j workerId (tries i).now (tries i).clock).Achieved p.1 p.2

/-- Completion reports what happened. -/
def Reports (returned : Option CompletionError) (recorded : Prop) : Prop :=
  (returned = none ↔ recorded) ∧ (returned = some (.judge .leaseLost) → ¬ recorded)

/-! ## What a call publishes -/

variable {hash : Hash} {res : Result} {j : Judged} {workerId : ClaimId} {tries : Tries}

lemma completeSubmissionTx_ends (now clock : Time) :
    Ends (fun r => ∃ e, r = .error e) (fun r => r = .ok ())
      (completeSubmissionTx hash res workerId now clock).run := by
  refine Ends.transaction (.after_silent (updateSubmissions_silent _ _) (fun rows => ?_) fun e => ⟨e, rfl⟩)
  cases rows with
  | nil => exact ⟨_, rfl⟩
  | cons p rows =>
      refine .after_silent trivial (fun _ => ?_) fun e => ⟨e, rfl⟩
      refine .after_silent (Silent.forEach (insertTest_silent _) _) (fun _ => ?_) fun e => ⟨e, rfl⟩
      refine .after_silent (fun _ => trivial) (fun row => ?_) fun e => ⟨e, rfl⟩
      cases row with
      | none => exact ⟨_, rfl⟩
      | some k =>
          refine .after_silent (recomputeProblemScore_silent k) (fun _ => ?_) fun e => ⟨e, rfl⟩
          exact ⟨_, rfl, rfl⟩

lemma completion_ends (now clock : Time) :
    Ends (fun o => ∃ e, o = .refused e) (fun o => o = .committed)
      (completion hash res workerId now clock) := by
  show Ends _ _ (_ >>= _)
  refine (completeSubmissionTx_ends now clock).bind ?_ ?_
  · rintro _ ⟨e, rfl⟩
    exact ⟨e, rfl⟩
  · rintro _ rfl
    exact ⟨_, rfl, rfl⟩

/-- An attempt commits only at its end, and only if it has landed. -/
lemma attempt_ends (t : Try) :
    Ends (fun o => o.landed = false) (fun o => o.landed = true) (attempt hash res workerId t) := by
  have hends : Ends _ _ (completion hash res workerId t.now t.clock) := completion_ends t.now t.clock
  unfold attempt
  cases t.connection with
  | sound =>
      refine hends.mono ?_ ?_
      · rintro _ ⟨e, rfl⟩
        rfl
      · rintro _ rfl
        rfl
  | breaks n =>
      refine (hends.breakAfter .broken n).mono ?_ ?_
      · rintro _ (⟨e, rfl⟩ | rfl) <;> rfl
      · rintro _ rfl
        rfl
  | losesAck =>
      refine (hends.loseAck .unacknowledged).mono ?_ ?_
      · rintro _ ⟨e, rfl⟩
        rfl
      · rintro _ rfl
        rfl

/-- The report fits the commits of the call: one for each attempt that has landed, and `nil` is
returned when an attempt was acknowledged. -/
structure Report.Fits (report : Report) (commits : ℕ) : Prop where
  landed : report.outcomes.countP Outcome.landed = commits
  returned : report.returned = none ↔ .committed ∈ report.outcomes

lemma error_eq_none {o : Outcome} : o.error = none ↔ o = .committed := by
  cases o <;> simp [Outcome.error]

/-- The call goes on after an attempt that was not acknowledged. -/
lemma Report.Fits.cons {report : Report} {n : ℕ} (h : report.Fits n) {o : Outcome}
    (ho : o.error ≠ none) :
    ({ report with outcomes := o :: report.outcomes } : Report).Fits
      (n + if o.landed then 1 else 0) where
  landed := by
    rw [← h.landed, List.countP_cons]
  returned := by
    have hne : .committed ≠ o := fun hc => ho (error_eq_none.mpr hc.symm)
    rw [h.returned, List.mem_cons, or_iff_right hne]

lemma completeLoop_publishes (lastErr : Option CompletionError) (ts : List Try)
    (hlast : ts = [] → lastErr ≠ none) (ps : List (Db × Db)) (ws : List Write) :
    Publishes (completeLoop hash res workerId lastErr ts)
      (fun report ps' _ => ∃ n, ps'.length = ps.length + n ∧ report.Fits n) ps ws := by
  induction ts generalizing lastErr ps ws with
  | nil => exact ⟨0, rfl, rfl, by simp [hlast rfl]⟩
  | cons t ts ih =>
      refine publishes_bind.mpr (((attempt_ends t).publishes ps ws).mono fun o ps' ws' ho => ?_)
      have hcount : ps'.length = ps.length + if o.landed then 1 else 0 := by
        obtain ⟨rfl, hl⟩ | ⟨⟨p, rfl⟩, hl⟩ := ho <;> simp [hl]
      cases herr : o.error with
      | none =>
          obtain rfl := error_eq_none.mp herr
          exact ⟨1, by simpa [Outcome.landed] using hcount, rfl, by simp⟩
      | some err =>
          have hne : o ≠ .committed := fun h => by simp [h, Outcome.error] at herr
          simp only
          split_ifs with hlease
          · refine ⟨if o.landed then 1 else 0, hcount, by simp, ?_⟩
            simpa [eq_comm] using hne
          · refine publishes_bind.mpr ((ih (some err) (fun _ => by simp) ps' ws').mono ?_)
            rintro report ps'' _ ⟨n, hlen, hfits⟩
            refine ⟨n + if o.landed then 1 else 0, by omega, hfits.cons ?_⟩
            rw [herr]
            simp

/-- A call of `CompleteSubmission` publishes one commit for each attempt that has landed. -/
lemma completeSubmission_publishes :
    Publishes (completeSubmission hash res workerId tries)
      (fun report ps _ => report.Fits ps.length) [] [] := by
  refine (completeLoop_publishes none _ (by simp) [] []).mono ?_
  rintro report ps _ ⟨n, hlen, hfits⟩
  rw [hlen]
  simpa using hfits

/-! ## Every commit is one of the request's operations -/

lemma attempt_safe (i : Fin 3) {H : List Lock} {ws : List Write} {c : Db} :
    Safe (protocol hash) (fun c v => ∃ op, (Request.completeSubmission j workerId tries).Commits op ∧
      Committed op c v) (attempt hash j.result workerId (tries i)) (fun _ _ _ _ => True) H ws c := by
  have hsafe : ∀ H ws c, Safe (protocol hash)
      (Committed (.complete j workerId (tries i).now (tries i).clock))
      (completion hash j.result workerId (tries i).now (tries i).clock) (fun _ _ _ _ => True)
      H ws c := by
    intro H ws c c' hc'
    refine Safe.bind hc' (Safe.mono (completeSubmissionTx_keeps j workerId _ _ c' hc') ?_)
    intro r _ _ _ _ _
    cases r <;> exact fun _ _ => trivial
  refine Safe.widen ?_ fun c v h => ⟨_, ⟨i, rfl⟩, h⟩
  unfold attempt
  cases (tries i).connection with
  | sound => exact hsafe H ws c
  | breaks n => exact (hsafe H ws c).breakAfter _ n
  | losesAck => exact (hsafe H ws c).loseAck _

lemma completeLoop_safe (lastErr : Option CompletionError) (is : List (Fin 3)) {H : List Lock}
    {ws : List Write} {c : Db} (hc : ActiveUnique c) :
    Safe (protocol hash) (fun c v => ∃ op, (Request.completeSubmission j workerId tries).Commits op ∧
      Committed op c v) (completeLoop hash j.result workerId lastErr (is.map tries))
      (fun _ _ _ _ => True) H ws c := by
  induction is generalizing lastErr H ws c with
  | nil => exact fun _ _ => trivial
  | cons i is ih =>
      refine Safe.bind hc (Safe.mono (attempt_safe i) fun o H ws c _ hc => ?_)
      cases o.error with
      | none => exact fun _ _ => trivial
      | some err =>
          simp only
          split_ifs
          · exact fun _ _ => trivial
          · exact Safe.bind hc (Safe.mono (ih (some err) hc) fun _ _ _ _ _ _ _ _ => trivial)

/-- Every request keeps the discipline of the judge. -/
theorem Completion.verified :
    Verified (protocol hash) (fun rq c v => ∃ op, rq.Commits op ∧ Committed op c v)
      (fun _ _ => True) (Request.program hash) Db.CatalogEdit Db.Fresh where
  prog rq c hc := by
    cases rq with
    | judge op =>
        refine Safe.widen ?_ fun c v h => ⟨op, rfl, h⟩
        refine Safe.bind hc (Safe.mono ((Judge.verified fun _ h => h).prog op c hc) ?_)
        exact fun _ _ _ _ _ _ _ _ => trivial
    | completeSubmission j workerId tries =>
        refine Safe.bind hc (Safe.mono (completeLoop_safe none [0, 1, 2] hc) ?_)
        exact fun _ _ _ _ _ _ _ _ => trivial
  env := (Judge.verified fun _ h => h).env
  init := fun _ h => h.activeUnique

/-! ## The history of the operations -/

/-- The claim id of a committed claim. -/
def Completion.claimIdOf : Event Request Db Response → Option ClaimId
  | .committed (.judge (.claim workerId _ _ _)) _ _ => some workerId
  | _ => none

/-- Each committed claim has a claim id of its own. -/
def Completion.FreshClaims (log : Completion.Log) : Prop :=
  (log.filterMap Completion.claimIdOf).Nodup

/-- The commits of the history `log`, as commits of the operations in the history `ops`. -/
inductive Carries : Completion.Log → Judge.Log → Prop
  | nil : Carries [] []
  | skip {log : Completion.Log} {ops : Judge.Log} {e : Event Request Db Response} :
      (∀ rq c v, e ≠ .committed rq c v) → Carries log ops → Carries (e :: log) ops
  | commit {log : Completion.Log} {ops : Judge.Log} {rq : Request} {op : Op} {c v : Db} :
      rq.Commits op → Carries log ops →
      Carries (.committed rq c v :: log) (.committed op c v :: ops)

/-- The commits of a reachable system are a history of the judge's operations. -/
lemma Completion.history {s : Completion.State} (hs : Completion.Reachable hash s) :
    ∃ ops, Judge.History s.db ops ∧ Carries s.log ops := by
  refine Reach.history Completion.verified (fun db log => ∃ ops, Judge.History db ops ∧ Carries log ops)
    ?_ ?_ ?_ ?_ ?_ hs
  · exact fun db h => ⟨[], .nil h, .nil⟩
  · rintro db log rq ⟨ops, hops, hcarries⟩
    exact ⟨ops, hops, hcarries.skip fun _ _ _ he => by cases he⟩
  · rintro db log rq a ps ⟨ops, hops, hcarries⟩ -
    exact ⟨ops, hops, hcarries.skip fun _ _ _ he => by cases he⟩
  · rintro c v log rq ⟨ops, hops, hcarries⟩ - - ⟨op, hop, hR⟩
    exact ⟨.committed op c v :: ops, hops.commit hR, hcarries.commit hop⟩
  · rintro db _ log ⟨ops, hops, hcarries⟩ ⟨catalog, rfl⟩
    exact ⟨ops, hops.edit catalog, hcarries⟩

lemma Carries.freshClaims {log : Completion.Log} {ops : Judge.Log} (h : Carries log ops)
    (hfresh : Completion.FreshClaims log) : FreshClaims ops := by
  suffices hids : ops.filterMap Labyrithm.claimIdOf = log.filterMap Completion.claimIdOf by
    rw [FreshClaims, hids]
    exact hfresh
  clear hfresh
  induction h with
  | nil => rfl
  | @skip _ _ e hskip _ ih =>
      rw [ih, List.filterMap_cons_none]
      cases e with
      | committed rq c v => exact absurd rfl (hskip rq c v)
      | _ => rfl
  | @commit _ _ rq op c v hop _ ih =>
      have hsame : Labyrithm.claimIdOf (.committed op c v)
          = Completion.claimIdOf (.committed rq c v) := by
        cases rq with
        | judge op' =>
            obtain rfl : op = op' := hop
            cases op <;> rfl
        | completeSubmission j workerId tries =>
            obtain ⟨i, rfl⟩ := hop
            rfl
      simp only [List.filterMap_cons, hsame, ih]

/-- What part of the history carries out. -/
lemma Carries.sublist {log part : Completion.Log} {ops : Judge.Log} (h : Carries log ops)
    (hpart : part.Sublist log) : ∃ ops', Carries part ops' ∧ ops'.Sublist ops := by
  induction h generalizing part with
  | nil =>
      obtain rfl := List.sublist_nil.mp hpart
      exact ⟨[], .nil, List.nil_sublist _⟩
  | skip hskip _ ih =>
      cases hpart with
      | cons _ hpart => exact ih hpart
      | cons_cons _ hpart =>
          obtain ⟨ops', hcarries, hsub⟩ := ih hpart
          exact ⟨ops', hcarries.skip hskip, hsub⟩
  | commit hop _ ih =>
      cases hpart with
      | cons _ hpart =>
          obtain ⟨ops', hcarries, hsub⟩ := ih hpart
          exact ⟨ops', hcarries, hsub.cons _⟩
      | cons_cons _ hpart =>
          obtain ⟨ops', hcarries, hsub⟩ := ih hpart
          exact ⟨_, hcarries.commit hop, hsub.cons_cons _⟩

/-- Two elements of a list, one after the other. -/
lemma split_of_pair_sublist {α : Type} {a b : α} {l : List α} (h : [a, b].Sublist l) :
    ∃ l₁ l₂ l₃, l = l₁ ++ a :: (l₂ ++ b :: l₃) := by
  obtain ⟨l₁, l', rfl, ha, hb⟩ := List.cons_sublist_iff.mp h
  obtain ⟨m₁, m₂, rfl⟩ := List.append_of_mem ha
  obtain ⟨n₁, n₂, rfl⟩ := List.append_of_mem (List.singleton_sublist.mp hb)
  exact ⟨m₁, m₂ ++ n₁, n₂, by simp⟩

/-- When every claim has a claim id of its own, a call commits at most once. -/
lemma commits_le_one {s : Completion.State} (hs : Completion.Reachable hash s)
    (hfresh : Completion.FreshClaims s.log) {response : Response} {ps : List (Db × Db)}
    (h : .replied (.completeSubmission j workerId tries) response ps ∈ s.log) : ps.length ≤ 1 := by
  by_contra hlt
  obtain ⟨p, q, rest, rfl⟩ : ∃ p q rest, ps = p :: q :: rest := by
    rcases ps with _ | ⟨p, _ | ⟨q, rest⟩⟩
    · exact absurd (Nat.zero_le 1) hlt
    · exact absurd (Nat.le_refl 1) hlt
    · exact ⟨p, q, rest, rfl⟩
  have hsub := hs.published.2 _ _ _ h
  have hpair : [Event.committed (.completeSubmission j workerId tries) q.1 q.2,
      .committed (.completeSubmission j workerId tries) p.1 p.2].Sublist s.log := by
    refine List.Sublist.trans ?_ hsub
    simp [commitEvents]
  obtain ⟨ops, hops, hcarries⟩ := Completion.history hs
  obtain ⟨ops', hcarries', hsub'⟩ := hcarries.sublist hpair
  cases hcarries' with
  | skip hskip => exact hskip _ _ _ rfl
  | commit hop hrest =>
      cases hrest with
      | skip hskip => exact hskip _ _ _ rfl
      | commit hop' hnil =>
          obtain ⟨i, rfl⟩ := hop
          obtain ⟨i', rfl⟩ := hop'
          obtain ⟨newer, between, older, hsplit⟩ :=
            split_of_pair_sublist ((((List.nil_sublist _).cons_cons _).cons_cons _).trans hsub')
          exact hops.completion_unique (hcarries.freshClaims hfresh) hsplit

/-- A call has recorded its result exactly if it has committed. -/
lemma recorded_iff {s : Completion.State} (hs : Completion.Reachable hash s) {response : Response}
    {ps : List (Db × Db)}
    (h : .replied (.completeSubmission j workerId tries) response ps ∈ s.log) :
    Recorded j workerId tries ps ↔ ps ≠ [] := by
  refine ⟨fun ⟨p, hp, _⟩ => List.ne_nil_of_mem hp, fun hne => ?_⟩
  obtain ⟨p, hp⟩ := List.exists_mem_of_ne_nil ps hne
  have hmem : .committed (.completeSubmission j workerId tries) p.1 p.2 ∈ s.log := by
    refine (hs.published.2 _ _ _ h).subset ?_
    simp only [commitEvents, List.mem_reverse, List.mem_map]
    exact ⟨p, hp, rfl⟩
  obtain ⟨newer, older, hlog⟩ := List.append_of_mem hmem
  obtain ⟨⟨op, ⟨i, rfl⟩, hR⟩, -⟩ := hs.committed Completion.verified hlog
  exact ⟨p, hp, i, hR.achieved⟩

/-- What a call returns fits its commits. -/
lemma Completion.fits {s : Completion.State} (hs : Completion.Reachable hash s) {report : Report}
    {ps : List (Db × Db)}
    (h : .replied (.completeSubmission j workerId tries) (.completed report) ps ∈ s.log) :
    report.Fits ps.length := by
  let Q : Request → Response → List (Db × Db) → Prop := fun rq response ps =>
    match rq, response with
    | .completeSubmission _ _ _, .completed report => report.Fits ps.length
    | _, _ => True
  have hQ : ∀ rq : Request, Publishes (rq.program hash) (fun a ps _ => Q rq a ps) [] [] := by
    intro rq
    cases rq with
    | judge op => exact Publishes.mono (Publishes.true _ _ _) fun _ _ _ _ => trivial
    | completeSubmission j workerId tries =>
        exact publishes_bind.mpr (completeSubmission_publishes.mono fun _ _ _ hfits => hfits)
  exact hs.replied hQ h

/-- **Completion reports what happened, unless an acknowledgement is lost.**  In every run of the
judge and its workers, what `CompleteSubmission` returns is right about its result having been
recorded if no attempt has committed without being acknowledged; and if one has, it is wrong, when
every claim has a claim id of its own. -/
theorem Judge.completion_reports {s : Completion.State} (hs : Completion.Reachable hash s)
    {report : Report} {ps : List (Db × Db)}
    (h : .replied (.completeSubmission j workerId tries) (.completed report) ps ∈ s.log) :
    (.unacknowledged ∉ report.outcomes →
      Reports report.returned (Recorded j workerId tries ps)) ∧
    (Completion.FreshClaims s.log → Reports report.returned (Recorded j workerId tries ps) →
      .unacknowledged ∉ report.outcomes) := by
  have hfits := Completion.fits hs h
  have hrecorded := recorded_iff hs h
  refine ⟨fun hack => ?_, fun hfresh hreports hlost => ?_⟩
  · have hiff : report.returned = none ↔ Recorded j workerId tries ps := by
      rw [hfits.returned, hrecorded, ← List.length_pos_iff, ← hfits.landed, List.countP_pos_iff]
      refine ⟨fun hc => ⟨_, hc, rfl⟩, ?_⟩
      rintro ⟨o, ho, hl⟩
      cases o with
      | committed => exact ho
      | unacknowledged => exact absurd ho hack
      | _ => simp [Outcome.landed] at hl
    refine ⟨hiff, fun hlease hrec => ?_⟩
    rw [hiff.mpr hrec] at hlease
    cases hlease
  · have hpos : ps ≠ [] := by
      rw [← List.length_pos_iff, ← hfits.landed, List.countP_pos_iff]
      exact ⟨_, hlost, rfl⟩
    have hcommitted : .committed ∈ report.outcomes :=
      hfits.returned.mp (hreports.1.mpr (hrecorded.mpr hpos))
    -- two attempts have landed, and a claim is completed at most once
    have htwo : 2 ≤ report.outcomes.countP Outcome.landed := by
      obtain ⟨l₁, l₂, hsplit⟩ := List.append_of_mem hcommitted
      rw [hsplit] at hlost ⊢
      have hone : 1 ≤ (l₁ ++ l₂).countP Outcome.landed :=
        List.countP_pos_iff.mpr ⟨.unacknowledged, by simpa using hlost, rfl⟩
      simp only [List.countP_append, List.countP_cons, Outcome.landed, if_true] at hone ⊢
      omega
    have hle := commits_le_one hs hfresh h
    rw [hfits.landed] at htwo
    omega

/-! ## A worker whose connection fails -/

/-- The first attempt has the connection `first`, the others a sound one. -/
def sampleTries (first : Connection) : Tries := fun i =>
  ⟨20 + i.val, 20 + i.val, if i = 0 then first else .sound⟩

/-- A worker claims a submission and completes it. -/
def sampleCompletion (first : Connection) : Completion.State :=
  Sys.serve (Request.program Judge.sampleHash) 150 ⟨Judge.sampleStore, [], []⟩
    [.judge (.create (Judge.sampleSubmission 11 1) 0 5), .judge (.claim "w1" 10 10 id),
      .completeSubmission (Judge.sampleJudged 11 1) "w1" (sampleTries first)]

lemma sampleCompletion_reachable (first : Connection) :
    Completion.Reachable Judge.sampleHash (sampleCompletion first) :=
  .serve 150 (.init Judge.sampleStore_fresh) _

lemma sampleCompletion_freshClaims (first : Connection)
    (h : (sampleCompletion first).log.filterMap Completion.claimIdOf = ["w1"]) :
    Completion.FreshClaims (sampleCompletion first).log := by
  rw [Completion.FreshClaims, h]
  simp

/-- The event is the reply to a call, with the outcomes `outcomes`, which returns `returned` and has
committed `commits` times. -/
def repliesWith (returned : Option CompletionError) (outcomes : List Outcome) (commits : ℕ) :
    Event Request Db Response → Bool
  | .replied (.completeSubmission _ _ _) (.completed report) ps =>
      report = ⟨returned, outcomes⟩ ∧ ps.length = commits
  | _ => false

lemma exists_of_repliesWith {log : Completion.Log} (returned : Option CompletionError)
    (outcomes : List Outcome) (commits : ℕ)
    (h : log.any (repliesWith returned outcomes commits) = true) :
    ∃ j workerId tries ps, ps.length = commits ∧
      .replied (.completeSubmission j workerId tries) (.completed ⟨returned, outcomes⟩) ps ∈ log := by
  obtain ⟨e, he, hreply⟩ := List.any_eq_true.mp h
  cases e with
  | replied rq response ps =>
      cases rq with
      | judge op => cases hreply
      | completeSubmission j workerId tries =>
          cases response with
          | judge reply => cases hreply
          | completed report =>
              obtain ⟨rfl, hlen⟩ := of_decide_eq_true hreply
              exact ⟨j, workerId, tries, ps, hlen, he⟩
  | _ => cases hreply

/-- The first attempt breaks at its third step, the second one succeeds. -/
theorem Judge.completion_reports_sample :
    ∃ s : Completion.State, Completion.Reachable Judge.sampleHash s ∧
      Completion.FreshClaims s.log ∧ ∃ j workerId tries ps,
        .replied (.completeSubmission j workerId tries)
          (.completed ⟨none, [.broken, .committed]⟩) ps ∈ s.log ∧
        Reports none (Recorded j workerId tries ps) := by
  have hs := sampleCompletion_reachable (.breaks 2)
  have hfresh := sampleCompletion_freshClaims (.breaks 2) (by decide +kernel)
  obtain ⟨j, workerId, tries, ps, -, h⟩ := exists_of_repliesWith none [.broken, .committed] 1
    (show (sampleCompletion (.breaks 2)).log.any _ = true by decide +kernel)
  exact ⟨_, hs, hfresh, j, workerId, tries, ps, h, (Judge.completion_reports hs h).1 (by decide)⟩

/-- The acknowledgement of the first attempt is lost: its result is recorded, the second attempt finds
the lease gone, and the worker is told that it has lost the submission. -/
theorem Judge.completion_misreported :
    ∃ s : Completion.State, Completion.Reachable Judge.sampleHash s ∧
      Completion.FreshClaims s.log ∧ ∃ j workerId tries ps,
        .replied (.completeSubmission j workerId tries)
          (.completed ⟨some (.judge .leaseLost), [.unacknowledged, .refused .leaseLost]⟩) ps ∈ s.log ∧
        Recorded j workerId tries ps ∧
        ¬ Reports (some (.judge .leaseLost)) (Recorded j workerId tries ps) := by
  have hs := sampleCompletion_reachable .losesAck
  have hfresh := sampleCompletion_freshClaims .losesAck (by decide +kernel)
  obtain ⟨j, workerId, tries, ps, hlen, h⟩ := exists_of_repliesWith (some (.judge .leaseLost))
    [.unacknowledged, .refused .leaseLost] 1
    (show (sampleCompletion .losesAck).log.any _ = true by decide +kernel)
  have hrecorded : Recorded j workerId tries ps :=
    (recorded_iff hs h).mpr (List.ne_nil_of_length_eq_add_one hlen)
  exact ⟨_, hs, hfresh, j, workerId, tries, ps, h, hrecorded, fun hreports =>
    hreports.2 rfl hrecorded⟩

end Labyrithm
