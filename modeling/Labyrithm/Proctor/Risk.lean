import Labyrithm.Go.Runs
import Labyrithm.Proctor.Findings
import Labyrithm.Sql.Recompute
import Mathlib.Algebra.Order.Round
import Mathlib.Data.Rat.Floor

/-!
# The risk of a contestant

`recalculateRiskScore` of `backend/internal/proctor/evaluator.go` reads the score of a contestant's
findings and stores it, in two statements; `ApplyEndpointSignals` and `RecordEvent` do so after they have
filed theirs.  An administrator's restoration (`restoreUserAccess`, for a suspension that is lifted, an
unlock and a readmission) deletes findings, and only a readmission goes on to file one and recompute.
Every statement is an atomic section, and every statement succeeds but for a foreign key that is not there,
evidence that `jsonb` refuses, and a sum that is not an `int`.  PostgreSQL's `ln` is a parameter, to the
digits it computes.

* `Settled.step` — what every statement does with the row of a contestant.
* **`risk_rollup`** — where no operation of a contestant is under way, the row is the rollup of the
  findings, in every run in which a restoration deletes nothing that nobody will read again, and what is
  stored late is current or will be stored again.
* `disorder_shows` — after a step of another kind some row is wrong, and stays wrong until another
  operation begins.
-/

namespace Labyrithm

namespace Proctor

/-! ## The rollup -/

/-- `::int` of a `numeric`: to the nearest, and away from zero in the middle. -/
def toInt (q : ℚ) : Option ℤ :=
  let n := if 0 ≤ q then ⌊q + 1 / 2⌋ else -⌊-q + 1 / 2⌋
  if -(2 ^ 31) ≤ n ∧ n < 2 ^ 31 then some n else none

/-- `MaxRiskScore`. -/
def maxRiskScore : ℤ := 100

def severityOf (totalScore : ℤ) : Severity :=
  if totalScore ≥ 70 then .high else if totalScore ≥ 30 then .medium else .low

/-- `weight * (1 + ln(GREATEST(occurrences, 1)::numeric))`. -/
def weighted (ln : ℤ → ℚ) (f : Finding) : ℚ := f.weight * (1 + ln (max f.occurrences 1))

/-- What `recalculateRiskScore` reads, or `none` where the cast fails. -/
def rollup (ln : ℤ → ℚ) (findings : Go.Map String Finding) : Option Risk :=
  (toInt (findings.sum fun _ f => weighted ln f)).map fun total =>
    let totalScore := min maxRiskScore total
    ⟨totalScore, severityOf totalScore, findings.entries.length⟩

/-- The row as it is read: a contestant without one has no findings. -/
def Db.riskOf (db : Db) (userID : String) : Risk := (db.risk userID).getD ⟨0, .low, 0⟩

/-! ## Operations -/

/-- Where an operation is. -/
inductive Call
  /-- a readmission, about to delete the findings of a lockout -/
  | clearing (userID : String)
  /-- about to file the rest of its findings, and then to read -/
  | observing (userID : String) (todo : List Observation)
  /-- about to store what was read -/
  | storing (userID : String) (risk : Risk)

def Call.userID : Call → String
  | clearing userID => userID
  | observing userID _ => userID
  | storing userID _ => userID

/-- What a call has read. -/
def Call.read : Call → Option Risk
  | storing _ risk => some risk
  | _ => none

/-- The calls as recomputations. -/
def recompute : Sql.Recompute Call String Risk := ⟨Call.userID, Call.read⟩

structure System where
  db : Db
  calls : List Call

/-- The migrated database with some accounts and rules. -/
def System.new (users rules : List String) : System := ⟨⟨users, rules, fun _ => ∅, fun _ => none⟩, []⟩

/-- The finding of a readmission. -/
def readmitted : Observation := ⟨"tel.web_only_grant", 0, [("action", .text "admin_readmitted")]⟩

/-- The statements.  What the operations find in `users` is there throughout. -/
inductive Action
  /-- the ranges over the dwell times take these orders -/
  | applyEndpointSignals (input : SignalInput) (deny allow : List String)
  | recordEvent (userID : String) (o : Observation)
  /-- a suspension is lifted, or an account unlocked -/
  | restore (userID : String)
  | readmitContestant (userID : String)
  /-- the next statement of the call `i` -/
  | advance (i : ℕ) (rules : Catalogue) (now : ℤ)

namespace System

def enter (c : Call) (s : System) : Option System :=
  if c.userID ∈ s.db.users then some { s with calls := s.calls ++ [c] } else none

/-- The statement of a call, and what is left of the call. -/
def next (ln : ℤ → ℚ) (rules : Catalogue) (now : ℤ) (db : Db) : Call → Db × Option Call
  | .clearing userID => (clearLockoutFindings userID db, some (.observing userID [readmitted]))
  | .observing userID (o :: rest) => (observe rules userID o now db, some (.observing userID rest))
  | .observing userID [] => (db, (rollup ln (db.findings userID)).map (.storing userID))
  | .storing userID risk => ({ db with risk := Function.update db.risk userID (some risk) }, none)

def step (ln : ℤ → ℚ) : Action → System → Option System
  | .applyEndpointSignals input deny allow, s =>
      s.enter (.observing input.userID (endpointObservations input deny allow))
  | .recordEvent userID o, s => s.enter (.observing userID [o])
  | .restore userID, s => some { s with db := clearLockoutFindings userID s.db }
  | .readmitContestant userID, s => s.enter (.clearing userID)
  | .advance i rules now, s =>
      match s.calls[i]? with
      | none => none
      | some c =>
          match next ln rules now s.db c with
          | (db, some c') => some ⟨db, s.calls.set i c'⟩
          | (db, none) => some ⟨db, s.calls.eraseIdx i⟩

/-- The row is what the findings say. -/
def Current (ln : ℤ → ℚ) (db : Db) (userID : String) : Prop :=
  rollup ln (db.findings userID) = some (db.riskOf userID)

/-- Another call of the contestant will read again, or store what the findings say. -/
def Awaited (ln : ℤ → ℚ) (db : Db) (calls : List Call) (userID : String) : Prop :=
  recompute.Awaited calls userID (rollup ln (db.findings userID))

/-- Nothing of the contestant's is under way. -/
def Idle (s : System) (userID : String) : Prop := recompute.Idle s.calls userID

instance (ln : ℤ → ℚ) (db : Db) (userID : String) : Decidable (Current ln db userID) :=
  inferInstanceAs (Decidable (_ = _))

instance (ln : ℤ → ℚ) (db : Db) (calls : List Call) (userID : String) :
    Decidable (Awaited ln db calls userID) := inferInstanceAs (Decidable (recompute.Awaited _ _ _))

instance (s : System) (userID : String) : Decidable (s.Idle userID) :=
  inferInstanceAs (Decidable (recompute.Idle _ _))

/-- A call that ends has stored what the findings say, or one of the others will. -/
def EndsOrderly (ln : ℤ → ℚ) (db : Db) (others : List Call) : Call → Prop
  | .storing userID risk =>
      rollup ln (db.findings userID) = some risk ∨ Awaited ln db others userID
  | .observing userID [] =>
      (rollup ln (db.findings userID)).isSome ∨ Awaited ln db others userID
  | _ => True

/-- A restoration finds nothing to delete, or leaves a row that is the rollup of the rest, or somebody
recomputes it. -/
def RestoresOrderly (ln : ℤ → ℚ) (db : Db) (calls : List Call) (userID : String) : Prop :=
  ((db.findings userID).get? "web.lockout_exceeded" = none
      ∧ (db.findings userID).get? "web.fullscreen_exit" = none)
    ∨ Current ln (clearLockoutFindings userID db) userID
    ∨ Awaited ln (clearLockoutFindings userID db) calls userID

def Orderly (ln : ℤ → ℚ) (a : Action) (s : System) : Prop :=
  match a with
  | .restore userID => RestoresOrderly ln s.db s.calls userID
  | .advance i _ _ => ∀ c ∈ s.calls[i]?, EndsOrderly ln s.db (s.calls.eraseIdx i) c
  | _ => True

instance (ln : ℤ → ℚ) (db : Db) (others : List Call) (c : Call) :
    Decidable (EndsOrderly ln db others c) :=
  match c with
  | .storing _ _ => inferInstanceAs (Decidable (_ ∨ _))
  | .observing _ [] => inferInstanceAs (Decidable (_ ∨ _))
  | .observing _ (_ :: _) | .clearing _ => isTrue trivial

instance (ln : ℤ → ℚ) (a : Action) (s : System) : Decidable (Orderly ln a s) :=
  match a with
  | .restore _ => inferInstanceAs (Decidable (_ ∨ _ ∨ _))
  | .advance _ _ _ => inferInstanceAs (Decidable (∀ c ∈ _, EndsOrderly _ _ _ c))
  | .applyEndpointSignals .. | .recordEvent .. | .readmitContestant .. => isTrue trivial

/-! ## What a statement does with a row -/

/-- The row is current, or will be. -/
def Settled (ln : ℤ → ℚ) (s : System) (userID : String) : Prop :=
  recompute.Settled s.calls userID (rollup ln (s.db.findings userID)) (s.db.riskOf userID)

variable {ln : ℤ → ℚ} {s s' : System} {db : Db} {a : Action} {c c' : Call} {i : ℕ} {rules : Catalogue}
  {now : ℤ} {userID : String}

/-- Two systems that agree on a contestant, but for new calls. -/
lemma Settled.frame (h : Settled ln s userID) (hfindings : s'.db.findings userID = s.db.findings userID)
    (hrisk : s'.db.riskOf userID = s.db.riskOf userID)
    (hcalls : ∀ c ∈ s.calls, c.userID = userID → c ∈ s'.calls) : Settled ln s' userID := by
  rw [Settled, hfindings, hrisk]
  exact Sql.Recompute.Settled.mono h hcalls

/-- An operation that begins changes nothing. -/
lemma Settled.enter (h : ∀ u, Settled ln s u) (hstep : s.enter c = some s') :
    ∀ u, Settled ln s' u := by
  obtain ⟨-, hstep⟩ := Option.ite_none_right_eq_some.mp hstep
  cases hstep
  exact fun u => (h u).frame rfl rfl fun c hc _ => List.mem_append_left _ hc

/-- A statement of a call is about its own contestant. -/
lemma next_frame (h : userID ≠ c.userID) :
    (next ln rules now db c).1.findings userID = db.findings userID
      ∧ (next ln rules now db c).1.riskOf userID = db.riskOf userID := by
  cases c with
  | clearing u => exact ⟨clearLockoutFindings_findings_of_ne h, rfl⟩
  | observing u todo =>
      cases todo with
      | nil => exact ⟨rfl, rfl⟩
      | cons o rest =>
          refine ⟨observe_findings_of_ne h, ?_⟩
          simp [next, Db.riskOf]
  | storing u risk =>
      refine ⟨rfl, ?_⟩
      have hrow : Function.update db.risk u (some risk) userID = db.risk userID :=
        Function.update_of_ne h _ _
      simp only [next, Db.riskOf, hrow]

/-- The statements of a call keep the other contestants' rows settled. -/
lemma Settled.others (h : Settled ln s userID) (hi : s.calls[i]? = some c) (hne : userID ≠ c.userID)
    (hstep : step ln (.advance i rules now) s = some s') : Settled ln s' userID := by
  have hframe : (next ln rules now s.db c).1.findings userID = s.db.findings userID
      ∧ (next ln rules now s.db c).1.riskOf userID = s.db.riskOf userID := next_frame hne
  simp only [step, hi] at hstep
  split at hstep
  · next db c' hnext =>
    cases hstep
    rw [hnext] at hframe
    exact h.frame hframe.1 hframe.2 (Sql.Recompute.mem_set_of_owner (R := recompute) hi hne.symm c')
  · next db hnext =>
    cases hstep
    rw [hnext] at hframe
    exact h.frame hframe.1 hframe.2 (Sql.Recompute.mem_eraseIdx_of_owner (R := recompute) hi hne.symm)

/-- And its own, where the call ends in order. -/
lemma Settled.own (hok : EndsOrderly ln s.db (s.calls.eraseIdx i) c) (hi : s.calls[i]? = some c)
    (hstep : step ln (.advance i rules now) s = some s') : Settled ln s' c.userID := by
  simp only [step, hi] at hstep
  cases c with
  | clearing u =>
      cases hstep
      exact Sql.Recompute.settled_of_reading hi rfl (.inl rfl)
  | observing u todo =>
      cases todo with
      | cons o rest =>
          cases hstep
          exact Sql.Recompute.settled_of_reading hi rfl (.inl rfl)
      | nil =>
          cases hrollup : rollup ln (s.db.findings u) with
          | none =>
              simp only [next, hrollup, Option.map_none] at hstep
              cases hstep
              have hawaited : Awaited ln s.db (s.calls.eraseIdx i) u := by
                simpa [EndsOrderly, hrollup] using hok
              exact .inr hawaited
          | some risk =>
              simp only [next, hrollup, Option.map_some] at hstep
              cases hstep
              exact Sql.Recompute.settled_of_reading hi rfl (.inr hrollup.symm)
  | storing u risk =>
      cases hstep
      refine hok.imp (fun hcurrent => ?_) id
      show rollup ln (s.db.findings u) = some ((Function.update s.db.risk u (some risk) u).getD _)
      rw [hcurrent, Function.update_self]
      rfl

/-- Every orderly statement keeps every row settled. -/
lemma Settled.step (h : ∀ u, Settled ln s u) (hok : Orderly ln a s) (hstep : step ln a s = some s') :
    ∀ u, Settled ln s' u := by
  intro u
  cases a with
  | applyEndpointSignals input deny allow => exact Settled.enter h hstep u
  | recordEvent userID o => exact Settled.enter h hstep u
  | readmitContestant userID => exact Settled.enter h hstep u
  | restore userID =>
      cases hstep
      by_cases huser : u = userID
      · subst huser
        rcases hok with ⟨hexceeded, hexit⟩ | hsettled
        · exact (h u).frame (clearLockoutFindings_findings_self hexceeded hexit) rfl fun _ hc _ => hc
        · exact hsettled
      · exact (h u).frame (clearLockoutFindings_findings_of_ne huser) rfl fun _ hc _ => hc
  | advance i rules now =>
      cases hi : s.calls[i]? with
      | none =>
          simp only [System.step, hi] at hstep
          cases hstep
      | some c =>
          by_cases huser : u = c.userID
          · subst huser
            exact Settled.own (hok c hi) hi hstep
          · exact (h u).others hi huser hstep

lemma rollup_empty : rollup ln ∅ = some ⟨0, .low, 0⟩ := by
  have hzero : toInt 0 = some 0 := by decide +kernel
  simp only [rollup, Go.Map.sum_empty, hzero, Option.map_some]
  rfl

lemma Settled.new (users rules : List String) (u : String) : Settled ln (new users rules) u :=
  .inl rollup_empty

/-- While nothing of a contestant's is under way, the row says what the findings say. -/
theorem risk_rollup {users rules : List String}
    (h : Go.ReachIf (System.step ln) (Orderly ln) (new users rules) s) (hidle : s.Idle userID) :
    rollup ln (s.db.findings userID) = some (s.db.riskOf userID) := by
  have hsettled : ∀ u, Settled ln s u :=
    Go.ReachIf.invariant (Settled.new users rules)
      (fun _ _ _ hs hok hstep => Settled.step hs hok hstep) h
  exact (hsettled userID).current hidle

/-- A finding of a lockout is filed and scored. -/
def lockedOut : List Action :=
  [.recordEvent "u" ⟨"web.lockout_exceeded", 35, [("action", .text "voluntary_exit")]⟩,
    .advance 0 none 100, .advance 0 none 100, .advance 0 none 100]

/-- The logarithm of one. -/
def sampleLn : ℤ → ℚ := fun _ => 0

def sampleStart : System := new ["u"] ["web.lockout_exceeded", "web.tab_switch", "tel.web_only_grant"]

/-- Scored once, she is let in again while another event of hers is filed: what that one reads before the
readmission has filed its own finding it stores after it, and then the readmission reads. -/
def readmittedMeanwhile : List Action :=
  lockedOut ++
    [.recordEvent "u" ⟨"web.tab_switch", 20, []⟩, .readmitContestant "u",
      .advance 1 none 200, .restore "u", .advance 0 none 200, .advance 0 none 200,
      .advance 1 none 200, .advance 0 none 200, .advance 0 none 200, .advance 0 none 200]

theorem risk_rollup_sample :
    let s := (Go.runIf (System.step sampleLn) (Orderly sampleLn) readmittedMeanwhile sampleStart).getD
      sampleStart
    s.db.risk "u" = some ⟨20, .low, 2⟩
      ∧ rollup sampleLn (s.db.findings "u") = some (s.db.riskOf "u") :=
  ⟨by decide +kernel, risk_rollup (Go.ReachIf.runIf_getD readmittedMeanwhile) (by decide +kernel)⟩

/-- An unlock deletes the finding, and the score stays. -/
theorem score_left : ¬ ∀ (ln : ℤ → ℚ) (users rules : List String) (s : System) (userID : String),
    Go.Reach (System.step ln) (new users rules) s → s.Idle userID →
      rollup ln (s.db.findings userID) = some (s.db.riskOf userID) := by
  intro hall
  have hrollup := hall sampleLn ["u"] ["web.lockout_exceeded"] _ "u"
    (Go.Reach.run_getD (lockedOut ++ [.restore "u"])) (by decide +kernel)
  exact absurd hrollup (by decide +kernel)

/-! ## What a disorderly statement leads to -/

/-- The statements of the operations that are under way. -/
def complete (ln : ℤ → ℚ) (p : ℕ × Catalogue × ℤ) : System → Option System :=
  System.step ln (.advance p.1 p.2.1 p.2.2)

lemma next_userID (h : (next ln rules now db c).2 = some c') : c'.userID = c.userID := by
  cases c with
  | clearing u =>
      cases h
      rfl
  | observing u todo =>
      cases todo with
      | nil =>
          obtain ⟨risk, -, rfl⟩ := Option.map_eq_some_iff.mp h
          rfl
      | cons o rest =>
          cases h
          rfl
  | storing u risk => cases h

/-- A disorderly statement leaves a row that nobody is going to put right. -/
lemma not_settled_of_disorder (hok : ¬ Orderly ln a s) (hstep : System.step ln a s = some s') :
    ∃ u, ¬ Settled ln s' u := by
  cases a with
  | applyEndpointSignals input deny allow => exact absurd trivial hok
  | recordEvent userID o => exact absurd trivial hok
  | readmitContestant userID => exact absurd trivial hok
  | restore userID =>
      cases hstep
      exact ⟨userID, fun hsettled => hok (.inr hsettled)⟩
  | advance i rules now =>
      simp only [Orderly, not_forall] at hok
      obtain ⟨c, hi, hends⟩ := hok
      simp only [System.step, Option.mem_def.mp hi] at hstep
      refine ⟨c.userID, fun hsettled => hends ?_⟩
      cases c with
      | clearing u => trivial
      | observing u todo =>
          cases todo with
          | cons o rest => trivial
          | nil =>
              cases hrollup : rollup ln (s.db.findings u) with
              | some risk => exact .inl (by rw [hrollup]; rfl)
              | none =>
                  simp only [next, hrollup, Option.map_none] at hstep
                  cases hstep
                  exact .inr (hsettled.resolve_left (by simp [hrollup, Call.userID]))
      | storing u risk =>
          cases hstep
          refine hsettled.imp (fun hcurrent => ?_) id
          have hrow : ((Function.update s.db.risk u (some risk)) u).getD ⟨0, .low, 0⟩ = risk := by
            rw [Function.update_self]
            rfl
          exact hcurrent.trans (congrArg some hrow)

/-- And so it stays while the operations under way go on. -/
lemma not_settled_complete {p : ℕ × Catalogue × ℤ} (h : ¬ Settled ln s userID)
    (hstep : complete ln p s = some s') : ¬ Settled ln s' userID := by
  obtain ⟨i, rules, now⟩ := p
  cases hi : s.calls[i]? with
  | none =>
      simp only [complete, System.step, hi] at hstep
      cases hstep
  | some c =>
      simp only [complete, System.step, hi] at hstep
      by_cases huser : userID = c.userID
      · -- the call has read already, or it would be waited for
        subst huser
        have hread : c.read ≠ none := fun hread =>
          h (.inr ⟨c, List.mem_of_getElem? hi, rfl, .inl hread⟩)
        cases c with
        | clearing u => exact absurd rfl hread
        | observing u todo => exact absurd rfl hread
        | storing u risk =>
            cases hstep
            have hstored := Sql.Recompute.not_settled_store h hi rfl rfl
            rintro (hcurrent | hawaited)
            · refine hstored (.inl (hcurrent.trans ?_))
              exact congrArg (fun row : Option Risk => some (row.getD ⟨0, .low, 0⟩))
                (Function.update_self u (some risk) s.db.risk)
            · exact hstored (.inr hawaited)
      · intro hsettled
        have hframe : (next ln rules now s.db c).1.findings userID = s.db.findings userID
            ∧ (next ln rules now s.db c).1.riskOf userID = s.db.riskOf userID := next_frame huser
        split at hstep
        · next db c' hnext =>
          cases hstep
          rw [hnext] at hframe
          refine h (hsettled.frame hframe.1.symm hframe.2.symm fun e he howner => ?_)
          rcases List.mem_or_eq_of_mem_set he with hmem | rfl
          · exact hmem
          · have hown : (next ln rules now s.db c).2 = some e := by rw [hnext]
            exact absurd (howner.symm.trans (next_userID hown)) huser
        · next db hnext =>
          cases hstep
          rw [hnext] at hframe
          exact h (hsettled.frame hframe.1.symm hframe.2.symm fun e he _ =>
            List.mem_of_mem_eraseIdx he)

/-- After a disorderly statement some row is wrong, and the operations under way do not put it right. -/
theorem disorder_shows (hok : ¬ Orderly ln a s) (hstep : System.step ln a s = some s') :
    ∃ u, ∀ t, Go.Reach (complete ln) s' t →
      rollup ln (t.db.findings u) ≠ some (t.db.riskOf u) := by
  obtain ⟨u, hu⟩ := not_settled_of_disorder hok hstep
  refine ⟨u, fun t ht hcurrent => ?_⟩
  have hnot : ¬ Settled ln t u :=
    Go.Reach.invariant (P := fun t => ¬ Settled ln t u) hu
      (fun _ _ _ hs hstep => not_settled_complete hs hstep) ht
  exact hnot (.inl hcurrent)

end System

end Proctor

end Labyrithm
