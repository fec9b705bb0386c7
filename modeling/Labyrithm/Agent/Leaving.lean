import Labyrithm.Agent.Enrollment
import Labyrithm.Agent.Replays

/-!
# Leaving the contest

`leaveContest` answers that the contestant is locked, and its description says for how long: until an
administrator re-admits her.  What it does is revoke her live enrollment; nothing remembers that she
left.  Her requests come one after another, except that a heartbeat may be recorded long after its
request read the row; incidents, the telemetry of the shell and administrators come in between.

* `Contestant.step` — one request, or one half of a heartbeat.
* `LockedOut` — leaving revokes the enrollment; after that no live enrollment reports, and a submission
  comes without exemption, grant or floor.
* **`left_refused`** — as long as all steps are so, no submission is let through after leaving, until
  an administrator readmits her, grants her access or exempts her.
* `left_admitted` — she leaves, enrolls again, reports and submits.
-/

namespace Labyrithm

namespace Agent

/-- A submission at the gate: whether the contestant had left, and whether it was let through. -/
structure Checked where
  left : Bool
  allowed : Bool
  deriving DecidableEq, Repr

/-- What the server has of a contestant.  `left` is set when she leaves and cleared by an administrator
who lets her in again; no handler reads it. -/
structure Contestant where
  account : Account
  session : Bool
  enrollments : List Enrollment
  shell : Shell
  incidentOpen : Bool
  pending : List (ℕ × Pending)
  findings : List (String × ℤ)
  left : Bool
  checked : List Checked

/-- The requests of the contestant and her agent, and what others do. -/
inductive Move
  | login
  | enroll (settings : Option EnrollSettings) (id : ℕ) (req : EnrollRequest) (now : ℤ)
  | deliver (id : ℕ) (keepaliveSeconds : ℤ) (hb : Heartbeat) (now : ℤ)
  | record (i : ℕ) (now : ℤ)
  | shutdown (id : ℕ) (req : ShutdownRequest) (now : ℤ)
  | browserEvent (eventType : String)
  | leave (faults : LeaveFaults) (now : ℤ)
  | submit (g : Gate) (req : CheckRequest) (dbNow now : ℤ)
  | telemetry (shell : Shell)
  | incident (isOpen : Bool)
  | revokeAgent (id : ℕ) (reason : String) (now : ℤ)
  | suspend
  | restore (now : ℤ)
  | access (allowWebOnly : Bool) (reason : String) (hoursValid now : ℤ)
  | exemption (exempt : Bool) (hoursValid : ℤ) (reason : String) (now : ℤ)

/-- `defaultWeight` of `recordBrowserEvent`. -/
def browserEventWeight (eventType : String) : ℤ :=
  if eventType = "web.window_blur" ∨ eventType = "web.tab_switch" then 20
  else if eventType = "web.devtools_attempt" then 25
  else if eventType = "web.lockout_exceeded" then 35
  else 15

/-- `requireUser`: a session of an account that is not suspended. -/
def Contestant.signedIn (s : Contestant) : Bool := s.session && !s.account.suspended

/-- `login`, with the right credentials. -/
def Contestant.login (s : Contestant) : Contestant :=
  if s.account.suspended then s else { s with session := true }

def Contestant.enroll (s : Contestant) (settings : Option EnrollSettings) (id : ℕ)
    (req : EnrollRequest) (now : ℤ) : Contestant :=
  match enrollRefusal settings s.account.competitor req with
  | some _ => s
  | none => { s with enrollments := Agent.enroll id req now s.enrollments }

/-- A heartbeat with the token of an enrollment, up to its `UPDATE`. -/
def Contestant.deliver (s : Contestant) (id : ℕ) (keepaliveSeconds : ℤ) (hb : Heartbeat) (now : ℤ) :
    Contestant :=
  match s.enrollments.find? (·.id = id) with
  | none => s
  | some e =>
      match (Server.receive ⟨e.row, [], []⟩ keepaliveSeconds hb now).2 with
      | .pending p => { s with pending := s.pending ++ [(id, p)] }
      | _ => s

/-- The `UPDATE` of a heartbeat, on an enrollment that may have been revoked by then. -/
def recordAt (id : ℕ) (p : Pending) (now : ℤ) (e : Enrollment) : Enrollment :=
  if e.id = id then
    { e with row := (recordHeartbeat e.row p.hb p.clockOffsetMs p.eventWritten now).getD e.row }
  else e

def Contestant.record (s : Contestant) (i : ℕ) (q : ℕ × Pending) (now : ℤ) : Contestant :=
  { s with
    pending := s.pending.eraseIdx i
    enrollments := s.enrollments.map (recordAt q.1 q.2 now) }

/-- `agentShutdown` with the token of an enrollment. -/
def shutdownAt (id : ℕ) (req : ShutdownRequest) (now : ℤ) (e : Enrollment) : Enrollment :=
  if e.id = id ∧ e.live then { e with row := agentShutdown e.row req now } else e

def Contestant.browserEvent (s : Contestant) (eventType : String) : Contestant :=
  if s.signedIn then
    { s with findings := s.findings ++ [(eventType, browserEventWeight eventType)] }
  else s

def Contestant.leave (s : Contestant) (faults : LeaveFaults) (now : ℤ) : Contestant :=
  if s.signedIn then
    { s with
      enrollments := leaveEnrollments faults now s.enrollments
      findings := s.findings ++ [("web.lockout_exceeded", 35)]
      left := true }
  else s

/-- What the gate reads of the contestant. -/
def Contestant.gateState (s : Contestant) (dbNow : ℤ) : GateState :=
  Agent.gateState s.account s.enrollments s.shell s.incidentOpen dbNow

/-- `createSubmission`, for a submission that comes to the gate. -/
def Contestant.submit (net : Net) (s : Contestant) (g : Gate) (req : CheckRequest) (dbNow now : ℤ) :
    Contestant :=
  if s.signedIn then
    match g.check net (contestantRepository s.account s.enrollments s.shell s.incidentOpen dbNow) req
      now with
    | .error _ => s
    | .ok d =>
        { s with
          findings := s.findings ++ d.findings.map fun f => (f.ruleId, f.weight)
          checked := s.checked ++ [⟨s.left, d.allowed⟩] }
  else s

/-- `restoreUserAccess`, which readmitting, restoring and unlocking come to. -/
def Contestant.restore (s : Contestant) (now : ℤ) : Contestant :=
  { s with
    account := { s.account with suspended := false }.updateProctorAccess true
      "Restored by administrator" 0 now
    enrollments := unrevokeAgent s.enrollments
    left := false }

def Contestant.step (net : Net) : Move → Contestant → Option Contestant
  | .login, s => some s.login
  | .enroll settings id req now, s => some (s.enroll settings id req now)
  | .deliver id k hb now, s => some (s.deliver id k hb now)
  | .record i now, s => s.pending[i]?.map fun q => s.record i q now
  | .shutdown id req now, s =>
      some { s with enrollments := s.enrollments.map (shutdownAt id req now) }
  | .browserEvent eventType, s => some (s.browserEvent eventType)
  | .leave faults now, s => some (s.leave faults now)
  | .submit g req dbNow now, s => some (s.submit net g req dbNow now)
  | .telemetry shell, s => some { s with shell := shell }
  | .incident isOpen, s => some { s with incidentOpen := isOpen }
  | .revokeAgent id reason now, s =>
      some { s with enrollments := revokeId id reason now s.enrollments }
  | .suspend, s => some { s with account := { s.account with suspended := true }, session := false }
  | .restore now, s => some (s.restore now)
  | .access allowWebOnly reason hoursValid now, s =>
      some { s with
        account := s.account.updateProctorAccess allowWebOnly reason hoursValid now
        left := s.left && !allowWebOnly }
  | .exemption exempt hoursValid reason now, s =>
      some { s with
        account := s.account.updateProctorExemption exempt hoursValid reason now
        left := s.left && !exempt }

/-! ## What is asked of a run -/

/-- No store operation of leaving fails; a heartbeat that is recorded after leaving is of an enrollment
that is revoked; at a submission after leaving no exemption and no grant is in force, and the floor
gives none. -/
def LockedOut : Move → Contestant → Prop
  | .leave faults _, s =>
      faults.list = false ∧ ∀ e ∈ s.enrollments, e.live → e.id ∉ faults.revoke
  | .record i _, s => s.left = true →
      ∀ q ∈ s.pending[i]?, ∀ e ∈ s.enrollments, e.id = q.1 → e.live = false
  | .submit g _ dbNow _, s => s.left = true →
      (s.gateState dbNow).exempt = false ∧ (g.effectiveGrant (s.gateState dbNow).grant).webOnly = false
  | _, _ => True

instance : (m : Move) → (s : Contestant) → Decidable (LockedOut m s)
  | .leave .., _ => inferInstanceAs (Decidable (_ ∧ _))
  | .record .., _ => inferInstanceAs (Decidable (_ → _))
  | .submit .., _ => inferInstanceAs (Decidable (_ → _))
  | .login, _ => .isTrue trivial
  | .enroll .., _ => .isTrue trivial
  | .deliver .., _ => .isTrue trivial
  | .shutdown .., _ => .isTrue trivial
  | .browserEvent _, _ => .isTrue trivial
  | .telemetry _, _ => .isTrue trivial
  | .incident _, _ => .isTrue trivial
  | .revokeAgent .., _ => .isTrue trivial
  | .suspend, _ => .isTrue trivial
  | .restore _, _ => .isTrue trivial
  | .access .., _ => .isTrue trivial
  | .exemption .., _ => .isTrue trivial

/-- No submission after leaving was let through. -/
def Contestant.Refused (s : Contestant) : Prop := ∀ c ∈ s.checked, c.left = true → c.allowed = false

instance (s : Contestant) : Decidable s.Refused := inferInstanceAs (Decidable (∀ c ∈ s.checked, _))

/-! ## The invariant -/

/-- While the contestant has left, no live enrollment of hers has reported. -/
structure Contestant.Locked (s : Contestant) : Prop where
  unreported : s.left = true → Unreported s.enrollments
  refused : s.Refused

section Step

variable {s s' : Contestant}

lemma live_recordAt (id : ℕ) (p : Pending) (now : ℤ) (e : Enrollment) :
    (recordAt id p now e).live = e.live := by
  unfold recordAt Enrollment.live
  split_ifs with hid
  · cases hrow : recordHeartbeat e.row p.hb p.clockOffsetMs p.eventWritten now with
    | none => rfl
    | some row =>
        obtain ⟨-, -, -, hrevoked⟩ := recordHeartbeat_eq_some hrow
        exact congrArg Option.isNone hrevoked
  · rfl

/-- A change of the enrollments that reports nothing, with all else the gate reads at will. -/
lemma Contestant.Locked.change (h : s.Locked) (hchecked : s'.checked = s.checked)
    (hunreported : s'.left = true → s.left = true ∧ (Unreported s.enrollments →
      Unreported s'.enrollments)) : s'.Locked where
  unreported hleft := (hunreported hleft).2 (h.unreported (hunreported hleft).1)
  refused := by
    unfold Contestant.Refused
    rw [hchecked]
    exact h.refused

/-- What touches neither the enrollments nor the record of the submissions. -/
lemma Contestant.Locked.frame (h : s.Locked) (hchecked : s'.checked = s.checked)
    (henrollments : s'.enrollments = s.enrollments) (hleft : s'.left = true → s.left = true) :
    s'.Locked :=
  h.change hchecked fun hleft' => ⟨hleft hleft', henrollments ▸ id⟩

lemma Contestant.Locked.enroll (h : s.Locked) (settings : Option EnrollSettings) (id : ℕ)
    (req : EnrollRequest) (now : ℤ) : (s.enroll settings id req now).Locked := by
  unfold Contestant.enroll
  split
  · exact h
  · exact h.change rfl fun hleft => ⟨hleft, fun _ => unreported_enroll id req⟩

lemma Contestant.Locked.deliver (h : s.Locked) (id : ℕ) (k : ℤ) (hb : Heartbeat) (now : ℤ) :
    (s.deliver id k hb now).Locked := by
  unfold Contestant.deliver
  split
  · exact h
  · split
    · exact h.frame rfl rfl fun hleft => hleft
    · exact h

/-- A heartbeat of a revoked enrollment is recorded and does not make it live. -/
lemma Contestant.Locked.record (h : s.Locked) {i : ℕ} {q : ℕ × Pending} {now : ℤ}
    (hq : s.pending[i]? = some q) (hok : LockedOut (.record i now) s) :
    (s.record i q now).Locked := by
  refine h.change rfl fun hleft => ⟨hleft, fun hunreported => hunreported.map fun e he hlive => ?_⟩
  rw [live_recordAt] at hlive
  have hother : e.id ≠ q.1 := fun hid => by
    have hrevoked : e.live = false := hok hleft q hq e he hid
    rw [hrevoked] at hlive
    exact Bool.false_ne_true hlive
  refine ⟨hlive, ?_⟩
  rw [recordAt, if_neg hother]

lemma Contestant.Locked.shutdown (h : s.Locked) (id : ℕ) (req : ShutdownRequest) (now : ℤ) :
    ({ s with enrollments := s.enrollments.map (shutdownAt id req now) } : Contestant).Locked := by
  refine h.change rfl fun hleft => ⟨hleft, fun hunreported => hunreported.map fun e _ hlive => ?_⟩
  unfold shutdownAt at hlive ⊢
  split_ifs at hlive ⊢ with hid
  · exact ⟨hid.2, rfl⟩
  · exact ⟨hlive, rfl⟩

/-- Leaving locks, whatever was before. -/
lemma Contestant.Locked.leave (h : s.Locked) {faults : LeaveFaults} {now : ℤ}
    (hok : LockedOut (.leave faults now) s) : (s.leave faults now).Locked := by
  unfold Contestant.leave
  split_ifs with hsigned
  · exact ⟨fun _ => leaveEnrollments_unreported hok.1 hok.2, h.refused⟩
  · exact h

/-- The gate refuses whoever has left. -/
lemma Contestant.Locked.submit (h : s.Locked) (net : Net) {g : Gate} {req : CheckRequest}
    {dbNow now : ℤ} (hok : LockedOut (.submit g req dbNow now) s) :
    (s.submit net g req dbNow now).Locked := by
  unfold Contestant.submit
  split_ifs with hsigned
  · split
    · exact h
    · rename_i d hd
      refine ⟨h.unreported, fun c hc hleft => ?_⟩
      rcases List.mem_append.mp hc with hc | hc
      · exact h.refused c hc hleft
      · obtain rfl := List.mem_singleton.mp hc
        obtain ⟨hexempt, hgrant⟩ := hok hleft
        obtain ⟨attestOK, rfl⟩ := check_eq_ok hd
        refine Bool.eq_false_iff.mpr fun hallowed => ?_
        exact not_admitted_of_unreported (h.unreported hleft) g req attestOK hexempt hgrant
          ((decide_allowed_iff net _ now).mp hallowed)
  · exact h

lemma Contestant.Locked.step (h : s.Locked) (net : Net) {m : Move} (hok : LockedOut m s)
    (hstep : Contestant.step net m s = some s') : s'.Locked := by
  cases m with
  | login =>
      obtain rfl := Option.some.inj hstep
      unfold Contestant.login
      split_ifs
      · exact h
      · exact h.frame rfl rfl fun hleft => hleft
  | enroll settings id req now =>
      obtain rfl := Option.some.inj hstep
      exact h.enroll settings id req now
  | deliver id k hb now =>
      obtain rfl := Option.some.inj hstep
      exact h.deliver id k hb now
  | record i now =>
      obtain ⟨q, hq, rfl⟩ := Option.map_eq_some_iff.mp hstep
      exact h.record hq hok
  | shutdown id req now =>
      obtain rfl := Option.some.inj hstep
      exact h.shutdown id req now
  | browserEvent eventType =>
      obtain rfl := Option.some.inj hstep
      unfold Contestant.browserEvent
      split_ifs
      · exact h.frame rfl rfl fun hleft => hleft
      · exact h
  | leave faults now =>
      obtain rfl := Option.some.inj hstep
      exact h.leave hok
  | submit g req dbNow now =>
      obtain rfl := Option.some.inj hstep
      exact h.submit net hok
  | telemetry shell =>
      obtain rfl := Option.some.inj hstep
      exact h.frame rfl rfl fun hleft => hleft
  | incident isOpen =>
      obtain rfl := Option.some.inj hstep
      exact h.frame rfl rfl fun hleft => hleft
  | revokeAgent id reason now =>
      obtain rfl := Option.some.inj hstep
      exact h.change rfl fun hleft => ⟨hleft, fun hunreported => hunreported.revokeId id reason⟩
  | suspend =>
      obtain rfl := Option.some.inj hstep
      exact h.frame rfl rfl fun hleft => hleft
  | restore now =>
      obtain rfl := Option.some.inj hstep
      exact ⟨fun hleft => absurd hleft Bool.false_ne_true, h.refused⟩
  | access allowWebOnly reason hoursValid now =>
      obtain rfl := Option.some.inj hstep
      exact h.frame rfl rfl fun hleft => (Bool.and_eq_true_iff.mp hleft).1
  | exemption exempt hoursValid reason now =>
      obtain rfl := Option.some.inj hstep
      exact h.frame rfl rfl fun hleft => (Bool.and_eq_true_iff.mp hleft).1

end Step

/-! ## The runs -/

/-- Any state, from which on it is watched whether the contestant leaves. -/
def Contestant.watched (s : Contestant) : Contestant := { s with left := false, checked := [] }

lemma locked_watched (s : Contestant) : s.watched.Locked where
  unreported hleft := absurd hleft Bool.false_ne_true
  refused c hc := by simp [Contestant.watched] at hc

/-- Whatever a contestant does after leaving, in any order: as long as no step makes an exception, no
submission of hers is let through until an administrator lets her in again. -/
theorem left_refused (net : Net) (start s : Contestant)
    (h : Go.ReachIf (Contestant.step net) LockedOut start.watched s) : s.Refused :=
  (h.invariant (locked_watched start) fun _ _ _ hs hok hstep => hs.step net hok hstep).refused

/-- An enrolled contestant who is signed in, without exemption or grant. -/
def contestantSample : Contestant where
  account := ⟨true, false, false, "", none, false, "", none⟩
  session := true
  enrollments := [⟨1, "m", .enrolled "0.2.0"⟩]
  shell := ⟨"", false, none⟩
  incidentOpen := false
  pending := []
  findings := []
  left := false
  checked := []

def enrollSample : EnrollRequest := ⟨"m", "linux", "0.2.0", "2026-08-no-provenance", ""⟩

/-- No attestation required, no floor, twenty seconds. -/
def openGate : Gate := ⟨some ⟨false, ⟨false⟩, 20⟩, []⟩

def submitSample (now : ℤ) : Move := .submit openGate ⟨"u", false, "", false, ""⟩ now now

/-- She reports and submits, leaves while a heartbeat is under way, enrolls again and submits before
the new enrollment reports. -/
def leavingSample : List Move :=
  [.deliver 1 0 (beat "a" 1 "") 1, .record 0 1, submitSample 2, .deliver 1 0 (beat "a" 2 "") 3,
    .leave ⟨false, []⟩ 4, .record 0 5, submitSample 6, .enroll none 2 enrollSample 7, submitSample 8]

theorem left_refused_sample :
    ((Go.runIf (Contestant.step sampleNet) LockedOut leavingSample
      contestantSample.watched).getD contestantSample.watched).Refused :=
  left_refused sampleNet contestantSample _ (Go.ReachIf.runIf_getD leavingSample)

/-- Once the new enrollment has reported, she is let through. -/
theorem left_admitted :
    ¬ ∀ (net : Net) (start s : Contestant),
      Go.Reach (Contestant.step net) start.watched s → s.Refused := by
  intro h
  have hrun := h sampleNet contestantSample _ (Go.Reach.run_getD
    [.leave ⟨false, []⟩ 4, .enroll none 2 enrollSample 7, .deliver 2 0 (beat "b" 1 "") 8,
      .record 0 8, submitSample 9])
  revert hrun
  decide

end Agent

end Labyrithm
