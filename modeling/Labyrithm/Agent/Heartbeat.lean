import Labyrithm.Go.Time

/-!
# Heartbeats at the server

`backend/internal/agent/service.go` and the statements of `repository.go` behind it.  A request for a
heartbeat reads the row of the enrollment (`GetByToken`), decides on what it read (`Classify` and the
first half of `Heartbeat`), and then records the heartbeat with one `UPDATE`, whose condition is
evaluated on the row as it is by then.  `Server.receive` is what happens up to the `UPDATE`,
`Server.record` the `UPDATE`; other requests may come in between.

A boot id is the text of a UUID, and every heartbeat is taken to carry one.  PostgreSQL reads it
however it is spelled; `Classify` compares the text with the one that the server writes.  What is passed
on to the batcher and the evaluator of endpoint signals has no effect on the row and is left out.

* `recordHeartbeat_isSome` — a heartbeat is recorded unless its boot was stopped.
* `receive_pending_iff` — what is decided before.
-/

namespace Labyrithm

namespace Agent

/-! ## The row of an enrollment -/

/-- `proctor_agents`. -/
structure AgentRow where
  bootId : Option String
  seq : ℤ
  signalHash : String
  lastEventAt : Option ℤ
  clockOffsetMs : Option ℤ
  loopbackPort : ℤ
  attestNonce : String
  prevAttestNonce : String
  agentVersion : String
  lastSeenAt : Option ℤ
  stoppedAt : Option ℤ
  stoppedReason : String
  revokedAt : Option ℤ
  revokedReason : String
  deriving DecidableEq, Repr

/-- The row that `Enroll` inserts. -/
def AgentRow.enrolled (agentVersion : String) : AgentRow where
  bootId := none
  seq := 0
  signalHash := ""
  lastEventAt := none
  clockOffsetMs := none
  loopbackPort := 0
  attestNonce := ""
  prevAttestNonce := ""
  agentVersion := agentVersion
  lastSeenAt := none
  stoppedAt := none
  stoppedReason := ""
  revokedAt := none
  revokedReason := ""

/-- `Heartbeat`.  `wallTs` is `none` for the zero time.  `bootId` is what PostgreSQL reads in the boot id,
and `bootCanonical` whether it is spelled as the server spells it. -/
structure Heartbeat where
  bootId : String
  seq : ℤ
  wallTs : Option ℤ
  agentVersion : String
  loopbackPort : ℤ
  attestNonce : String
  signalHash : String
  buffered : Bool
  bootCanonical : Bool := true
  deriving DecidableEq, Repr

/-- A row of `telemetry_events`. -/
structure TelemetryEvent where
  bootId : String
  seq : ℤ
  eventType : String
  signalHash : String
  createdAt : ℤ
  deriving DecidableEq, Repr

/-- A finding that `record` hands to the evaluator, with its evidence; the boot ids in it are as
PostgreSQL reads them. -/
inductive Record
  | seqReplay (bootId : String) (reportedSeq knownSeq : ℤ)
  | agentCrash (previousBootId : Option String) (newBootId : String) (lastSeenAt : Option ℤ)
  | clockSkew (deltaMs : ℤ) (agentWall : Option ℤ) (serverWall : ℤ)
  deriving DecidableEq, Repr

def Record.ruleId : Record → String
  | seqReplay .. => "tel.seq_replay"
  | agentCrash .. => "tel.agent_crash"
  | clockSkew .. => "tel.clock_skew"

def Record.weight : Record → ℕ
  | seqReplay .. => 60
  | agentCrash .. => 10
  | clockSkew .. => 20

inductive Err
  | unknownAgent
  | revoked
  deriving DecidableEq, Repr

def Err.message : Err → String
  | unknownAgent => "agent token not recognised"
  | revoked => "agent enrollment revoked"

/-! ## `Classify` -/

/-- `Integrity`. -/
structure Integrity where
  newBoot : Bool
  cleanRestart : Bool
  seqReplay : Bool
  clockSkewMs : ℤ
  deriving DecidableEq, Repr

def clockSkewToleranceMs : ℤ := 120000

def millisecond : ℤ := 1000000

/-- `d.Milliseconds()`. -/
def milliseconds (d : ℤ) : ℤ := d.tdiv millisecond

def clockSkew (a : AgentRow) (hb : Heartbeat) (serverNow : ℤ) : ℤ :=
  match hb.buffered, hb.wallTs, a.clockOffsetMs with
  | false, some wallTs, some known =>
      let delta := milliseconds (Go.sub wallTs serverNow) - known
      if delta > clockSkewToleranceMs ∨ delta < -clockSkewToleranceMs then delta else 0
  | _, _, _ => 0

def classify (a : AgentRow) (hb : Heartbeat) (serverNow : ℤ) : Integrity :=
  let sameBoot : Bool := hb.bootCanonical && a.bootId = some hb.bootId
  let newBoot := !sameBoot && a.bootId.isSome
  { newBoot := newBoot
    cleanRestart := newBoot && a.stoppedAt.isSome
    seqReplay := sameBoot && hb.seq > 0 && hb.seq ≤ a.seq
    clockSkewMs := clockSkew a hb serverNow }

def clockOffset (hb : Heartbeat) (serverNow : ℤ) : ℤ :=
  match hb.wallTs with
  | some wallTs => milliseconds (Go.sub wallTs serverNow)
  | none => 0

/-- The sequence number is known to the boot in the row, and the boot is spelled as it is there. -/
def Heartbeat.Repeated (hb : Heartbeat) (row : AgentRow) : Prop :=
  hb.bootCanonical = true ∧ row.bootId = some hb.bootId ∧ 0 < hb.seq ∧ hb.seq ≤ row.seq

instance (hb : Heartbeat) (row : AgentRow) : Decidable (hb.Repeated row) :=
  inferInstanceAs (Decidable (_ ∧ _))

lemma classify_seqReplay_iff {a : AgentRow} {hb : Heartbeat} {now : ℤ} :
    (classify a hb now).seqReplay = true ↔ hb.Repeated a := by
  simp [classify, Heartbeat.Repeated, and_assoc]

/-! ## The statements -/

/-- `GetByToken`, for a token that exists. -/
def getByToken (row : AgentRow) : Except Err AgentRow :=
  if row.revokedAt.isSome then .error .revoked else .ok row

/-- `RecordHeartbeat`; `none` where no row is affected. -/
def recordHeartbeat (row : AgentRow) (hb : Heartbeat) (clockOffsetMs : ℤ) (eventWritten : Bool)
    (now : ℤ) : Option AgentRow :=
  if row.stoppedAt = none ∨ row.bootId ≠ some hb.bootId then
    some { row with
      bootId := some hb.bootId
      seq := if row.bootId ≠ some hb.bootId then hb.seq else max row.seq hb.seq
      loopbackPort := hb.loopbackPort
      prevAttestNonce :=
        if hb.attestNonce ≠ "" ∧ hb.attestNonce ≠ row.attestNonce then row.attestNonce
        else row.prevAttestNonce
      attestNonce := if hb.attestNonce = "" then row.attestNonce else hb.attestNonce
      agentVersion := if hb.agentVersion = "" then row.agentVersion else hb.agentVersion
      signalHash := hb.signalHash
      clockOffsetMs := some clockOffsetMs
      lastEventAt := if eventWritten then some now else row.lastEventAt
      lastSeenAt := some now
      stoppedAt := none
      stoppedReason := "" }
  else none

/-- The boot has been stopped, and no other has been recorded since. -/
def AgentRow.Stopped (row : AgentRow) (bootId : String) : Prop :=
  row.stoppedAt.isSome ∧ row.bootId = some bootId

instance (row : AgentRow) (bootId : String) : Decidable (row.Stopped bootId) :=
  inferInstanceAs (Decidable (_ ∧ _))

/-- `MarkStopped`. -/
def markStopped (row : AgentRow) (reason : String) (now : ℤ) : AgentRow :=
  { row with stoppedAt := some now, stoppedReason := reason }

/-- `Shutdown`. -/
def shutdown (row : AgentRow) (reason : String) (now : ℤ) : AgentRow :=
  markStopped row (if reason = "" then "contestant stopped proctoring" else reason) now

/-- `Revoke`. -/
def revoke (row : AgentRow) (reason : String) (now : ℤ) : AgentRow :=
  if row.revokedAt.isSome then row else { row with revokedAt := some now, revokedReason := reason }

/-- `UnrevokeAgent`. -/
def unrevoke (row : AgentRow) : AgentRow :=
  { row with revokedAt := none, revokedReason := "", stoppedAt := none, stoppedReason := "" }

/-- `VerifyNonce`, where this is the user's only enrollment. -/
def verifyNonce (row : AgentRow) (nonce : String) : Bool :=
  nonce ≠ "" && (row.revokedAt = none && (nonce = row.attestNonce || nonce = row.prevAttestNonce))

section Statements

variable {row row' : AgentRow} {hb : Heartbeat} {offset now : ℤ} {written : Bool}

/-- A heartbeat of the boot in the row leaves the sequence number where it is or higher, and one of
another boot takes the row over. -/
lemma recordHeartbeat_eq_some (h : recordHeartbeat row hb offset written now = some row') :
    row'.bootId = some hb.bootId ∧ hb.seq ≤ row'.seq ∧
      (row.bootId = some hb.bootId → row.seq ≤ row'.seq) ∧
      row'.revokedAt = row.revokedAt := by
  rw [recordHeartbeat, Option.ite_none_right_eq_some] at h
  obtain rfl := Option.some.inj h.2
  by_cases hboot : row.bootId = some hb.bootId
  · simp [hboot]
  · simp [hboot]

/-- What is recorded is live. -/
lemma recordHeartbeat_stoppedAt (h : recordHeartbeat row hb offset written now = some row') :
    row'.stoppedAt = none := by
  rw [recordHeartbeat, Option.ite_none_right_eq_some] at h
  obtain rfl := Option.some.inj h.2
  rfl

/-- A new nonce takes the place of the current one, which becomes the previous one. -/
lemma recordHeartbeat_nonces (h : recordHeartbeat row hb offset written now = some row')
    (hnonce : hb.attestNonce ≠ "") :
    row'.attestNonce = hb.attestNonce ∧
      (row.attestNonce = hb.attestNonce ∨ row'.prevAttestNonce = row.attestNonce) := by
  rw [recordHeartbeat, Option.ite_none_right_eq_some] at h
  obtain rfl := Option.some.inj h.2
  by_cases hsame : row.attestNonce = hb.attestNonce
  · simp [hnonce, hsame]
  · simp [hnonce, Ne.symm hsame]

/-- A heartbeat is recorded unless its boot was stopped. -/
lemma recordHeartbeat_isSome :
    (recordHeartbeat row hb offset written now).isSome ↔ ¬ row.Stopped hb.bootId := by
  unfold recordHeartbeat AgentRow.Stopped
  by_cases hboot : row.bootId = some hb.bootId
  · cases hstop : row.stoppedAt <;> simp [hboot]
  · simp [hboot]

@[simp] lemma shutdown_bootId {reason : String} : (shutdown row reason now).bootId = row.bootId := rfl

@[simp] lemma shutdown_seq {reason : String} : (shutdown row reason now).seq = row.seq := rfl

@[simp] lemma revoke_bootId {reason : String} : (revoke row reason now).bootId = row.bootId := by
  unfold revoke
  split_ifs <;> rfl

@[simp] lemma revoke_seq {reason : String} : (revoke row reason now).seq = row.seq := by
  unfold revoke
  split_ifs <;> rfl

@[simp] lemma revoke_stoppedAt {reason : String} :
    (revoke row reason now).stoppedAt = row.stoppedAt := by
  unfold revoke
  split_ifs <;> rfl

@[simp] lemma revoke_attestNonce {reason : String} :
    (revoke row reason now).attestNonce = row.attestNonce := by
  unfold revoke
  split_ifs <;> rfl

@[simp] lemma revoke_prevAttestNonce {reason : String} :
    (revoke row reason now).prevAttestNonce = row.prevAttestNonce := by
  unfold revoke
  split_ifs <;> rfl

@[simp] lemma unrevoke_bootId : (unrevoke row).bootId = row.bootId := rfl

@[simp] lemma unrevoke_seq : (unrevoke row).seq = row.seq := rfl

end Statements

/-! ## `Heartbeat` -/

def keepaliveInterval : ℤ := 5 * Go.minute

/-- A heartbeat on its way to `RecordHeartbeat`. -/
structure Pending where
  hb : Heartbeat
  clockOffsetMs : ℤ
  eventWritten : Bool
  deriving DecidableEq, Repr

/-- What the first half of `Heartbeat` comes to. -/
inductive Received
  | refused (err : Err)
  | replayed
  | pending (p : Pending)
  deriving DecidableEq, Repr

/-- The tables a heartbeat writes to. -/
structure Server where
  row : AgentRow
  events : List TelemetryEvent
  records : List Record
  deriving DecidableEq, Repr

def Server.append (s : Server) (hb : Heartbeat) (eventType : String) (createdAt : ℤ) : Server :=
  { s with events := s.events ++ [⟨hb.bootId, hb.seq, eventType, hb.signalHash, createdAt⟩] }

def Server.note (s : Server) (r : Record) : Server := { s with records := s.records ++ [r] }

/-- `replay`, for a buffered heartbeat. -/
def Server.replay (s : Server) (hb : Heartbeat) (now : ℤ) : Server :=
  s.append hb "buffered" (hb.wallTs.getD now)

/-- The findings of a heartbeat that is no replay. -/
def Server.noteIntegrity (s : Server) (a : AgentRow) (hb : Heartbeat) (integ : Integrity) (now : ℤ) :
    Server :=
  let s := if integ.newBoot && !integ.cleanRestart then
      s.note (.agentCrash a.bootId hb.bootId a.lastSeenAt) else s
  if integ.clockSkewMs ≠ 0 then s.note (.clockSkew integ.clockSkewMs hb.wallTs now) else s

/-- Whether the signals are new. -/
def signalsChanged (a : AgentRow) (hb : Heartbeat) : Bool :=
  hb.signalHash = "" || hb.signalHash ≠ a.signalHash

/-- `KeepaliveSeconds` of the policy as a duration, or the default. -/
def keepalive (keepaliveSeconds : ℤ) : ℤ :=
  let d := Go.duration keepaliveSeconds Go.second
  if d ≤ 0 then keepaliveInterval else d

/-- Whether an event is written. -/
def writeEvent (keepaliveSeconds : ℤ) (a : AgentRow) (hb : Heartbeat) (integ : Integrity) (now : ℤ) :
    Bool :=
  signalsChanged a hb ||
    (match a.lastEventAt with
      | none => true
      | some t => Go.sub now t ≥ keepalive keepaliveSeconds) ||
    integ.newBoot

def eventType (a : AgentRow) (hb : Heartbeat) (integ : Integrity) : String :=
  if integ.newBoot then "boot" else if signalsChanged a hb then "signal_change" else "keepalive"

/-- `Heartbeat` for a live one, with the row as it was read, up to `RecordHeartbeat`. -/
def Server.judge (s : Server) (keepaliveSeconds : ℤ) (a : AgentRow) (hb : Heartbeat) (now : ℤ) :
    Server × Received :=
  let integ := classify a hb now
  if integ.seqReplay then (s.note (.seqReplay hb.bootId hb.seq a.seq), .refused .unknownAgent)
  else
    let written := writeEvent keepaliveSeconds a hb integ now
    let noted := s.noteIntegrity a hb integ now
    (if written then noted.append hb (eventType a hb integ) now else noted,
      .pending ⟨hb, clockOffset hb now, written⟩)

/-- `requireAgent` and `Heartbeat` up to `RecordHeartbeat`. -/
def Server.receive (s : Server) (keepaliveSeconds : ℤ) (hb : Heartbeat) (now : ℤ) :
    Server × Received :=
  match getByToken s.row with
  | .error err => (s, .refused err)
  | .ok a => if hb.buffered then (s.replay hb now, .replayed) else s.judge keepaliveSeconds a hb now

/-- `RecordHeartbeat`, with its error. -/
def Server.record (s : Server) (p : Pending) (now : ℤ) : Except Err Server :=
  match recordHeartbeat s.row p.hb p.clockOffsetMs p.eventWritten now with
  | some row => .ok { s with row := row }
  | none => .error .unknownAgent

/-! ## What a request does -/

section Receive

variable {s : Server} {k now : ℤ} {hb : Heartbeat}

@[simp] lemma noteIntegrity_row (a : AgentRow) (integ : Integrity) :
    (s.noteIntegrity a hb integ now).row = s.row := by
  unfold Server.noteIntegrity
  split_ifs <;> rfl

lemma judge_row (a : AgentRow) : (s.judge k a hb now).1.row = s.row := by
  unfold Server.judge
  dsimp only
  split_ifs <;> simp [Server.append, Server.note]

lemma judge_pending_iff {a : AgentRow} {p : Pending} :
    (s.judge k a hb now).2 = .pending p ↔
      ¬ hb.Repeated a ∧
        p = ⟨hb, clockOffset hb now, writeEvent k a hb (classify a hb now) now⟩ := by
  have hiff : (classify a hb now).seqReplay = true ↔ _ := classify_seqReplay_iff
  rw [← hiff, Server.judge, eq_comm]
  by_cases hreplay : (classify a hb now).seqReplay = true <;> simp [hreplay]

/-- Up to the `UPDATE` the row is only read. -/
@[simp] lemma receive_row : (s.receive k hb now).1.row = s.row := by
  unfold Server.receive
  split
  · rfl
  · split_ifs
    · rfl
    · exact judge_row _

/-- A live heartbeat goes on to be recorded if the enrollment is live and its sequence number is
new to the boot in the row, or its boot is spelled in another way. -/
theorem receive_pending_iff {p : Pending} :
    (s.receive k hb now).2 = .pending p ↔
      s.row.revokedAt = none ∧ hb.buffered = false ∧
        ¬ hb.Repeated s.row ∧
        p = ⟨hb, clockOffset hb now, writeEvent k s.row hb (classify s.row hb now) now⟩ := by
  unfold Server.receive getByToken
  cases hrev : s.row.revokedAt with
  | some t => simp
  | none =>
      by_cases hbuf : hb.buffered = true
      · simp [hbuf]
      · simp [hbuf, judge_pending_iff]

lemma receive_pending_hb {p : Pending} (h : (s.receive k hb now).2 = .pending p) : p.hb = hb := by
  obtain ⟨-, -, -, rfl⟩ := receive_pending_iff.mp h
  rfl

/-- A live enrollment refuses heartbeats of the boot in its row only. -/
lemma receive_refused {err : Err} (h : (s.receive k hb now).2 = .refused err)
    (herr : err = .unknownAgent) : s.row.bootId = some hb.bootId := by
  subst herr
  unfold Server.receive getByToken at h
  cases hrev : s.row.revokedAt with
  | some t => simp [hrev] at h
  | none =>
      by_cases hbuf : hb.buffered = true
      · simp [hrev, hbuf] at h
      · by_cases hreplay : (classify s.row hb now).seqReplay = true
        · exact (classify_seqReplay_iff.mp hreplay).2.1
        · simp [hrev, hbuf, Server.judge, hreplay] at h

lemma receive_replayed (h : (s.receive k hb now).2 = .replayed) : hb.buffered = true := by
  unfold Server.receive getByToken at h
  by_contra hbuf
  cases hrev : s.row.revokedAt with
  | some t => simp [hrev] at h
  | none =>
      by_cases hreplay : (classify s.row hb now).seqReplay = true <;>
        simp [hrev, hbuf, Server.judge, hreplay] at h

lemma record_eq_ok {p : Pending} {s' : Server} :
    s.record p now = .ok s' ↔ ∃ row,
      recordHeartbeat s.row p.hb p.clockOffsetMs p.eventWritten now = some row ∧
        s' = { s with row := row } := by
  unfold Server.record
  cases recordHeartbeat s.row p.hb p.clockOffsetMs p.eventWritten now with
  | none => simp
  | some row => simp [eq_comm]

lemma record_eq_error {p : Pending} {err : Err} (h : s.record p now = .error err) :
    s.row.Stopped p.hb.bootId ∧ err = .unknownAgent := by
  unfold Server.record at h
  cases hrow : recordHeartbeat s.row p.hb p.clockOffsetMs p.eventWritten now with
  | none =>
      have hstopped := not_imp_not.mpr recordHeartbeat_isSome.mpr (Option.not_isSome_iff_eq_none.mpr hrow)
      rw [hrow] at h
      exact ⟨not_not.mp hstopped, (Except.error.inj h).symm⟩
  | some row => simp [hrow] at h

end Receive

end Agent

end Labyrithm
