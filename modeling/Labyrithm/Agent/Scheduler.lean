import Labyrithm.Agent.Heartbeat
import Labyrithm.Go.Runs

/-!
# An agent and its server

`send` of `competitor-desktop/src-tauri/src/agent/scheduler.rs` against the server of one enrollment.
`send` waits for the answer, so one heartbeat is on its way at a time; its request or its response
may be lost, after which the agent knows nothing of it.  A statement of the server that fails changes
no row and is answered with a status that `classify` treats like a lost response, so it is one.

A heartbeat without an answer is kept in a buffer and sent again as a buffered one, which leaves the
row as it is (`receive_row`); the buffer is left out.

* `AgentState.settle` — what `send` makes of the answer.
* `Link.step` — a heartbeat sent, lost, read, recorded, answered; the other handlers; a restart.
* `Link.moves_of_step` — what one step can do, for the invariants.
-/

namespace Labyrithm

namespace Agent

/-! ## The agent -/

/-- `AgentState`. -/
structure AgentState where
  bootId : String
  seq : ℕ
  publishedNonce : String
  consecutiveRejections : ℕ
  revoked : Bool
  deriving DecidableEq, Repr

namespace AgentState

/-- `AgentState::new`. -/
def new (uuid : String) : AgentState where
  bootId := uuid
  seq := 0
  publishedNonce := ""
  consecutiveRejections := 0
  revoked := false

/-- `publish_nonce`. -/
def publishNonce (a : AgentState) (nonce : String) : AgentState := { a with publishedNonce := nonce }

/-- `note_rejection`, which returns the new count. -/
def noteRejection (a : AgentState) : AgentState × ℕ :=
  ({ a with consecutiveRejections := a.consecutiveRejections + 1 }, a.consecutiveRejections + 1)

/-- `clear_rejections`. -/
def clearRejections (a : AgentState) : AgentState := { a with consecutiveRejections := 0 }

/-- `rotate_boot`. -/
def rotateBoot (a : AgentState) (uuid : String) : AgentState := { a with bootId := uuid, seq := 0 }

end AgentState

inductive SendError
  | revoked
  | rejected
  | unreachable
  deriving DecidableEq, Repr

/-- `classify` of `transport.rs`. -/
def Transport.classify (status : ℕ) : Except SendError Unit :=
  if 200 ≤ status ∧ status < 300 then .ok ()
  else if status = 410 ∨ status = 401 then .error .revoked
  else if status = 409 ∨ status = 400 then .error .rejected
  else .error .unreachable

/-- What else goes into a heartbeat. -/
structure Report where
  wallTs : Option ℤ
  agentVersion : String
  loopbackPort : ℤ
  signalHash : String
  deriving DecidableEq, Repr

namespace AgentState

/-- `seq.fetch_add`. -/
def nextSeq (a : AgentState) : AgentState := { a with seq := a.seq + 1 }

/-- The heartbeat that `send` builds. -/
def heartbeat (a : AgentState) (nonce : String) (report : Report) : Heartbeat where
  bootId := a.bootId
  seq := a.seq + 1
  wallTs := report.wallTs
  agentVersion := report.agentVersion
  loopbackPort := report.loopbackPort
  attestNonce := nonce
  signalHash := report.signalHash
  buffered := false

/-- What `send` makes of the result. -/
def settle (a : AgentState) (nonce : String) (uuid : String) : Except SendError Unit → AgentState
  | .ok () => (a.publishNonce nonce).clearRejections
  | .error .revoked => { a with revoked := true }
  | .error .rejected =>
      let (a, rejections) := a.noteRejection
      if rejections ≥ 2 then a.rotateBoot uuid else a
  | .error .unreachable => a

end AgentState

/-! ## The two of them -/

/-- The status of an error: `requireAgent` and `agentHeartbeat`. -/
def Err.status : Err → ℕ
  | unknownAgent => 409
  | revoked => 410

/-- The responses to a heartbeat. -/
inductive Response
  | accepted
  | refused (err : Err)
  | limited
  deriving DecidableEq, Repr

def Response.status : Response → ℕ
  | accepted => 202
  | refused err => err.status
  | limited => 429

/-- Where the heartbeat is. -/
inductive Phase
  | idle
  | sent (hb : Heartbeat)
  | read (p : Pending)
  | answered (hb : Heartbeat) (response : Response)
  deriving DecidableEq, Repr

/-- What became of a heartbeat. -/
inductive Outcome
  | answered (response : Response)
  | requestLost
  | responseLost (response : Response)
  deriving DecidableEq, Repr

/-- The agent, the server and the heartbeat between them, with what became of all heartbeats so far
and the boot ids there have been. -/
structure Link where
  agent : AgentState
  server : Server
  phase : Phase
  outcomes : List Outcome
  boots : List String
  deriving DecidableEq, Repr

inductive Action
  | send (nonce : String) (report : Report)
  | loseRequest
  | limit
  | receive (keepaliveSeconds now : ℤ)
  | record (now : ℤ)
  | loseResponse
  | answer (uuid : String)
  | shutdown (reason : String) (now : ℤ)
  | revoke (reason : String) (now : ℤ)
  | unrevoke
  | restart (uuid : String)
  deriving DecidableEq, Repr

namespace Link

/-- An agent and a server that have not exchanged anything yet. -/
def meet (agent : AgentState) (server : Server) : Link where
  agent := agent
  server := server
  phase := .idle
  outcomes := []
  boots := agent.bootId :: server.row.bootId.toList

/-- A new process and the row of its enrollment. -/
def enrolled (uuid agentVersion : String) : Link := meet (.new uuid) ⟨.enrolled agentVersion, [], []⟩

/-- The heartbeat is done with. -/
def finish (s : Link) (agent : AgentState) (outcome : Outcome) : Link :=
  { s with agent := agent, phase := .idle, outcomes := s.outcomes ++ [outcome] }

def changeRow (s : Link) (row : AgentRow) : Link := { s with server := { s.server with row := row } }

/-- Where a heartbeat is after the request has read the row. -/
def phaseOf (hb : Heartbeat) : Received → Phase
  | .refused err => .answered hb (.refused err)
  | .replayed => .answered hb .accepted
  | .pending p => .read p

/-- `send`, up to the request. -/
def send (s : Link) (nonce : String) (report : Report) : Link :=
  { s with agent := s.agent.nextSeq, phase := .sent (s.agent.heartbeat nonce report) }

/-- The request reaches the handler. -/
def receive (s : Link) (hb : Heartbeat) (keepaliveSeconds now : ℤ) : Link :=
  let (server, received) := s.server.receive keepaliveSeconds hb now
  { s with server := server, phase := phaseOf hb received }

/-- The request comes to its `UPDATE`. -/
def record (s : Link) (p : Pending) (now : ℤ) : Link :=
  match s.server.record p now with
  | .ok server => { s with server := server, phase := .answered p.hb .accepted }
  | .error err => { s with phase := .answered p.hb (.refused err) }

/-- `send`, from the answer on; `uuid` is for a boot that may have to start. -/
def answer (s : Link) (hb : Heartbeat) (response : Response) (uuid : String) : Link :=
  { s.finish (s.agent.settle hb.attestNonce uuid (Transport.classify response.status))
      (.answered response) with
    boots := uuid :: s.boots }

/-- `AgentState::new` in the next process. -/
def restart (s : Link) (uuid : String) : Link :=
  { s with agent := .new uuid, boots := uuid :: s.boots }

/-- One step.  A nonce is never empty, and a new boot id never one there has been. -/
def step : Action → Link → Option Link
  | .send nonce report, s =>
      if s.phase = .idle ∧ s.agent.revoked = false ∧ nonce ≠ "" then some (s.send nonce report) else none
  | .loseRequest, s =>
      match s.phase with
      | .sent _ => some (s.finish s.agent .requestLost)
      | _ => none
  | .limit, s =>
      match s.phase with
      | .sent hb =>
          if s.server.row.revokedAt = none then some { s with phase := .answered hb .limited } else none
      | _ => none
  | .receive keepaliveSeconds now, s =>
      match s.phase with
      | .sent hb => some (s.receive hb keepaliveSeconds now)
      | _ => none
  | .record now, s =>
      match s.phase with
      | .read p => some (s.record p now)
      | _ => none
  | .loseResponse, s =>
      match s.phase with
      | .answered _ response => some (s.finish s.agent (.responseLost response))
      | _ => none
  | .answer uuid, s =>
      match s.phase with
      | .answered hb response => if uuid ∉ s.boots then some (s.answer hb response uuid) else none
      | _ => none
  | .shutdown reason now, s => some (s.changeRow (Agent.shutdown s.server.row reason now))
  | .revoke reason now, s => some (s.changeRow (Agent.revoke s.server.row reason now))
  | .unrevoke, s => some (s.changeRow (Agent.unrevoke s.server.row))
  | .restart uuid, s => if s.phase = .idle ∧ uuid ∉ s.boots then some (s.restart uuid) else none

end Link

/-- What `send` takes a response for. -/
@[simp] lemma classify_status (response : Response) :
    Transport.classify response.status = match response with
      | .accepted => .ok ()
      | .refused .unknownAgent => .error .rejected
      | .refused .revoked => .error .revoked
      | .limited => .error .unreachable := by
  rcases response with _ | (_ | _) | _ <;> rfl

/-- `send` leaves its state as it is when there was no answer. -/
@[simp] lemma settle_unreachable (a : AgentState) (nonce uuid : String) :
    a.settle nonce uuid (.error .unreachable) = a := rfl

/-! ## What a step can do -/

/-- One step, by what it does to the row, the phase and the agent. -/
inductive Link.Moves (s : Link) : Link → Prop
  | send (nonce : String) (report : Report) (hphase : s.phase = .idle) (hnonce : nonce ≠ "") :
      s.Moves (s.send nonce report)
  | requestLost (hb : Heartbeat) (hphase : s.phase = .sent hb) : s.Moves (s.finish s.agent .requestLost)
  | limited (hb : Heartbeat) (hphase : s.phase = .sent hb) :
      s.Moves { s with phase := .answered hb .limited }
  | refused (hb : Heartbeat) (server : Server) (err : Err) (hphase : s.phase = .sent hb)
      (hrow : server.row = s.server.row)
      (herr : err = .unknownAgent → s.server.row.bootId = some hb.bootId) :
      s.Moves { s with server := server, phase := .answered hb (.refused err) }
  | replayed (hb : Heartbeat) (server : Server) (hphase : s.phase = .sent hb)
      (hbuffered : hb.buffered = true) (hrow : server.row = s.server.row) :
      s.Moves { s with server := server, phase := .answered hb .accepted }
  | read (p : Pending) (server : Server) (hphase : s.phase = .sent p.hb)
      (hrow : server.row = s.server.row) : s.Moves { s with server := server, phase := .read p }
  | recorded (p : Pending) (row : AgentRow) (now : ℤ) (hphase : s.phase = .read p)
      (hrow : recordHeartbeat s.server.row p.hb p.clockOffsetMs p.eventWritten now = some row) :
      s.Moves { s.changeRow row with phase := .answered p.hb .accepted }
  | notRecorded (p : Pending) (hphase : s.phase = .read p)
      (hstopped : s.server.row.Stopped p.hb.bootId) :
      s.Moves { s with phase := .answered p.hb (.refused .unknownAgent) }
  | responseLost (hb : Heartbeat) (response : Response) (hphase : s.phase = .answered hb response) :
      s.Moves (s.finish s.agent (.responseLost response))
  | answered (hb : Heartbeat) (response : Response) (uuid : String)
      (hphase : s.phase = .answered hb response) (huuid : uuid ∉ s.boots) :
      s.Moves (s.answer hb response uuid)
  | rowChanged (row : AgentRow) (hboot : row.bootId = s.server.row.bootId)
      (hnonce : row.attestNonce = s.server.row.attestNonce)
      (hprev : row.prevAttestNonce = s.server.row.prevAttestNonce) : s.Moves (s.changeRow row)
  | restart (uuid : String) (hphase : s.phase = .idle) (huuid : uuid ∉ s.boots) :
      s.Moves (s.restart uuid)

section Moves

variable {s s' : Link}

lemma Link.moves_receive {hb : Heartbeat} (k now : ℤ) (hphase : s.phase = .sent hb) :
    s.Moves (s.receive hb k now) := by
  have hrow : (s.server.receive k hb now).1.row = s.server.row := receive_row
  unfold Link.receive
  cases hreceived : (s.server.receive k hb now).2 with
  | refused err =>
      simp only [hreceived, Link.phaseOf]
      exact .refused hb _ err hphase hrow (receive_refused hreceived)
  | replayed =>
      simp only [hreceived, Link.phaseOf]
      exact .replayed hb _ hphase (receive_replayed hreceived) hrow
  | pending p =>
      simp only [hreceived, Link.phaseOf]
      obtain rfl := receive_pending_hb hreceived
      exact .read p _ hphase hrow

lemma Link.moves_record {p : Pending} (now : ℤ) (hphase : s.phase = .read p) :
    s.Moves (s.record p now) := by
  unfold Link.record
  cases hrecord : s.server.record p now with
  | ok server =>
      obtain ⟨row, hrow, rfl⟩ := record_eq_ok.mp hrecord
      exact .recorded p row now hphase hrow
  | error err =>
      obtain ⟨hstopped, rfl⟩ := record_eq_error hrecord
      exact .notRecorded p hphase hstopped

/-- What one step can do. -/
theorem Link.moves_of_step {a : Action} (h : Link.step a s = some s') : s.Moves s' := by
  cases a with
  | send nonce report =>
      obtain ⟨⟨hphase, -, hnonce⟩, hs'⟩ := Option.ite_none_right_eq_some.mp h
      obtain rfl := Option.some.inj hs'
      exact .send nonce report hphase hnonce
  | shutdown reason now =>
      obtain rfl := Option.some.inj h
      exact .rowChanged _ rfl rfl rfl
  | revoke reason now =>
      obtain rfl := Option.some.inj h
      exact .rowChanged _ revoke_bootId revoke_attestNonce revoke_prevAttestNonce
  | unrevoke =>
      obtain rfl := Option.some.inj h
      exact .rowChanged _ rfl rfl rfl
  | restart uuid =>
      obtain ⟨⟨hphase, huuid⟩, hs'⟩ := Option.ite_none_right_eq_some.mp h
      obtain rfl := Option.some.inj hs'
      exact .restart uuid hphase huuid
  | loseRequest =>
      simp only [Link.step] at h
      split at h <;> rename_i hphase <;> cases h
      exact .requestLost _ hphase
  | limit =>
      simp only [Link.step] at h
      split at h <;> rename_i hphase
      · obtain ⟨-, hs'⟩ := Option.ite_none_right_eq_some.mp h
        obtain rfl := Option.some.inj hs'
        exact .limited _ hphase
      · cases h
  | receive k now =>
      simp only [Link.step] at h
      split at h <;> rename_i hphase <;> cases h
      exact Link.moves_receive k now hphase
  | record now =>
      simp only [Link.step] at h
      split at h <;> rename_i hphase <;> cases h
      exact Link.moves_record now hphase
  | loseResponse =>
      simp only [Link.step] at h
      split at h <;> rename_i hphase <;> cases h
      exact .responseLost _ _ hphase
  | answer uuid =>
      simp only [Link.step] at h
      split at h <;> rename_i hphase
      · obtain ⟨huuid, hs'⟩ := Option.ite_none_right_eq_some.mp h
        obtain rfl := Option.some.inj hs'
        exact .answered _ _ uuid hphase huuid
      · cases h

end Moves

end Agent

end Labyrithm
