import Labyrithm.Agent.Heartbeat
import Labyrithm.Go.Runs

/-!
# Shutdowns of successive boots

A client process says goodbye with a shutdown that carries its boot id (`transport.rs`), and the next
process may be reporting by the time it arrives.  `agentShutdown` binds the boot id and passes on the
reason only, and the `UPDATE` of `MarkStopped` does not ask which boot the row has, whereas the one of
`RecordHeartbeat` does.

The messages of all boots of one enrollment arrive in any order, any number of times; a request reads
the row first and writes later, and others may write in between.

* `Sessions.step` — one request arrives, or one request writes.
* `Later` — a boot that came after another one, by the order in which the processes started.
* **`shutdown_scoped`** — no heartbeat ends a stop of its own boot; if every shutdown is written before
  the row has a later boot, none of them stops a later boot; and if every heartbeat is, too, a boot that
  was ever stopped never makes the agent live again.
* `shutdown_overtaken` — a shutdown that arrives after the first heartbeat of the next boot stops it.
-/

namespace Labyrithm

namespace Agent

/-- `ShutdownRequest`. -/
structure ShutdownRequest where
  reason : String
  bootId : String
  deriving DecidableEq, Repr

/-- `agentShutdown` after `requireAgent`. -/
def agentShutdown (row : AgentRow) (req : ShutdownRequest) (now : ℤ) : AgentRow :=
  shutdown row req.reason now

inductive Message
  | heartbeat (hb : Heartbeat)
  | shutdown (req : ShutdownRequest)
  deriving DecidableEq, Repr

/-- A request that has read the row and has not written yet. -/
inductive Request
  | heartbeat (p : Pending)
  | shutdown (req : ShutdownRequest)
  deriving DecidableEq, Repr

def Request.bootId : Request → String
  | heartbeat p => p.hb.bootId
  | shutdown req => req.bootId

/-- A shutdown that was written: whose it was, and the boot of the heartbeat accepted last. -/
structure Stop where
  sender : String
  during : Option String
  deriving DecidableEq, Repr

/-- A heartbeat that made a stopped agent live, with all stops there had been. -/
structure Revival where
  bootId : String
  stops : List Stop
  deriving DecidableEq, Repr

/-- The server with the requests under way, and what has happened: the boots of the heartbeats that
were accepted, the stops and the revivals. -/
structure Sessions where
  server : Server
  pending : List Request
  accepted : List String
  stops : List Stop
  revivals : List Revival
  deriving DecidableEq, Repr

def Sessions.enrolled (agentVersion : String) : Sessions :=
  ⟨⟨.enrolled agentVersion, [], []⟩, [], [], [], []⟩

inductive Exchange
  | deliver (keepaliveSeconds : ℤ) (m : Message) (now : ℤ)
  | write (i : ℕ) (now : ℤ)
  | revoke (reason : String) (now : ℤ)
  | unrevoke
  deriving DecidableEq, Repr

/-- A request arrives and reads the row. -/
def Sessions.deliver (s : Sessions) (keepaliveSeconds : ℤ) (now : ℤ) : Message → Sessions
  | .heartbeat hb =>
      let (server, received) := s.server.receive keepaliveSeconds hb now
      { s with
        server := server
        pending := match received with
          | .pending p => s.pending ++ [.heartbeat p]
          | _ => s.pending }
  | .shutdown req =>
      match getByToken s.server.row with
      | .ok _ => { s with pending := s.pending ++ [.shutdown req] }
      | .error _ => s

/-- A request writes. -/
def Sessions.write (s : Sessions) (now : ℤ) : Request → Sessions
  | .heartbeat p =>
      match s.server.record p now with
      | .ok server =>
          { s with
            server := server
            accepted := s.accepted ++ [p.hb.bootId]
            revivals := if s.server.row.stoppedAt.isSome then s.revivals ++ [⟨p.hb.bootId, s.stops⟩]
              else s.revivals }
      | .error _ => s
  | .shutdown req =>
      { s with
        server := { s.server with row := agentShutdown s.server.row req now }
        stops := s.stops ++ [⟨req.bootId, s.accepted.getLast?⟩] }

/-- A change of the row by an administrator. -/
def Sessions.changeRow (s : Sessions) (row : AgentRow) : Sessions :=
  { s with server := { s.server with row := row } }

def Sessions.step : Exchange → Sessions → Option Sessions
  | .deliver keepaliveSeconds m now, s => some (s.deliver keepaliveSeconds now m)
  | .write i now, s => s.pending[i]?.map fun r =>
      { s with pending := s.pending.eraseIdx i }.write now r
  | .revoke reason now, s => some (s.changeRow (Agent.revoke s.server.row reason now))
  | .unrevoke, s => some (s.changeRow (Agent.unrevoke s.server.row))

/-! ## What is asked of a run -/

section Order

variable (started : String → ℕ)

/-- `last` is another boot than `bootId` and did not start before it. -/
def Later (last bootId : String) : Prop := last ≠ bootId ∧ started bootId ≤ started last

instance (last bootId : String) : Decidable (Later started last bootId) :=
  inferInstanceAs (Decidable (_ ∧ _))

/-- The row does not have a later boot than the request's. -/
def InTime (row : AgentRow) (r : Request) : Prop := ∀ last ∈ row.bootId, ¬ Later started last r.bootId

instance (row : AgentRow) (r : Request) : Decidable (InTime started row r) :=
  inferInstanceAs (Decidable (∀ last ∈ row.bootId, _))

def Request.IsShutdown : Request → Prop
  | .heartbeat _ => False
  | .shutdown _ => True

instance : (r : Request) → Decidable r.IsShutdown
  | .heartbeat _ => .isFalse id
  | .shutdown _ => .isTrue trivial

/-- No shutdown is written to a row that has a later boot. -/
def ShutdownsInTime : Exchange → Sessions → Prop
  | .write i _, s => ∀ r ∈ s.pending[i]?, r.IsShutdown → InTime started s.server.row r
  | _, _ => True

/-- No request is written to a row that has a later boot. -/
def AllInTime : Exchange → Sessions → Prop
  | .write i _, s => ∀ r ∈ s.pending[i]?, InTime started s.server.row r
  | _, _ => True

instance : (e : Exchange) → (s : Sessions) → Decidable (ShutdownsInTime started e s)
  | .write .., _ => inferInstanceAs (Decidable (∀ r ∈ _, _))
  | .deliver .., _ => .isTrue trivial
  | .revoke .., _ => .isTrue trivial
  | .unrevoke, _ => .isTrue trivial

instance : (e : Exchange) → (s : Sessions) → Decidable (AllInTime started e s)
  | .write .., _ => inferInstanceAs (Decidable (∀ r ∈ _, _))
  | .deliver .., _ => .isTrue trivial
  | .revoke .., _ => .isTrue trivial
  | .unrevoke, _ => .isTrue trivial

/-! ## What is to hold -/

/-- No shutdown stopped the agent while the heartbeat accepted last was of a later boot. -/
def Sessions.StopsScoped (s : Sessions) : Prop :=
  ∀ stop ∈ s.stops, ∀ last ∈ stop.during, ¬ Later started last stop.sender

instance (s : Sessions) : Decidable (s.StopsScoped started) :=
  inferInstanceAs (Decidable (∀ stop ∈ s.stops, ∀ last ∈ stop.during, _))

/-- No heartbeat ended a stop that fell in its own boot. -/
def Sessions.NoneResumed (s : Sessions) : Prop :=
  ∀ r ∈ s.revivals, ∀ stop ∈ r.stops.getLast?, stop.during ≠ some r.bootId

/-- No heartbeat made the agent live again after a stop, however long ago, that fell in its boot. -/
def Sessions.NoneRevived (s : Sessions) : Prop :=
  ∀ r ∈ s.revivals, ∀ stop ∈ r.stops, stop.during ≠ some r.bootId

end Order

/-! ## The row and what has happened -/

/-- The row has the boot that was accepted last, and a stop that stands fell in it. -/
structure Sessions.Tracked (s : Sessions) : Prop where
  boot : s.server.row.bootId = s.accepted.getLast?
  stop : s.server.row.stoppedAt.isSome →
    ∃ stop, s.stops.getLast? = some stop ∧ stop.during = s.server.row.bootId
  noneResumed : s.NoneResumed

section Step

variable {s s' : Sessions} {started : String → ℕ}

/-- What is delivered changes neither the row nor what has happened. -/
lemma deliver_keeps (k now : ℤ) (m : Message) :
    (s.deliver k now m).server.row = s.server.row ∧
      (s.deliver k now m).accepted = s.accepted ∧ (s.deliver k now m).stops = s.stops ∧
      (s.deliver k now m).revivals = s.revivals := by
  cases m with
  | heartbeat hb => exact ⟨receive_row, rfl, rfl, rfl⟩
  | shutdown req =>
      unfold Sessions.deliver
      dsimp only
      split <;> exact ⟨rfl, rfl, rfl, rfl⟩

/-- A heartbeat that is written takes the row over, unless its boot is stopped. -/
lemma write_heartbeat (now : ℤ) (p : Pending) :
    (∃ row, recordHeartbeat s.server.row p.hb p.clockOffsetMs p.eventWritten now = some row ∧
      s.write now (.heartbeat p) = { s with
        server := { s.server with row := row }
        accepted := s.accepted ++ [p.hb.bootId]
        revivals := if s.server.row.stoppedAt.isSome then s.revivals ++ [⟨p.hb.bootId, s.stops⟩]
          else s.revivals }) ∨
    s.write now (.heartbeat p) = s := by
  cases hserver : s.server.record p now with
  | error err => exact .inr (by simp only [Sessions.write, hserver])
  | ok server =>
      obtain ⟨row, hrow, rfl⟩ := record_eq_ok.mp hserver
      exact .inl ⟨row, hrow, by simp only [Sessions.write, hserver]⟩

lemma Sessions.Tracked.deliver (h : s.Tracked) (k now : ℤ) (m : Message) :
    (s.deliver k now m).Tracked := by
  obtain ⟨hrow, haccepted, hstops, hrevivals⟩ := deliver_keeps (s := s) k now m
  constructor
  · rw [hrow, haccepted]
    exact h.boot
  · rw [hrow, hstops]
    exact h.stop
  · unfold Sessions.NoneResumed
    rw [hrevivals]
    exact h.noneResumed

/-- The heartbeat that ends a stop is not of the boot the stop fell in. -/
lemma Sessions.Tracked.write (h : s.Tracked) (now : ℤ) (r : Request) : (s.write now r).Tracked := by
  cases r with
  | shutdown req =>
      constructor
      · exact h.boot
      · intro _
        exact ⟨⟨req.bootId, s.accepted.getLast?⟩, List.getLast?_concat, h.boot.symm⟩
      · exact h.noneResumed
  | heartbeat p =>
      rcases write_heartbeat (s := s) now p with ⟨row, hrow, heq⟩ | heq
      · rw [heq]
        constructor
        · rw [List.getLast?_concat]
          exact (recordHeartbeat_eq_some hrow).1
        · intro hstopped
          simp [recordHeartbeat_stoppedAt hrow] at hstopped
        · intro r hr stop hstop
          by_cases hstopped : s.server.row.stoppedAt.isSome
          · rw [if_pos hstopped] at hr
            rcases List.mem_append.mp hr with hr | hr
            · exact h.noneResumed r hr stop hstop
            · obtain rfl := List.mem_singleton.mp hr
              obtain ⟨last, hlast, hduring⟩ := h.stop hstopped
              obtain rfl := Option.some.inj (hlast.symm.trans hstop)
              have hnot : ¬ s.server.row.Stopped p.hb.bootId :=
                recordHeartbeat_isSome.mp (Option.isSome_of_eq_some hrow)
              exact fun hsame => hnot ⟨hstopped, hduring.symm.trans hsame⟩
          · rw [if_neg hstopped] at hr
            exact h.noneResumed r hr stop hstop
      · rw [heq]
        exact h

lemma Sessions.Tracked.changeRow (h : s.Tracked) {row : AgentRow}
    (hboot : row.bootId = s.server.row.bootId)
    (hstop : row.stoppedAt.isSome → s.server.row.stoppedAt.isSome) : (s.changeRow row).Tracked where
  boot := hboot.trans h.boot
  stop hstopped := by
    obtain ⟨stop, hlast, hduring⟩ := h.stop (hstop hstopped)
    exact ⟨stop, hlast, hduring.trans hboot.symm⟩
  noneResumed := h.noneResumed

/-- The requests under way are no part of it. -/
lemma Sessions.Tracked.withPending (h : s.Tracked) (pending : List Request) :
    ({ s with pending := pending } : Sessions).Tracked := ⟨h.boot, h.stop, h.noneResumed⟩

lemma Sessions.Tracked.step (h : s.Tracked) {e : Exchange} (hstep : Sessions.step e s = some s') :
    s'.Tracked := by
  cases e with
  | deliver k m now =>
      obtain rfl := Option.some.inj hstep
      exact h.deliver k now m
  | write i now =>
      obtain ⟨r, -, rfl⟩ := Option.map_eq_some_iff.mp hstep
      exact (h.withPending _).write now r
  | revoke reason now =>
      obtain rfl := Option.some.inj hstep
      exact h.changeRow revoke_bootId (by rw [revoke_stoppedAt]; exact id)
  | unrevoke =>
      obtain rfl := Option.some.inj hstep
      exact h.changeRow unrevoke_bootId (by simp [Agent.unrevoke])

lemma tracked_enrolled (agentVersion : String) : (Sessions.enrolled agentVersion).Tracked where
  boot := rfl
  stop hstopped := by simp [Sessions.enrolled, AgentRow.enrolled] at hstopped
  noneResumed r hr := by simp [Sessions.enrolled] at hr

end Step

/-! ## The shutdowns in time -/

section InTime

variable {s s' : Sessions} {started : String → ℕ}

lemma ShutdownsInTime.of_all {e : Exchange} (h : AllInTime started e s) :
    ShutdownsInTime started e s := by
  cases e with
  | write i now => exact fun r hr _ => h r hr
  | deliver k m now => trivial
  | revoke reason now => trivial
  | unrevoke => trivial

/-- A shutdown that is in time does not stop a later boot; nothing else is a stop. -/
lemma Sessions.StopsScoped.write (h : s.StopsScoped started) (htracked : s.Tracked) (now : ℤ)
    (r : Request) (htime : r.IsShutdown → InTime started s.server.row r) :
    (s.write now r).StopsScoped started := by
  cases r with
  | heartbeat p =>
      rcases write_heartbeat (s := s) now p with ⟨row, -, heq⟩ | heq
      · rw [heq]
        exact h
      · rw [heq]
        exact h
  | shutdown req =>
      intro stop hstop last hlast
      rcases List.mem_append.mp hstop with hstop | hstop
      · exact h stop hstop last hlast
      · obtain rfl := List.mem_singleton.mp hstop
        rw [← htracked.boot] at hlast
        exact htime trivial last hlast

lemma Sessions.StopsScoped.step (h : s.StopsScoped started) (htracked : s.Tracked) {e : Exchange}
    (htime : ShutdownsInTime started e s) (hstep : Sessions.step e s = some s') :
    s'.StopsScoped started := by
  cases e with
  | deliver k m now =>
      obtain rfl := Option.some.inj hstep
      obtain ⟨-, -, hstops, -⟩ := deliver_keeps (s := s) k now m
      unfold Sessions.StopsScoped
      rw [hstops]
      exact h
  | write i now =>
      obtain ⟨r, hr, rfl⟩ := Option.map_eq_some_iff.mp hstep
      exact Sessions.StopsScoped.write (s := { s with pending := s.pending.eraseIdx i }) h
        (htracked.withPending _) now r (htime r hr)
  | revoke reason now =>
      obtain rfl := Option.some.inj hstep
      exact h
  | unrevoke =>
      obtain rfl := Option.some.inj hstep
      exact h

/-- The boots that were stopped are the one in the row and earlier ones. -/
structure Sessions.Ordered (started : String → ℕ) (s : Sessions) : Prop where
  before : ∀ stop ∈ s.stops, ∀ bootId, stop.during = some bootId →
    ∃ last, s.server.row.bootId = some last ∧ (bootId = last ∨ started bootId < started last)
  noneRevived : s.NoneRevived

lemma Sessions.Ordered.write (h : s.Ordered started) (htracked : s.Tracked) (now : ℤ) (r : Request)
    (htime : InTime started s.server.row r) : (s.write now r).Ordered started := by
  cases r with
  | shutdown req =>
      constructor
      · intro stop hstop bootId hduring
        rcases List.mem_append.mp hstop with hstop | hstop
        · exact h.before stop hstop bootId hduring
        · obtain rfl := List.mem_singleton.mp hstop
          exact ⟨bootId, htracked.boot.trans hduring, .inl rfl⟩
      · exact h.noneRevived
  | heartbeat p =>
      rcases write_heartbeat (s := s) now p with ⟨row, hrow, heq⟩ | heq
      · rw [heq]
        constructor
        · intro stop hstop bootId hduring
          refine ⟨p.hb.bootId, (recordHeartbeat_eq_some hrow).1, ?_⟩
          obtain ⟨last, hlast, hbefore⟩ := h.before stop hstop bootId hduring
          have hnot : ¬ Later started last p.hb.bootId := htime last hlast
          by_cases hsame : last = p.hb.bootId
          · exact hsame ▸ hbefore
          · have hlt : started last < started p.hb.bootId :=
              Nat.lt_of_not_le fun hle => hnot ⟨hsame, hle⟩
            rcases hbefore with rfl | hbefore
            · exact .inr hlt
            · exact .inr (hbefore.trans hlt)
        · intro r hr stop hstop
          by_cases hstopped : s.server.row.stoppedAt.isSome
          · rw [if_pos hstopped] at hr
            rcases List.mem_append.mp hr with hr | hr
            · exact h.noneRevived r hr stop hstop
            · obtain rfl := List.mem_singleton.mp hr
              intro hduring
              obtain ⟨last, hlast, hbefore⟩ := h.before stop hstop _ hduring
              have hnot : ¬ s.server.row.Stopped p.hb.bootId :=
                recordHeartbeat_isSome.mp (Option.isSome_of_eq_some hrow)
              have hother : p.hb.bootId ≠ last := fun hsame => hnot ⟨hstopped, hsame ▸ hlast⟩
              have hlt : started p.hb.bootId < started last := hbefore.resolve_left hother
              exact htime last hlast ⟨hother.symm, hlt.le⟩
          · rw [if_neg hstopped] at hr
            exact h.noneRevived r hr stop hstop
      · rw [heq]
        exact h

lemma Sessions.Ordered.changeRow (h : s.Ordered started) {row : AgentRow}
    (hboot : row.bootId = s.server.row.bootId) : (s.changeRow row).Ordered started where
  before stop hstop bootId hduring := by
    obtain ⟨last, hlast, hbefore⟩ := h.before stop hstop bootId hduring
    exact ⟨last, hboot.trans hlast, hbefore⟩
  noneRevived := h.noneRevived

lemma Sessions.Ordered.step (h : s.Ordered started) (htracked : s.Tracked) {e : Exchange}
    (htime : AllInTime started e s) (hstep : Sessions.step e s = some s') : s'.Ordered started := by
  cases e with
  | deliver k m now =>
      obtain rfl := Option.some.inj hstep
      obtain ⟨hrow, -, hstops, hrevivals⟩ := deliver_keeps (s := s) k now m
      constructor
      · rw [hrow, hstops]
        exact h.before
      · unfold Sessions.NoneRevived
        rw [hrevivals]
        exact h.noneRevived
  | write i now =>
      obtain ⟨r, hr, rfl⟩ := Option.map_eq_some_iff.mp hstep
      exact Sessions.Ordered.write (s := { s with pending := s.pending.eraseIdx i })
        ⟨h.before, h.noneRevived⟩ (htracked.withPending _) now r (htime r hr)
  | revoke reason now =>
      obtain rfl := Option.some.inj hstep
      exact h.changeRow revoke_bootId
  | unrevoke =>
      obtain rfl := Option.some.inj hstep
      exact h.changeRow unrevoke_bootId

lemma ordered_enrolled (agentVersion : String) : (Sessions.enrolled agentVersion).Ordered started where
  before stop hstop := by simp [Sessions.enrolled] at hstop
  noneRevived r hr := by simp [Sessions.enrolled] at hr

end InTime

/-! ## The runs -/

lemma tracked_of_reach (agentVersion : String) (s : Sessions)
    (h : Go.Reach Sessions.step (.enrolled agentVersion) s) : s.Tracked :=
  h.invariant (tracked_enrolled agentVersion) fun _ _ _ hs hstep => hs.step hstep

lemma stopsScoped_of_reachIf (agentVersion : String) (started : String → ℕ) (s : Sessions)
    (h : Go.ReachIf Sessions.step (ShutdownsInTime started) (.enrolled agentVersion) s) :
    s.StopsScoped started :=
  h.invariant_of (tracked_of_reach agentVersion)
    (fun stop hstop => by simp [Sessions.enrolled] at hstop)
    fun _ _ _ htracked hs htime hstep => hs.step htracked htime hstep

/-- A heartbeat never ends a stop that fell in its own boot.  A shutdown that is written before the
row has a later boot stops no later one, and where that is so of every request, a boot that was stopped
once does not make the agent live again. -/
theorem shutdown_scoped (agentVersion : String) (started : String → ℕ) :
    (∀ s, Go.Reach Sessions.step (.enrolled agentVersion) s → s.NoneResumed) ∧
    (∀ s, Go.ReachIf Sessions.step (ShutdownsInTime started) (.enrolled agentVersion) s →
      s.StopsScoped started) ∧
    (∀ s, Go.ReachIf Sessions.step (AllInTime started) (.enrolled agentVersion) s →
      s.StopsScoped started ∧ s.NoneRevived) := by
  refine ⟨fun s h => (tracked_of_reach agentVersion s h).noneResumed,
    stopsScoped_of_reachIf agentVersion started, fun s h => ⟨?_, ?_⟩⟩
  · exact stopsScoped_of_reachIf agentVersion started s
      (h.mono fun _ _ htime => ShutdownsInTime.of_all htime)
  · exact (h.invariant_of (tracked_of_reach agentVersion) (ordered_enrolled agentVersion)
      fun _ _ _ htracked hs htime hstep => hs.step htracked htime hstep).noneRevived

/-- A live heartbeat with nothing to report. -/
def sign (bootId : String) (seq : ℤ) : Message :=
  .heartbeat ⟨bootId, seq, none, "", 0, "", "", false, true⟩

/-- The boots in the order of their names. -/
def byName (bootId : String) : ℕ := if bootId = "a" then 1 else 2

/-- Two boots, each with a heartbeat and a shutdown, and a copy of a stopped boot's heartbeat. -/
def sessionsSample : List Exchange :=
  [.deliver 0 (sign "a" 1) 1, .write 0 1, .deliver 0 (.shutdown ⟨"", "a"⟩) 2, .write 0 2,
    .deliver 0 (sign "a" 2) 3, .write 0 3, .deliver 0 (sign "b" 1) 4, .write 0 4,
    .deliver 0 (.shutdown ⟨"", "b"⟩) 5, .write 0 5]

theorem shutdown_scoped_sample :
    ((Go.run Sessions.step sessionsSample (.enrolled "1")).getD (.enrolled "1")).NoneResumed ∧
    ((Go.runIf Sessions.step (ShutdownsInTime byName) sessionsSample (.enrolled "1")).getD
      (.enrolled "1")).StopsScoped byName ∧
    ((Go.runIf Sessions.step (AllInTime byName) sessionsSample (.enrolled "1")).getD
      (.enrolled "1")).NoneRevived :=
  ⟨(shutdown_scoped "1" byName).1 _ (Go.Reach.run_getD sessionsSample),
    (shutdown_scoped "1" byName).2.1 _ (Go.ReachIf.runIf_getD sessionsSample),
    ((shutdown_scoped "1" byName).2.2 _ (Go.ReachIf.runIf_getD sessionsSample)).2⟩

/-- The shutdown of the first boot arrives after the first heartbeat of the second. -/
theorem shutdown_overtaken :
    ¬ ∀ (agentVersion : String) (started : String → ℕ) (s : Sessions),
      Go.Reach Sessions.step (.enrolled agentVersion) s → s.StopsScoped started := by
  intro h
  have hrun := h "1" byName _ (Go.Reach.run_getD
    [.deliver 0 (sign "a" 1) 1, .write 0 1, .deliver 0 (sign "b" 1) 2, .write 0 2,
      .deliver 0 (.shutdown ⟨"", "a"⟩) 3, .write 0 3])
  revert hrun
  decide

end Agent

end Labyrithm
