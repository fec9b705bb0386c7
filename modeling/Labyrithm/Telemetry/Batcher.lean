import Labyrithm.Go.Chan
import Labyrithm.Go.Map
import Labyrithm.Go.Runs
import Labyrithm.Sql.Coalesce
import Mathlib.Order.WithBot

/-!
# The telemetry batcher

`backend/internal/telemetry/batcher.go`.  Agents' heartbeats are queued; a worker collects them, one for
each user, and now and then writes what it has collected in one transaction.  Between two receipts of
the worker anything may be enqueued, so where one flush ends and the next begins is left to the run.

A column that the statement treats with `GREATEST` is a value of `WithBot ℤ`: `⊥` is NULL, and `GREATEST`,
which ignores NULL, is `⊔`.  Instants are the microseconds that the column keeps.  The lane of the
browsers has columns and a channel of its own and is left out, as is `team_id`, which the statement reads
from `users`.  Every flush succeeds.

The state keeps two histories: the rows that were enqueued, and how they were divided into flushes.

* `column_onConflict` — the columns that keep a running maximum, the others keep the last row's value.
* `Batcher.Reachable.divided` — what the worker has written is what its flushes make of the rows.
* **`Batcher.batching_preserves_iff`** — a user's row is what the heartbeats one by one would have made of
  it if and only if no heartbeat that a later one of the same flush replaced had a sequence number, a
  time or a sighting of the shell beyond those of the heartbeats written.
-/

namespace Labyrithm

namespace Telemetry

/-! ## The statement -/

/-- `AgentRow`.  `ForegroundDwell` is `none` where it is nil. -/
structure AgentRow where
  userID : String
  agentID : String
  agentVersion : String
  activeWindow : String
  foregroundDwell : Option (List (String × ℤ))
  ports : String
  internetReachable : Bool
  processMatches : Option (List String)
  lanIP : String
  shellAlive : Bool
  osInfo : String
  ipAddress : String
  bootID : String
  seq : ℤ
  signalHash : String
  lastPingAt : ℤ
  deriving DecidableEq

/-- The agent's columns of `telemetry_heartbeats`. -/
structure HeartbeatRow where
  agentId : Option String
  agentVersion : String
  activeWindow : String
  runningProcesses : List String
  osInfo : String
  ipAddress : String
  bootId : Option String
  seq : WithBot ℤ
  signalHash : String
  shellAlive : Bool
  internetReachable : Bool
  lanIp : String
  foregroundDwell : List (String × ℤ)
  ports : String
  lastPingAt : WithBot ℤ
  shellAliveAt : WithBot ℤ
  deriving DecidableEq

/-- `telemetry_heartbeats`, by `user_id`. -/
abbrev Heartbeats := String → Option HeartbeatRow

/-- `any` of a string that is NULL where it is empty. -/
def nullIfEmpty (s : String) : Option String := if s = "" then none else some s

/-- The row of `VALUES`, with the defaults that `flush` fills in. -/
def AgentRow.values (row : AgentRow) : HeartbeatRow where
  agentId := nullIfEmpty row.agentID
  agentVersion := row.agentVersion
  activeWindow := row.activeWindow
  runningProcesses := row.processMatches.getD []
  osInfo := row.osInfo
  ipAddress := row.ipAddress
  bootId := nullIfEmpty row.bootID
  seq := row.seq
  signalHash := row.signalHash
  shellAlive := row.shellAlive
  internetReachable := row.internetReachable
  lanIp := row.lanIP
  foregroundDwell := row.foregroundDwell.getD []
  ports := if row.ports = "" then "[]" else row.ports
  lastPingAt := row.lastPingAt
  shellAliveAt := if row.shellAlive then row.lastPingAt else ⊥

/-- `ON CONFLICT (user_id) DO UPDATE SET …`. -/
def onConflict (old excluded : HeartbeatRow) : HeartbeatRow :=
  { excluded with
    seq := old.seq ⊔ excluded.seq
    shellAliveAt :=
      if excluded.shellAlive then old.shellAliveAt ⊔ excluded.lastPingAt else old.shellAliveAt
    lastPingAt := old.lastPingAt ⊔ excluded.lastPingAt }

/-- What the statement makes of the user's row. -/
def upsert (old : Option HeartbeatRow) (row : AgentRow) : Option HeartbeatRow :=
  match old with
  | none => some row.values
  | some old => some (onConflict old row.values)

/-- `agentHeartbeatQuery`. -/
def agentHeartbeatQuery (t : Heartbeats) (row : AgentRow) : Heartbeats :=
  fun userID => if row.userID = userID then upsert (t userID) row else t userID

/-- The columns that the gate and the monitoring read. -/
structure Watched where
  shellAlive : Bool
  shellAliveAt : WithBot ℤ
  bootId : Option String
  seq : WithBot ℤ
  signalHash : String
  lanIp : String
  lastPingAt : WithBot ℤ
  deriving DecidableEq

def HeartbeatRow.watched (h : HeartbeatRow) : Watched where
  shellAlive := h.shellAlive
  shellAliveAt := h.shellAliveAt
  bootId := h.bootId
  seq := h.seq
  signalHash := h.signalHash
  lanIp := h.lanIp
  lastPingAt := h.lastPingAt

/-! ## The worker -/

/-- What woke the worker: a heartbeat, the ticker, or `Stop`. -/
inductive Wake
  | agent
  | tick
  | done
  deriving DecidableEq, Repr

inductive Worker
  /-- in its `select` -/
  | waiting
  /-- in `drain` -/
  | draining (why : Wake)
  | returned
  deriving DecidableEq, Repr

/-- The batcher and the table; and, as history, the rows that entered the queue, those received since
the last flush, and those of each flush. -/
structure Batcher where
  agents : Go.Chan AgentRow
  worker : Worker
  agentBatch : Go.Map String AgentRow
  db : Heartbeats
  enqueued : List AgentRow
  received : List AgentRow
  flushes : List (List AgentRow)

namespace Batcher

/-- `NewBatcher`. -/
def new (t : Heartbeats) : Batcher where
  agents := .make 5000
  worker := .waiting
  agentBatch := ∅
  db := t
  enqueued := []
  received := []
  flushes := []

/-- `flush`, with the order of its `range`. -/
def flush (b : Batcher) (order : List String) : Heartbeats :=
  (order.filterMap b.agentBatch.get?).foldl agentHeartbeatQuery b.db

/-- `agentBatch[row.UserID] = row`. -/
def receive (b : Batcher) (why : Wake) : Option Batcher :=
  b.agents.recv.map fun p =>
    { b with
      agents := p.2
      worker := .draining why
      agentBatch := b.agentBatch.insert p.1.userID p.1
      received := b.received ++ [p.1] }

/-- The flush, and the empty map that follows it. -/
def flushed (b : Batcher) (order : List String) (worker : Worker) : Batcher :=
  { b with
    worker := worker
    agentBatch := ∅
    db := b.flush order
    received := []
    flushes := b.flushes ++ [b.received] }

inductive Action
  | enqueueAgent (row : AgentRow)
  | wake (why : Wake)
  /-- `drain` receives a row -/
  | drain
  /-- `drain` finds nothing more; what follows ranges over the batch in this order -/
  | drained (order : List String)

def step : Action → Batcher → Option Batcher
  | .enqueueAgent row, b =>
      match b.agents.send row with
      | some agents => some { b with agents := agents, enqueued := b.enqueued ++ [row] }
      | none => some b
  | .wake why, b =>
      if b.worker = .waiting then
        match why with
        | .agent => b.receive .agent
        | .tick | .done => some { b with worker := .draining why }
      else none
  | .drain, b =>
      match b.worker with
      | .draining why => b.receive why
      | _ => none
  | .drained order, b =>
      if b.agents.len = 0 ∧ order.Perm b.agentBatch.keys then
        match b.worker with
        | .draining .agent =>
            if 200 ≤ order.length then some (b.flushed order .waiting)
            else some { b with worker := .waiting }
        | .draining .tick =>
            if 0 < order.length then some (b.flushed order .waiting)
            else some { b with worker := .waiting }
        | .draining .done => some (b.flushed order .returned)
        | _ => none
      else none

/-- The states that the batcher can get into over the table `t`. -/
def Reachable (t : Heartbeats) (b : Batcher) : Prop := Go.Reach step (new t) b

/-- Nothing is queued and nothing waits for a flush. -/
def Flushed (b : Batcher) : Prop := b.agents.len = 0 ∧ b.agentBatch.keys = []

instance (b : Batcher) : Decidable b.Flushed := inferInstanceAs (Decidable (_ ∧ _))

end Batcher

/-! ## The columns of a user's row -/

open Sql.Coalesce

/-- What a heartbeat says about when the shell was seen. -/
def AgentRow.sighting (row : AgentRow) : WithBot ℤ := if row.shellAlive then row.lastPingAt else ⊥

/-- `seq`; NULL where there is no row. -/
def seqOf (h : Option HeartbeatRow) : WithBot ℤ := h.elim ⊥ HeartbeatRow.seq

def lastPingAtOf (h : Option HeartbeatRow) : WithBot ℤ := h.elim ⊥ HeartbeatRow.lastPingAt

def shellAliveAtOf (h : Option HeartbeatRow) : WithBot ℤ := h.elim ⊥ HeartbeatRow.shellAliveAt

/-- The columns that are overwritten. -/
def HeartbeatRow.latest (h : HeartbeatRow) : HeartbeatRow :=
  { h with seq := ⊥, lastPingAt := ⊥, shellAliveAt := ⊥ }

variable {h h' : Option HeartbeatRow} {row : AgentRow} {rows : List AgentRow} {t : Heartbeats}
  {userID : String} {flushes : List (List AgentRow)}

lemma seqOf_upsert : seqOf (upsert h row) = seqOf h ⊔ row.seq := by
  cases h with
  | none => exact (bot_sup_eq _).symm
  | some old => rfl

lemma lastPingAtOf_upsert : lastPingAtOf (upsert h row) = lastPingAtOf h ⊔ row.lastPingAt := by
  cases h with
  | none => exact (bot_sup_eq _).symm
  | some old => rfl

lemma shellAliveAtOf_upsert :
    shellAliveAtOf (upsert h row) = shellAliveAtOf h ⊔ row.sighting := by
  cases h with
  | none => exact (bot_sup_eq _).symm
  | some old =>
      cases halive : row.shellAlive with
      | false => simp [shellAliveAtOf, upsert, onConflict, AgentRow.values, AgentRow.sighting, halive]
      | true => simp [shellAliveAtOf, upsert, onConflict, AgentRow.values, AgentRow.sighting, halive]

lemma latest_upsert : (upsert h row).map HeartbeatRow.latest = some row.values.latest := by
  cases h with
  | none => rfl
  | some old => rfl

/-- A column that each statement raises to the row's value holds the maximum. -/
lemma column_upserts {column : Option HeartbeatRow → WithBot ℤ} {value : AgentRow → WithBot ℤ}
    (hcolumn : ∀ h row, column (upsert h row) = column h ⊔ value row) (h : Option HeartbeatRow) :
    column (rows.foldl upsert h) = highest (column h) (rows.map value) := by
  induction rows generalizing h with
  | nil => rfl
  | cons row rows ih =>
      rw [List.foldl_cons, ih, hcolumn]
      rfl

/-- The other columns hold what the last row says. -/
lemma latest_upserts :
    (rows.foldl upsert h).map HeartbeatRow.latest
      = (rows.getLast?.map fun row => row.values.latest).or (h.map HeartbeatRow.latest) := by
  induction rows generalizing h with
  | nil => rfl
  | cons row rows ih =>
      rw [List.foldl_cons, ih, latest_upsert]
      cases rows with
      | nil => rfl
      | cons row' rows => simp [List.getLast?_eq_some_getLast]

/-- A row is its overwritten columns and its maxima. -/
lemma eq_of_columns (hlatest : h.map HeartbeatRow.latest = h'.map HeartbeatRow.latest)
    (hseq : seqOf h = seqOf h') (hping : lastPingAtOf h = lastPingAtOf h')
    (hshell : shellAliveAtOf h = shellAliveAtOf h') : h = h' := by
  cases h with
  | none =>
      cases h' with
      | none => rfl
      | some row' => cases hlatest
  | some row =>
      cases h' with
      | none => cases hlatest
      | some row' =>
          cases row
          cases row'
          simp_all [HeartbeatRow.latest, seqOf, lastPingAtOf, shellAliveAtOf]

/-- What is watched includes the maxima. -/
lemma columns_of_watched (hwatched : h.map HeartbeatRow.watched = h'.map HeartbeatRow.watched) :
    seqOf h = seqOf h' ∧ lastPingAtOf h = lastPingAtOf h'
      ∧ shellAliveAtOf h = shellAliveAtOf h' := by
  cases h with
  | none =>
      cases h' with
      | none => exact ⟨rfl, rfl, rfl⟩
      | some row' => cases hwatched
  | some row =>
      cases h' with
      | none => cases hwatched
      | some row' =>
          have heq : row.watched = row'.watched := Option.some.inj hwatched
          exact ⟨congrArg Watched.seq heq, congrArg Watched.lastPingAt heq,
            congrArg Watched.shellAliveAt heq⟩

/-- No heartbeat of the user that the batcher left out goes beyond what was stored before and those
that it wrote. -/
structure NothingLost (stored : Option HeartbeatRow) (userID : String)
    (flushes : List (List AgentRow)) : Prop where
  seq : Outweighed (fun row => row.seq) (seqOf stored) AgentRow.userID userID flushes
  lastPingAt :
    Outweighed (fun row => row.lastPingAt) (lastPingAtOf stored) AgentRow.userID userID flushes
  shellAliveAt :
    Outweighed AgentRow.sighting (shellAliveAtOf stored) AgentRow.userID userID flushes

/-- A column that keeps a maximum. -/
lemma column_kept_iff {column : Option HeartbeatRow → WithBot ℤ} {value : AgentRow → WithBot ℤ}
    (hcolumn : ∀ h row, column (upsert h row) = column h ⊔ value row) :
    column ((kept AgentRow.userID userID flushes).foldl upsert h)
        = column ((written AgentRow.userID userID flushes).foldl upsert h)
      ↔ Outweighed value (column h) AgentRow.userID userID flushes := by
  rw [column_upserts hcolumn, column_upserts hcolumn, highest_kept_eq_iff]

/-- Where nothing is lost the rows agree in every column, and elsewhere they do not agree in those
that are watched. -/
lemma kept_upserts_iff :
    ((kept AgentRow.userID userID flushes).foldl upsert h).map HeartbeatRow.watched
        = ((written AgentRow.userID userID flushes).foldl upsert h).map HeartbeatRow.watched
      ↔ NothingLost h userID flushes := by
  constructor
  · intro hwatched
    obtain ⟨hseq, hping, hshell⟩ := columns_of_watched hwatched
    exact ⟨(column_kept_iff fun _ _ => seqOf_upsert).mp hseq,
      (column_kept_iff fun _ _ => lastPingAtOf_upsert).mp hping,
      (column_kept_iff fun _ _ => shellAliveAtOf_upsert).mp hshell⟩
  · intro hlost
    refine congrArg _ (eq_of_columns ?_ ?_ ?_ ?_)
    · rw [latest_upserts, latest_upserts, getLast?_kept]
    · exact (column_kept_iff fun _ _ => seqOf_upsert).mpr hlost.seq
    · exact (column_kept_iff fun _ _ => lastPingAtOf_upsert).mpr hlost.lastPingAt
    · exact (column_kept_iff fun _ _ => shellAliveAtOf_upsert).mpr hlost.shellAliveAt

/-! ## The runs of the worker -/

namespace Batcher

/-- What the worker holds and has written, in terms of the rows it has received. -/
structure Divided (t : Heartbeats) (b : Batcher) : Prop where
  enqueued : b.enqueued = b.flushes.flatten ++ b.received ++ b.agents.buf
  agentBatch : ∀ userID, b.agentBatch.get? userID = lastOf AgentRow.userID userID b.received
  db : ∀ userID, b.db userID = (kept AgentRow.userID userID b.flushes).foldl upsert (t userID)

variable {b b' : Batcher} {why : Wake} {worker : Worker} {order : List String}

lemma Divided.new (t : Heartbeats) : Divided t (new t) where
  enqueued := rfl
  agentBatch := fun _ => rfl
  db := fun _ => rfl

/-- The statements of a flush, at one user. -/
lemma flush_apply (hb : Divided t b) (horder : order.Perm b.agentBatch.keys) (userID : String) :
    b.flush order userID
      = (lastOf AgentRow.userID userID b.received).toList.foldl upsert (b.db userID) := by
  have hkey : ∀ k row, b.agentBatch.get? k = some row → row.userID = k := fun k row hget =>
    key_of_lastOf ((hb.agentBatch k).symm.trans hget)
  rw [flush, foldl_key (fun _ _ => rfl), Go.Map.filter_range hkey horder, hb.agentBatch]

lemma Divided.receive (hb : Divided t b) (h : b.receive why = some b') : Divided t b' := by
  obtain ⟨⟨row, agents⟩, hrecv, rfl⟩ := Option.map_eq_some_iff.mp h
  have hbuf : b.agents.buf = row :: agents.buf := Go.Chan.buf_recv hrecv
  refine ⟨?_, fun userID => ?_, hb.db⟩
  · simp only [hb.enqueued, hbuf, List.append_assoc, List.singleton_append]
  · show Go.Map.get? (b.agentBatch.insert row.userID row) userID = _
    rw [Go.Map.get?_insert, lastOf_concat, hb.agentBatch]
    simp only [eq_comm]

lemma Divided.flushed (hb : Divided t b) (horder : order.Perm b.agentBatch.keys) :
    Divided t (b.flushed order worker) := by
  refine ⟨?_, fun _ => rfl, fun userID => ?_⟩
  · simp only [Batcher.flushed, hb.enqueued, List.flatten_concat, List.append_nil]
  · show b.flush order userID = _
    rw [flush_apply hb horder, hb.db]
    simp only [Batcher.flushed, kept_concat, List.foldl_append]

lemma Divided.step {a : Action} (hb : Divided t b) (h : step a b = some b') : Divided t b' := by
  cases a with
  | enqueueAgent row =>
      simp only [Batcher.step] at h
      split at h
      · next agents hsend =>
        cases h
        refine ⟨?_, hb.agentBatch, hb.db⟩
        simp only [hb.enqueued, Go.Chan.buf_send hsend, List.append_assoc]
      · cases h
        exact hb
  | wake why =>
      obtain ⟨-, h⟩ := Option.ite_none_right_eq_some.mp h
      cases why with
      | agent => exact hb.receive h
      | tick =>
          cases h
          exact ⟨hb.enqueued, hb.agentBatch, hb.db⟩
      | done =>
          cases h
          exact ⟨hb.enqueued, hb.agentBatch, hb.db⟩
  | drain =>
      simp only [Batcher.step] at h
      split at h
      · exact hb.receive h
      · cases h
  | drained order =>
      obtain ⟨⟨-, horder⟩, h⟩ := Option.ite_none_right_eq_some.mp h
      split at h
      · split_ifs at h
        · cases h
          exact hb.flushed horder
        · cases h
          exact ⟨hb.enqueued, hb.agentBatch, hb.db⟩
      · split_ifs at h
        · cases h
          exact hb.flushed horder
        · cases h
          exact ⟨hb.enqueued, hb.agentBatch, hb.db⟩
      · cases h
        exact hb.flushed horder
      · cases h

lemma Reachable.divided (h : Reachable t b) : Divided t b :=
  Go.Reach.invariant (Divided.new t) (fun _ _ _ hb hstep => hb.step hstep) h

/-- Where everything is flushed, the rows enqueued are those of the flushes. -/
lemma Divided.enqueued_eq (hb : Divided t b) (hflushed : b.Flushed) :
    b.enqueued = b.flushes.flatten := by
  have hbuf : b.agents.buf = [] := List.length_eq_zero_iff.mp hflushed.1
  have hreceived : b.received = [] := by
    refine List.eq_nil_iff_forall_not_mem.mpr fun row hrow => ?_
    have hlast : (lastOf AgentRow.userID row.userID b.received).isSome := lastOf_isSome hrow
    rw [← hb.agentBatch] at hlast
    have hmem : row.userID ∈ b.agentBatch.keys := AList.mem_keys.mpr (AList.lookup_isSome.mp hlast)
    rw [hflushed.2] at hmem
    exact List.not_mem_nil hmem
  rw [hb.enqueued, hbuf, hreceived, List.append_nil, List.append_nil]

/-- The flushes are a way to divide the rows that loses nothing if and only if the user's row is what
the rows one by one make of it. -/
theorem batching_preserves_iff {t : Heartbeats} {b : Batcher} (h : Reachable t b)
    (hflushed : b.Flushed) (userID : String) :
    (b.db userID).map HeartbeatRow.watched
        = (b.enqueued.foldl agentHeartbeatQuery t userID).map HeartbeatRow.watched
      ↔ NothingLost (t userID) userID b.flushes := by
  have hb := h.divided
  rw [hb.db, hb.enqueued_eq hflushed, foldl_key fun _ _ => rfl]
  exact kept_upserts_iff

/-- A heartbeat that caught the shell, and the next one, 10 s later, that did not. -/
def shellSeen : AgentRow where
  userID := "u"
  agentID := "a"
  agentVersion := "1.0.0"
  activeWindow := "labyrithm"
  foregroundDwell := none
  ports := "[]"
  internetReachable := false
  processMatches := none
  lanIP := "10.0.0.7"
  shellAlive := true
  osInfo := "linux"
  ipAddress := "10.0.0.7"
  bootID := "b"
  seq := 1
  signalHash := "h"
  lastPingAt := 100000000

def shellMissed : AgentRow :=
  { shellSeen with shellAlive := false, seq := 2, lastPingAt := 110000000 }

/-- Both are received before the ticker wakes the worker. -/
def oneFlush : Batcher :=
  (Go.run step [.enqueueAgent shellSeen, .enqueueAgent shellMissed, .wake .agent, .drain,
    .drained ["u"], .wake .tick, .drained ["u"]] (new fun _ => none)).getD (new fun _ => none)

/-- The ticker wakes the worker in between. -/
def twoFlushes : Batcher :=
  (Go.run step [.enqueueAgent shellSeen, .wake .agent, .drained ["u"], .wake .tick, .drained ["u"],
    .enqueueAgent shellMissed, .wake .agent, .drained ["u"], .wake .tick, .drained ["u"]]
    (new fun _ => none)).getD (new fun _ => none)

theorem batching_preserves_sample : twoFlushes.Flushed
    ∧ ((twoFlushes.db "u").map HeartbeatRow.watched
        = (twoFlushes.enqueued.foldl agentHeartbeatQuery (fun _ => none) "u").map
            HeartbeatRow.watched
      ↔ NothingLost none "u" twoFlushes.flushes) := by
  have hflushed : twoFlushes.Flushed := by decide +kernel
  exact ⟨hflushed, batching_preserves_iff (Go.Reach.run_getD _) hflushed "u"⟩

/-- The sighting of the shell is not in the table. -/
theorem sighting_lost : ¬ ∀ (t : Heartbeats) (b : Batcher), Reachable t b → b.Flushed →
    ∀ userID, (b.db userID).map HeartbeatRow.watched
      = (b.enqueued.foldl agentHeartbeatQuery t userID).map HeartbeatRow.watched := by
  intro hall
  have heq := hall _ oneFlush (Go.Reach.run_getD _) (by decide +kernel) "u"
  exact absurd heq (by decide +kernel)

end Batcher

end Telemetry

end Labyrithm
