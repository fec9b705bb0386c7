import Mathlib.Data.List.DropRight
import Mathlib.Data.List.Nodup
import Labyrithm.Agent.Scheduler

/-!
# The offline buffer

A heartbeat that does not reach the server is kept by `buffer_push` of
`competitor-desktop/src-tauri/src/agent/state.rs`, and `flush_buffer` of `scheduler.rs` sends all that is
kept in one request.  It takes the buffer empty, waits for the answer without the lock, and then either
clears the buffer or puts the batch back in front of what was pushed meanwhile.

* `Flushes` — the buffer with the batch that is under way and the history of both.
* `Flushes.Accounted` — what holds of every run, whatever is pushed at whatever time.
* `Flushes.Newest` — what the buffer is exactly, where nothing is pushed before a batch that is settled.
* `sends_reach` — the scheduler's own runs are among them: the thread that flushes is the one that pushes.
* `restart_keeps` — the file that the next process starts from.

**`flush_keeps`** — the buffer is within its capacity, holds the newest of what is unsent after a flush
that failed, and neither repeats a heartbeat nor has one that was acknowledged; the server takes every
batch.
-/

namespace Labyrithm

namespace Agent

/-! ## The end of a list -/

section Last

variable {α : Type} {l l' : List α} {m n : ℕ}

lemma rtake_suffix : l.rtake n <:+ l := List.drop_suffix _ _

lemma length_rtake : (l.rtake n).length = min n l.length := by
  rw [List.rtake, List.length_drop]
  omega

lemma rtake_of_length_le (h : l.length ≤ n) : l.rtake n = l := by
  rw [List.rtake, Nat.sub_eq_zero_of_le h, List.drop_zero]

lemma rtake_rtake : (l.rtake m).rtake n = l.rtake (min m n) := by
  rw [List.rtake, length_rtake, List.rtake, List.rtake, List.drop_drop]
  congr 1
  omega

lemma rtake_append : (l ++ l').rtake n = l.rtake (n - l'.length) ++ l'.rtake n := by
  rw [List.rtake, List.drop_append, List.length_append, List.rtake, List.rtake]
  have hright : l.length + l'.length - n - l.length = l'.length - n := by omega
  rw [hright]
  congr 1
  obtain hle | hlt := le_or_gt l'.length n
  · congr 1
    omega
  · rw [List.drop_of_length_le (by omega), List.drop_of_length_le (by omega)]

/-- What is too old for the whole is too old for its part. -/
lemma rtake_append_rtake : (l.rtake n ++ l'.rtake n).rtake n = (l ++ l').rtake n := by
  rw [rtake_append, rtake_append, rtake_rtake, rtake_rtake, length_rtake, min_self]
  congr 2
  omega

lemma rtake_concat_rtake {a : α} : (l.rtake n ++ [a]).rtake n = (l ++ [a]).rtake n := by
  rw [rtake_append, rtake_append, rtake_rtake, Nat.min_eq_right (Nat.sub_le _ _)]

end Last

/-! ## The buffer -/

/-- `BUFFER_CAPACITY`. -/
def bufferCapacity : ℕ := 240

/-- The fields of `AgentState` that the buffer is kept in, with the file `buffer.json`. -/
structure HeartbeatBuffer where
  buffer : List Heartbeat
  persistBuffer : Bool
  saved : Option (List Heartbeat)
  deriving DecidableEq, Repr

/-- `load_bounded_buffer`, of what the file has. -/
def loadBoundedBuffer : List Heartbeat → List Heartbeat
  | [] => []
  | hb :: buffer => if (hb :: buffer).length > bufferCapacity then loadBoundedBuffer buffer else hb :: buffer

namespace HeartbeatBuffer

/-- `AgentState::new`. -/
def new (saved : Option (List Heartbeat)) : HeartbeatBuffer where
  buffer := loadBoundedBuffer (saved.getD [])
  persistBuffer := true
  saved := saved

/-- `persist`; the file stays as it is where it cannot be written. -/
def persist (buffer : List Heartbeat) (written : Bool) (saved : Option (List Heartbeat)) :
    Option (List Heartbeat) :=
  if written then (if buffer.isEmpty then none else some buffer) else saved

/-- The buffer is changed, and the file with it. -/
def store (b : HeartbeatBuffer) (buffer : List Heartbeat) (written : Bool) : HeartbeatBuffer :=
  { b with
    buffer := buffer
    saved := if b.persistBuffer then persist buffer written b.saved else b.saved }

/-- `buffer_push`. -/
def bufferPush (b : HeartbeatBuffer) (hb : Heartbeat) (written : Bool) : HeartbeatBuffer :=
  let buffer := if b.buffer.length ≥ bufferCapacity then b.buffer.drop 1 else b.buffer
  b.store (buffer ++ [hb]) written

/-- `buffer_take`, which leaves the file as it is. -/
def bufferTake (b : HeartbeatBuffer) : List Heartbeat × HeartbeatBuffer :=
  (b.buffer, { b with buffer := [] })

/-- `buffer_clear`. -/
def bufferClear (b : HeartbeatBuffer) (written : Bool) : HeartbeatBuffer := b.store [] written

/-- `buffer_restore`. -/
def bufferRestore (b : HeartbeatBuffer) (items : List Heartbeat) (written : Bool) : HeartbeatBuffer :=
  let total := items.length + b.buffer.length
  let items := if total > bufferCapacity then items.drop (min (total - bufferCapacity) items.length)
    else items
  b.store (items.reverse.foldl (fun buffer item => item :: buffer) b.buffer) written

/-- `flush_buffer`, from the answer on. -/
def settle (b : HeartbeatBuffer) (pending : List Heartbeat) (written : Bool) :
    Except SendError Unit → HeartbeatBuffer
  | .ok () => b.bufferClear written
  | .error .rejected => b.bufferClear written
  | .error _ => b.bufferRestore pending written

/-- `flush_buffer`, with the answer that it gets. -/
def flushBuffer (b : HeartbeatBuffer) (result : Except SendError Unit) (written : Bool) :
    HeartbeatBuffer :=
  let (pending, b) := b.bufferTake
  if pending.isEmpty then b else b.settle pending written result

/-- What `send` does to the buffer: `going` is that the agent neither stops nor signs out. -/
def send (b : HeartbeatBuffer) (hb : Heartbeat) (result : Except SendError Unit) (going : Bool)
    (flushed : Except SendError Unit) (written : Bool) : HeartbeatBuffer :=
  match result with
  | .ok () => if going then b.flushBuffer flushed written else b
  | .error .unreachable => b.bufferPush hb written
  | .error _ => b

end HeartbeatBuffer

/-! ## The server -/

/-- `MaxBufferedHeartbeats`. -/
def maxBufferedHeartbeats : ℕ := 300

inductive EventsResponse
  | tooMany
  | accepted (count : ℕ)
  deriving DecidableEq, Repr

def EventsResponse.status : EventsResponse → ℕ
  | tooMany => 413
  | accepted _ => 202

/-- `agentEvents`, for a payload that binds; `appends` is which of the events can be written, `now` when
they are. -/
def agentEvents (appends : Heartbeat → Bool) (now : Heartbeat → ℤ) (s : Server)
    (heartbeats : List Heartbeat) : Server × EventsResponse :=
  if heartbeats.length > maxBufferedHeartbeats then (s, .tooMany)
  else
    let stored := (heartbeats.map fun hb => { hb with buffered := true }).filter appends
    (stored.foldl (fun s hb => s.replay hb (now hb)) s, .accepted stored.length)

/-! ## Runs -/

/-- The buffer, the batch that is under way and what was pushed since it was taken, with the history of
both: what was pushed, what of it is in no batch that was settled, what was acknowledged and which batches
were sent. -/
structure Flushes where
  agent : HeartbeatBuffer
  taken : Option (List Heartbeat)
  since : List Heartbeat
  pushed : List Heartbeat
  unsent : List Heartbeat
  acknowledged : List Heartbeat
  batches : List (List Heartbeat)
  deriving DecidableEq, Repr

inductive BufferAction
  | push (hb : Heartbeat) (written : Bool)
  | take
  | answer (result : Except SendError Unit) (written : Bool)

namespace Flushes

/-- A new process, with the heartbeats that were saved. -/
def start (saved : Option (List Heartbeat)) : Flushes where
  agent := .new saved
  taken := none
  since := []
  pushed := saved.getD []
  unsent := saved.getD []
  acknowledged := []
  batches := []

def push (s : Flushes) (hb : Heartbeat) (written : Bool) : Flushes :=
  { s with
    agent := s.agent.bufferPush hb written
    since := s.since ++ [hb]
    pushed := s.pushed ++ [hb]
    unsent := s.unsent ++ [hb] }

/-- `flush_buffer` up to the request; there is none for an empty batch. -/
def take (s : Flushes) : Flushes :=
  let (pending, agent) := s.agent.bufferTake
  if pending.isEmpty then { s with agent := agent }
  else { s with agent := agent, taken := some pending, since := [], batches := s.batches ++ [pending] }

/-- `flush_buffer` from the answer on. -/
def answer (s : Flushes) (pending : List Heartbeat) (written : Bool) (result : Except SendError Unit) :
    Flushes :=
  let s := { s with agent := s.agent.settle pending written result, taken := none }
  match result with
  | .ok () => { s with unsent := s.since, acknowledged := s.acknowledged ++ pending }
  | .error .rejected => { s with unsent := s.since }
  | .error _ => s

/-- One step; one batch is under way at a time. -/
def step : BufferAction → Flushes → Option Flushes
  | .push hb written, s => some (s.push hb written)
  | .take, s => if s.taken = none then some s.take else none
  | .answer result written, s => s.taken.map fun pending => s.answer pending written result

/-- The answers after which the batch is put back. -/
def Failed (result : Except SendError Unit) : Prop :=
  result = .error .revoked ∨ result = .error .unreachable

instance (result : Except SendError Unit) : Decidable (Failed result) :=
  inferInstanceAs (Decidable (_ ∨ _))

/-- Something may have been pushed since the batch was taken if it is put back. -/
def Alone : BufferAction → Flushes → Prop
  | .answer result _, s => Failed result ∨ s.since = []
  | _, _ => True

instance : (a : BufferAction) → (s : Flushes) → Decidable (Alone a s)
  | .push .., _ => .isTrue trivial
  | .take, _ => .isTrue trivial
  | .answer .., _ => inferInstanceAs (Decidable (_ ∨ _))

end Flushes

/-! ## What the operations leave -/

namespace HeartbeatBuffer

variable {b : HeartbeatBuffer} {pending : List Heartbeat} {written : Bool}

@[simp] lemma store_buffer (buffer : List Heartbeat) : (b.store buffer written).buffer = buffer := rfl

@[simp] lemma bufferClear_buffer : (b.bufferClear written).buffer = [] := rfl

lemma loadBoundedBuffer_eq (l : List Heartbeat) : loadBoundedBuffer l = l.rtake bufferCapacity := by
  induction l with
  | nil => rfl
  | cons hb l ih =>
      rw [loadBoundedBuffer]
      split_ifs with hlong
      · have hlen : bufferCapacity ≤ l.length := Nat.lt_succ_iff.mp hlong
        rw [ih, ← List.singleton_append, rtake_append, Nat.sub_eq_zero_of_le hlen, List.rtake_zero,
          List.nil_append]
      · exact (rtake_of_length_le (Nat.le_of_not_lt hlong)).symm

/-- Pushing drops the oldest. -/
lemma bufferPush_buffer (hb : Heartbeat) (hlen : b.buffer.length ≤ bufferCapacity) :
    (b.bufferPush hb written).buffer = (b.buffer ++ [hb]).rtake bufferCapacity := by
  have hdrop : (if b.buffer.length ≥ bufferCapacity then b.buffer.drop 1 else b.buffer)
      = b.buffer.drop (b.buffer.length + 1 - bufferCapacity) := by
    split_ifs with hfull
    · have hone : b.buffer.length + 1 - bufferCapacity = 1 := by omega
      rw [hone]
    · have hzero : b.buffer.length + 1 - bufferCapacity = 0 := by omega
      rw [hzero, List.drop_zero]
  have hle : b.buffer.length + 1 - bufferCapacity ≤ b.buffer.length := by
    rw [bufferCapacity]
    omega
  rw [bufferPush, store_buffer, hdrop, List.rtake, List.length_append, List.length_singleton,
    List.drop_append_of_le_length hle]

/-- Restoring drops the oldest as well, which are those of the batch. -/
lemma bufferRestore_buffer (hlen : b.buffer.length ≤ bufferCapacity) :
    (b.bufferRestore pending written).buffer = (pending ++ b.buffer).rtake bufferCapacity := by
  have hfold (l l' : List Heartbeat) : l.reverse.foldl (fun buffer item => item :: buffer) l' = l ++ l' := by
    rw [List.foldl_reverse]
    induction l with
    | nil => rfl
    | cons a l ih => rw [List.foldr_cons, ih, List.cons_append]
  have hdrop : (if pending.length + b.buffer.length > bufferCapacity then
        pending.drop (min (pending.length + b.buffer.length - bufferCapacity) pending.length) else pending)
      = pending.drop (pending.length + b.buffer.length - bufferCapacity) := by
    split_ifs with hlong
    · rw [Nat.min_eq_left (by omega)]
    · rw [Nat.sub_eq_zero_of_le (by omega), List.drop_zero]
  rw [bufferRestore, store_buffer, hfold, hdrop, List.rtake, List.length_append,
    List.drop_append_of_le_length (by omega)]

end HeartbeatBuffer

/-! ## Every run -/

/-- Nothing is kept beyond the capacity, no batch is longer, and what is acknowledged, under way and kept
was pushed, in this order and each of it for itself. -/
structure Flushes.Accounted (s : Flushes) : Prop where
  length : s.agent.buffer.length ≤ bufferCapacity
  taken : ∀ pending ∈ s.taken, pending.length ≤ bufferCapacity
  batches : ∀ batch ∈ s.batches, batch.length ≤ bufferCapacity
  once : (s.acknowledged ++ (s.taken.getD [] ++ s.agent.buffer)).Sublist s.pushed

section Accounted

open Flushes

variable {s s' : Flushes} {saved : Option (List Heartbeat)} {pending : List Heartbeat} {written : Bool}

lemma length_rtake_le {α : Type} {l : List α} {n : ℕ} : (l.rtake n).length ≤ n := by
  rw [length_rtake]
  exact Nat.min_le_left _ _

lemma Flushes.Accounted.start : (Flushes.start saved).Accounted where
  length := by
    change (loadBoundedBuffer _).length ≤ _
    rw [HeartbeatBuffer.loadBoundedBuffer_eq]
    exact length_rtake_le
  taken pending h := by simp [Flushes.start] at h
  batches batch h := by simp [Flushes.start] at h
  once := by
    change (loadBoundedBuffer _).Sublist _
    rw [HeartbeatBuffer.loadBoundedBuffer_eq]
    exact rtake_suffix.sublist

lemma Flushes.Accounted.push (h : s.Accounted) (hb : Heartbeat) : (s.push hb written).Accounted where
  length := by
    change (s.agent.bufferPush hb written).buffer.length ≤ _
    rw [HeartbeatBuffer.bufferPush_buffer hb h.length]
    exact length_rtake_le
  taken := h.taken
  batches := h.batches
  once := by
    change (s.acknowledged ++ (s.taken.getD [] ++ (s.agent.bufferPush hb written).buffer)).Sublist
      (s.pushed ++ [hb])
    rw [HeartbeatBuffer.bufferPush_buffer hb h.length]
    calc (s.acknowledged ++ (s.taken.getD [] ++ (s.agent.buffer ++ [hb]).rtake bufferCapacity)).Sublist
          (s.acknowledged ++ (s.taken.getD [] ++ (s.agent.buffer ++ [hb]))) :=
          (rtake_suffix.sublist.append_left _).append_left _
      _ = s.acknowledged ++ (s.taken.getD [] ++ s.agent.buffer) ++ [hb] := by simp
      List.Sublist _ (s.pushed ++ [hb]) := h.once.append_right _

lemma Flushes.Accounted.take (h : s.Accounted) (hidle : s.taken = none) : s.take.Accounted := by
  have honce := h.once
  rw [hidle] at honce
  rw [Flushes.take]
  dsimp only [HeartbeatBuffer.bufferTake]
  split_ifs with hempty
  · rw [List.isEmpty_iff] at hempty
    refine ⟨Nat.zero_le _, h.taken, h.batches, ?_⟩
    rw [hempty] at honce
    simpa only [hidle] using honce
  · refine ⟨Nat.zero_le _, ?_, ?_, ?_⟩
    · intro pending hpending
      obtain rfl := Option.some.inj hpending
      exact h.length
    · intro batch hbatch
      obtain hold | hnew := List.mem_append.mp hbatch
      · exact h.batches batch hold
      · rw [List.mem_singleton.mp hnew]
        exact h.length
    · simpa using honce

/-- A batch that is put back. -/
lemma Flushes.Accounted.restore (h : s.Accounted) (htaken : s.taken = some pending) :
    Flushes.Accounted { s with agent := s.agent.bufferRestore pending written, taken := none } where
  length := by
    change (s.agent.bufferRestore pending written).buffer.length ≤ _
    rw [HeartbeatBuffer.bufferRestore_buffer h.length]
    exact length_rtake_le
  taken pending h := by simp at h
  batches := h.batches
  once := by
    have honce := h.once
    rw [htaken] at honce
    refine List.Sublist.trans ?_ honce
    change (s.acknowledged ++ (s.agent.bufferRestore pending written).buffer).Sublist _
    rw [HeartbeatBuffer.bufferRestore_buffer h.length]
    exact rtake_suffix.sublist.append_left _

lemma Flushes.Accounted.answer (h : s.Accounted) (htaken : s.taken = some pending)
    (result : Except SendError Unit) : (s.answer pending written result).Accounted := by
  have honce := h.once
  rw [htaken, Option.getD_some] at honce
  cases result with
  | ok _ =>
      refine ⟨Nat.zero_le _, fun _ h => by simp [Flushes.answer] at h, h.batches, ?_⟩
      refine List.Sublist.trans ?_ honce
      simp [Flushes.answer, HeartbeatBuffer.settle]
  | error err =>
      cases err with
      | rejected =>
          refine ⟨Nat.zero_le _, fun _ h => by simp [Flushes.answer] at h, h.batches, ?_⟩
          refine List.Sublist.trans ?_ honce
          simp [Flushes.answer, HeartbeatBuffer.settle]
      | revoked => exact h.restore htaken
      | unreachable => exact h.restore htaken

lemma Flushes.Accounted.step (h : s.Accounted) (a : BufferAction) (hs : Flushes.step a s = some s') :
    s'.Accounted := by
  cases a with
  | push hb written =>
      obtain rfl := Option.some.inj hs
      exact h.push hb
  | take =>
      obtain ⟨hidle, hs⟩ := Option.ite_none_right_eq_some.mp hs
      obtain rfl := Option.some.inj hs
      exact h.take hidle
  | answer result written =>
      obtain ⟨pending, htaken, rfl⟩ := Option.map_eq_some_iff.mp hs
      exact h.answer htaken result

/-- Whatever is pushed while a batch is under way, and whatever becomes of the batch. -/
theorem accounted (h : Go.Reach step (start saved) s) : s.Accounted :=
  h.invariant Flushes.Accounted.start fun a _ _ hI hs => hI.step a hs

end Accounted

/-! ## What is kept -/

/-- The buffer has the newest of what is unsent, a batch the newest of what was when it was taken, and
what is acknowledged was pushed before all of that. -/
structure Flushes.Newest (s : Flushes) : Prop where
  idle : s.taken = none → s.agent.buffer = s.unsent.rtake bufferCapacity
  underWay : ∀ pending ∈ s.taken, ∃ before, s.unsent = before ++ s.since ∧
    pending = before.rtake bufferCapacity ∧ s.agent.buffer = s.since.rtake bufferCapacity
  settled : ∃ settled, s.pushed = settled ++ s.unsent ∧ s.acknowledged.Sublist settled

section Newest

open Flushes

variable {s s' : Flushes} {saved : Option (List Heartbeat)} {pending : List Heartbeat} {written : Bool}

lemma Flushes.Newest.start : (Flushes.start saved).Newest where
  idle _ := HeartbeatBuffer.loadBoundedBuffer_eq _
  underWay pending h := by simp [Flushes.start] at h
  settled := ⟨[], rfl, .refl _⟩

lemma Flushes.Newest.push (h : s.Newest) (hs : s.Accounted) (hb : Heartbeat) :
    (s.push hb written).Newest where
  idle hidle := by
    change (s.agent.bufferPush hb written).buffer = (s.unsent ++ [hb]).rtake bufferCapacity
    rw [HeartbeatBuffer.bufferPush_buffer hb hs.length, h.idle hidle, rtake_concat_rtake]
  underWay pending hpending := by
    obtain ⟨before, hunsent, hbatch, hbuffer⟩ := h.underWay pending hpending
    refine ⟨before, ?_, hbatch, ?_⟩
    · change s.unsent ++ [hb] = before ++ (s.since ++ [hb])
      rw [hunsent, List.append_assoc]
    · change (s.agent.bufferPush hb written).buffer = (s.since ++ [hb]).rtake bufferCapacity
      rw [HeartbeatBuffer.bufferPush_buffer hb hs.length, hbuffer, rtake_concat_rtake]
  settled := by
    obtain ⟨settled, hpushed, hacknowledged⟩ := h.settled
    refine ⟨settled, ?_, hacknowledged⟩
    change s.pushed ++ [hb] = settled ++ (s.unsent ++ [hb])
    rw [hpushed, List.append_assoc]

lemma Flushes.Newest.take (h : s.Newest) (hidle : s.taken = none) : s.take.Newest := by
  have hbuffer := h.idle hidle
  rw [Flushes.take]
  dsimp only [HeartbeatBuffer.bufferTake]
  split_ifs with hempty
  · rw [List.isEmpty_iff] at hempty
    refine ⟨fun _ => ?_, fun pending hpending => ?_, h.settled⟩
    · rw [← hbuffer, hempty]
    · simp [hidle] at hpending
  · refine ⟨fun hnone => absurd hnone (by simp), fun pending hpending => ?_, h.settled⟩
    obtain rfl := Option.some.inj hpending
    exact ⟨s.unsent, (List.append_nil _).symm, hbuffer, (List.rtake_nil _).symm⟩

/-- The batch goes back in front of what was pushed since. -/
lemma Flushes.Newest.restore (h : s.Newest) (hs : s.Accounted) (htaken : s.taken = some pending) :
    Flushes.Newest { s with agent := s.agent.bufferRestore pending written, taken := none } where
  idle _ := by
    obtain ⟨before, hunsent, hbatch, hbuffer⟩ := h.underWay pending htaken
    change (s.agent.bufferRestore pending written).buffer = s.unsent.rtake bufferCapacity
    rw [HeartbeatBuffer.bufferRestore_buffer hs.length, hunsent, hbatch, hbuffer, rtake_append_rtake]
  underWay pending h := by simp at h
  settled := h.settled

/-- A batch that is settled, with nothing pushed since, was all that was unsent. -/
lemma Flushes.Newest.settle (h : s.Newest) (htaken : s.taken = some pending) (hsince : s.since = [])
    {acknowledged : List Heartbeat} (hacknowledged : acknowledged.Sublist (s.acknowledged ++ pending)) :
    Flushes.Newest
      { s with
        agent := s.agent.bufferClear written
        taken := none
        unsent := s.since
        acknowledged := acknowledged } where
  idle _ := by
    change [] = s.since.rtake bufferCapacity
    rw [hsince, List.rtake_nil]
  underWay pending h := by simp at h
  settled := by
    obtain ⟨before, hunsent, hbatch, -⟩ := h.underWay pending htaken
    obtain ⟨settled, hpushed, hold⟩ := h.settled
    refine ⟨settled ++ before, ?_, hacknowledged.trans (hold.append ?_)⟩
    · change s.pushed = _
      rw [hpushed, hunsent, List.append_assoc]
    · rw [hbatch]
      exact rtake_suffix.sublist

lemma Flushes.Newest.answer (h : s.Newest) (hs : s.Accounted) (htaken : s.taken = some pending)
    {result : Except SendError Unit} (halone : Failed result ∨ s.since = []) :
    (s.answer pending written result).Newest := by
  cases result with
  | ok _ =>
      have hsince : s.since = [] := halone.resolve_left (by simp [Failed])
      exact h.settle htaken hsince (.refl _)
  | error err =>
      cases err with
      | rejected =>
          have hsince : s.since = [] := halone.resolve_left (by simp [Failed])
          exact h.settle htaken hsince (List.sublist_append_left _ _)
      | revoked => exact h.restore hs htaken
      | unreachable => exact h.restore hs htaken

lemma Flushes.Newest.step (h : s.Newest) (hI : s.Accounted) {a : BufferAction} (halone : Alone a s)
    (hs : Flushes.step a s = some s') : s'.Newest := by
  cases a with
  | push hb written =>
      obtain rfl := Option.some.inj hs
      exact h.push hI hb
  | take =>
      obtain ⟨hidle, hs⟩ := Option.ite_none_right_eq_some.mp hs
      obtain rfl := Option.some.inj hs
      exact h.take hidle
  | answer result written =>
      obtain ⟨pending, htaken, rfl⟩ := Option.map_eq_some_iff.mp hs
      exact h.answer hI htaken halone

/-- Where a batch that is settled had nothing pushed behind it. -/
theorem newest (h : Go.ReachIf step Alone (start saved) s) : s.Newest :=
  h.invariant_of (fun _ => accounted) Flushes.Newest.start fun _ _ _ hI hN halone hs =>
    hN.step hI halone hs

end Newest

/-! ## The scheduler -/

/-- A heartbeat that the scheduler sends, with what comes of it and of the batch behind it. -/
structure Sending where
  hb : Heartbeat
  result : Except SendError Unit
  going : Bool
  flushed : Except SendError Unit
  written : Bool

def HeartbeatBuffer.sendNext (b : HeartbeatBuffer) (x : Sending) : HeartbeatBuffer :=
  b.send x.hb x.result x.going x.flushed x.written

section Scheduler

open Flushes

variable {s : Flushes} {saved : Option (List Heartbeat)}

lemma flush_reach (h : Go.ReachIf step Alone (start saved) s) (hidle : s.taken = none)
    (result : Except SendError Unit) (written : Bool) :
    ∃ s', Go.ReachIf step Alone (start saved) s' ∧ s'.taken = none ∧
      s'.agent = s.agent.flushBuffer result written := by
  have htake : Go.ReachIf step Alone (start saved) s.take :=
    h.step BufferAction.take trivial (if_pos hidle)
  by_cases hempty : s.agent.buffer.isEmpty = true
  · refine ⟨s.take, htake, ?_, ?_⟩ <;>
      simp [Flushes.take, HeartbeatBuffer.bufferTake, HeartbeatBuffer.flushBuffer, hempty, hidle]
  · have htaken : s.take.taken = some s.agent.buffer := by
      simp [Flushes.take, HeartbeatBuffer.bufferTake, hempty]
    have hsince : s.take.since = [] := by
      simp [Flushes.take, HeartbeatBuffer.bufferTake, hempty]
    refine ⟨s.take.answer s.agent.buffer written result,
      htake.step (.answer result written) (.inr hsince) (by simp [Flushes.step, htaken]), ?_, ?_⟩
    · rcases result with err | _
      · cases err <;> rfl
      · rfl
    · have hagent : s.take.agent = { s.agent with buffer := [] } := by
        simp [Flushes.take, HeartbeatBuffer.bufferTake, hempty]
      have hsettle : (s.take.answer s.agent.buffer written result).agent
          = s.take.agent.settle s.agent.buffer written result := by
        rcases result with err | _
        · cases err <;> rfl
        · rfl
      rw [hsettle, hagent, HeartbeatBuffer.flushBuffer]
      simp [HeartbeatBuffer.bufferTake, hempty]

/-- One `send`. -/
lemma send_reach (h : Go.ReachIf step Alone (start saved) s) (hidle : s.taken = none) (x : Sending) :
    ∃ s', Go.ReachIf step Alone (start saved) s' ∧ s'.taken = none ∧ s'.agent = s.agent.sendNext x := by
  obtain ⟨hb, result, going, flushed, written⟩ := x
  cases result with
  | ok _ =>
      cases going with
      | true => exact flush_reach h hidle flushed written
      | false => exact ⟨s, h, hidle, rfl⟩
  | error err =>
      cases err with
      | unreachable => exact ⟨s.push hb written, h.step (.push hb written) trivial rfl, hidle, rfl⟩
      | revoked => exact ⟨s, h, hidle, rfl⟩
      | rejected => exact ⟨s, h, hidle, rfl⟩

/-- **What the scheduler does is one of the runs**: `send` pushes and flushes in the same thread. -/
theorem sends_reach (saved : Option (List Heartbeat)) (sends : List Sending) :
    ∃ s, Go.ReachIf step Alone (start saved) s ∧ s.taken = none ∧
      s.agent = sends.foldl HeartbeatBuffer.sendNext (.new saved) := by
  induction sends using List.reverseRecOn with
  | nil => exact ⟨start saved, .start, rfl, rfl⟩
  | append_singleton sends x ih =>
      obtain ⟨s, hs, hidle, hagent⟩ := ih
      rw [List.foldl_append, List.foldl_cons, List.foldl_nil, ← hagent]
      exact send_reach hs hidle x

end Scheduler

/-! ## The next process -/

/-- The file can be written. -/
def BufferAction.Written : BufferAction → Prop
  | .push _ written => written = true
  | .take => True
  | .answer _ written => written = true

/-- With no batch under way, the file has what the next process starts with. -/
structure Flushes.Saved (s : Flushes) : Prop where
  persists : s.agent.persistBuffer = true
  saved : s.taken = none → loadBoundedBuffer (s.agent.saved.getD []) = s.agent.buffer

section Restart

open Flushes

variable {s s' : Flushes} {saved : Option (List Heartbeat)}

lemma store_saved {b : HeartbeatBuffer} (hpersist : b.persistBuffer = true) (buffer : List Heartbeat) :
    (b.store buffer true).saved.getD [] = buffer := by
  cases buffer <;> simp [HeartbeatBuffer.store, HeartbeatBuffer.persist, hpersist]

lemma Flushes.Saved.of_store {b : HeartbeatBuffer} (hpersist : b.persistBuffer = true)
    {buffer : List Heartbeat} (h : s.agent = b.store buffer true) (hI : s.Accounted) : s.Saved := by
  have hlen := hI.length
  rw [h] at hlen
  refine ⟨by rw [h]; exact hpersist, fun _ => ?_⟩
  rw [h, store_saved hpersist, HeartbeatBuffer.loadBoundedBuffer_eq]
  exact rtake_of_length_le hlen

lemma Flushes.Saved.step (h : s.Saved) (hI : s.Accounted) {a : BufferAction} (hwritten : a.Written)
    (hs : Flushes.step a s = some s') : s'.Saved := by
  have hI' := hI.step a hs
  cases a with
  | push hb written =>
      obtain rfl := Option.some.inj hs
      obtain rfl := hwritten
      exact .of_store h.persists rfl hI'
  | take =>
      obtain ⟨hidle, hs⟩ := Option.ite_none_right_eq_some.mp hs
      obtain rfl := Option.some.inj hs
      have hbuffer := h.saved hidle
      refine ⟨?_, fun hnone => ?_⟩
      · rw [Flushes.take]
        dsimp only [HeartbeatBuffer.bufferTake]
        split_ifs <;> exact h.persists
      · by_cases hempty : s.agent.buffer.isEmpty = true
        · rw [List.isEmpty_iff] at hempty
          simp [Flushes.take, HeartbeatBuffer.bufferTake, hempty, hbuffer]
        · simp [Flushes.take, HeartbeatBuffer.bufferTake, hempty] at hnone
  | answer result written =>
      obtain ⟨pending, htaken, rfl⟩ := Option.map_eq_some_iff.mp hs
      obtain rfl := hwritten
      cases result with
      | ok _ => exact .of_store h.persists rfl hI'
      | error err => cases err <;> exact .of_store h.persists rfl hI'

/-- Where the file can be written and no batch is under way, the next process starts with the buffer. -/
theorem restart_keeps (h : Go.ReachIf step (fun a _ => a.Written) (start saved) s)
    (hidle : s.taken = none) : (HeartbeatBuffer.new s.agent.saved).buffer = s.agent.buffer := by
  have hinv : s.Saved :=
    h.invariant_of (fun _ => accounted) ⟨rfl, fun _ => rfl⟩ fun _ _ _ hI hP hwritten hs =>
      hP.step hI hwritten hs
  exact hinv.saved hidle

end Restart

/-! ## The offline buffer -/

/-- The batches that are sent are taken by the server. -/
lemma agentEvents_accepted {batch : List Heartbeat} (h : batch.length ≤ maxBufferedHeartbeats)
    (appends : Heartbeat → Bool) (now : Heartbeat → ℤ) (server : Server) :
    ∃ count, (agentEvents appends now server batch).2 = .accepted count := by
  rw [agentEvents, if_neg (Nat.not_lt.mpr h)]
  exact ⟨_, rfl⟩

/-- **The offline buffer**: never beyond its capacity, the newest of what is unsent after a flush that
failed, nothing acknowledged or twice in it, and no batch that the server does not take. -/
theorem flush_keeps (saved : Option (List Heartbeat)) (s : Flushes)
    (h : Go.ReachIf Flushes.step Flushes.Alone (Flushes.start saved) s) :
    s.agent.buffer.length ≤ bufferCapacity
      ∧ (∀ result written s', Flushes.Failed result → Flushes.step (.answer result written) s = some s' →
        s'.agent.buffer = s'.unsent.rtake bufferCapacity ∧ s'.unsent = s.unsent)
      ∧ (s.acknowledged ++ (s.taken.getD [] ++ s.agent.buffer)).Sublist s.pushed
      ∧ (s.pushed.Nodup → s.agent.buffer.Nodup ∧ ∀ hb ∈ s.acknowledged, hb ∉ s.agent.buffer)
      ∧ ∀ batch ∈ s.batches, batch.length ≤ maxBufferedHeartbeats ∧ ∀ appends now server, ∃ count,
        (agentEvents appends now server batch).2 = .accepted count := by
  have hI := accounted h.reach
  refine ⟨hI.length, ?_, hI.once, fun hnodup => ?_, fun batch hbatch => ?_⟩
  · intro result written s' hfailed hs
    have hN := (newest h).step hI (a := .answer result written) (.inl hfailed) hs
    obtain ⟨pending, -, rfl⟩ := Option.map_eq_some_iff.mp hs
    obtain rfl | rfl := hfailed
    · exact ⟨hN.idle rfl, rfl⟩
    · exact ⟨hN.idle rfl, rfl⟩
  · have honce := List.nodup_append'.mp (hI.once.nodup hnodup)
    obtain ⟨-, hkept, hdisjoint⟩ := honce
    exact ⟨(List.nodup_append'.mp hkept).2.1, fun hb hack hbuffer =>
      hdisjoint hack (List.mem_append_right _ hbuffer)⟩
  · have hlen : batch.length ≤ maxBufferedHeartbeats := (hI.batches batch hbatch).trans (by decide)
    exact ⟨hlen, fun appends now server => agentEvents_accepted hlen appends now server⟩

/-- A heartbeat of one boot. -/
def bufferedBeat (seq : ℤ) : Heartbeat := ⟨"b", seq, some 0, "1", 8080, "n", "h", false, true⟩

/-- Pushed while the batch before it is under way. -/
def flushSample : Flushes :=
  (Go.runIf Flushes.step Flushes.Alone
    [.push (bufferedBeat 1) true, .take, .push (bufferedBeat 2) true] (.start none)).getD (.start none)

theorem flush_keeps_sample :
    (flushSample.answer [bufferedBeat 1] true (.error .unreachable)).agent.buffer
      = [bufferedBeat 1, bufferedBeat 2] := by
  have hrestored := (flush_keeps none flushSample (Go.ReachIf.runIf_getD _)).2.1 (.error .unreachable) true
    (flushSample.answer [bufferedBeat 1] true (.error .unreachable)) (by decide) rfl
  exact hrestored.1.trans (by decide +kernel)

end Agent

end Labyrithm
