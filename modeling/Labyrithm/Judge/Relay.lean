import Labyrithm.Judge.Fanout
import Mathlib.Algebra.BigOperators.Group.Finset.Piecewise
import Mathlib.Algebra.Order.BigOperators.Group.Finset
import Mathlib.Algebra.Order.Ring.Nat
import Mathlib.Data.Fintype.Basic

/-!
# Results between servers

`Broadcast`, `startPublisher` and `StartListener` of `backend/internal/judge/broadcaster.go`: several
servers with subscribers of their own and one PostgreSQL.  A server gives a result to its own subscribers
and puts an envelope into its queue; its publisher gathers up to 32 envelopes and notifies in one
transaction; its listener leaves out the envelopes that came from itself and completes those that were cut
down to fit into a notification.

PostgreSQL delivers the notifications of a committed transaction to the connections that listen, in the
order of the commits, and of equal ones in a transaction only the first.  A call of `Broadcast` puts its
envelope into the queue after its `BroadcastLocal`; here it may do so earlier as well.

* `Outcome.strip`, `Outcome.hydrate` — what is cut out of a long result, and put in again.
* `Server.step`, `Cluster.step` — what one server does, and what it does to all.
* `Flow` — what is on its way, in the order in which it was queued.
* **`relayed_once`** — nothing is given to a stream twice, whatever server it comes from.

**`relayed_all`** — where no queue overflows, no notification fails and a server keeps listening, it has
given its streams every result of every server that is not on its way.
-/

namespace Labyrithm

namespace Relay

open Go

/-! ## Results -/

/-- `Result`. -/
structure Outcome where
  data : StatusResponse
  reviewStatus : Option ReviewStatus
  reviewReason : String
  reviewedAt : Option Time
  deriving DecidableEq, Repr

/-- `broadcastEnvelope`; the servers are told apart by `ι`. -/
structure Envelope (ι : Type) where
  sourceId : ι
  result : Outcome
  deriving DecidableEq, Repr

/-- A status without its tests and its compile error. -/
def bare (data : StatusResponse) : StatusResponse := { data with tests := [], compileError := none }

namespace Outcome

/-- `stripped`. -/
def strip (res : Outcome) : Outcome := { res with data := bare res.data, reviewReason := "" }

/-- "Hydrate tests if stripped": `fullRes` is what `GetSubmission` has found, if it has. -/
def hydrate (fullRes : Option Outcome) (res : Outcome) : Outcome :=
  if res.data.tests.length = 0 ∧ res.data.status.terminal then
    match fullRes with
    | some full => { res with
        data := { res.data with tests := full.data.tests, compileError := full.data.compileError }
        reviewReason := full.reviewReason }
    | none => res
  else res

/-- What a result is in an envelope; `size` is the length of the JSON. -/
def carried {ι : Type} (size : Envelope ι → ℕ) (i : ι) (res : Outcome) : Outcome :=
  if size ⟨i, res⟩ > 7500 then res.strip else res

@[simp] lemma strip_strip (res : Outcome) : res.strip.strip = res.strip := rfl

@[simp] lemma strip_hydrate (fullRes : Option Outcome) (res : Outcome) :
    (res.hydrate fullRes).strip = res.strip := by
  unfold hydrate
  split_ifs
  · cases fullRes <;> rfl
  · rfl

@[simp] lemma strip_carried {ι : Type} (size : Envelope ι → ℕ) (i : ι) (res : Outcome) :
    (carried size i res).strip = res.strip := by
  unfold carried
  split_ifs <;> rfl

/-- What is left of the data of a result is left of what it has become on its way. -/
lemma bare_of_strip {res res' : Outcome} (h : res.strip = res'.strip) : bare res.data = bare res'.data :=
  congrArg Outcome.data h

end Outcome

/-! ## Servers -/

/-- A server: the broadcaster with its subscribers; the calls of `Broadcast` that have not reached the
queue; the queue and the publisher's batch; the notifications of the listener, if it has a connection.
And, as history, what has been broadcast here, what went into the queue, and what the listener has given
to the subscribers for which envelope. -/
structure Server (ι : Type) where
  fanout : Broadcaster
  calls : List Outcome
  pending : Chan (Envelope ι)
  batch : List (Envelope ι)
  sending : Bool
  inbox : Option (List (Envelope ι))
  broadcasts : List Outcome
  queued : List (Envelope ι)
  dispatched : List (Envelope ι × Outcome)

/-- `NewBroadcaster`. -/
def Server.new (ι : Type) : Server ι where
  fanout := .new
  calls := []
  pending := .make 256
  batch := []
  sending := false
  inbox := none
  broadcasts := []
  queued := []
  dispatched := []

/-- What a server does on its own. -/
inductive LocalAction
  /-- a subscription, its end, a channel operation of a call, or a read -/
  | stream (a : Broadcaster.Action)
  | broadcast (res : Outcome) (order : List ℕ)
  /-- the call `k` reaches the queue -/
  | enqueue (k : ℕ)
  /-- the publisher takes an envelope -/
  | take
  /-- the publisher stops to gather -/
  | close
  | listen
  /-- the listener loses its connection -/
  | unlisten
  /-- the listener takes a notification; the row is what `GetSubmission` finds -/
  | receive (row : Option Outcome) (order : List ℕ)

section Servers

variable {ι : Type} [DecidableEq ι]

/-- `select { case b.pending <- payload: default: }`. -/
def Server.put (s : Server ι) (e : Envelope ι) : Server ι :=
  match s.pending.send e with
  | some ch => { s with pending := ch, queued := s.queued ++ [e] }
  | none => s

/-- `BroadcastLocal`, by the listener. -/
def Server.forward (s : Server ι) (e : Envelope ι) (rest : List (Envelope ι)) (res : Outcome)
    (b : Broadcaster) : Server ι :=
  { s with fanout := b, inbox := some rest, dispatched := s.dispatched ++ [(e, res)] }

def Server.step (size : Envelope ι → ℕ) (i : ι) : LocalAction → Server ι → Option (Server ι)
  | .stream a, s =>
      if a.starts.isEmpty then (Broadcaster.step a s.fanout).map fun b => { s with fanout := b } else none
  | .broadcast res order, s => (Broadcaster.step (.broadcast res.data order) s.fanout).map fun b =>
      { s with fanout := b, calls := s.calls ++ [res], broadcasts := s.broadcasts ++ [res] }
  | .enqueue k, s => s.calls[k]?.map fun res =>
      { s with calls := s.calls.eraseIdx k }.put ⟨i, res.carried size i⟩
  | .take, s =>
      if s.sending = false ∧ s.batch.length < 32 then
        s.pending.recv.map fun p => { s with pending := p.2, batch := s.batch ++ [p.1] }
      else none
  | .close, s =>
      if s.sending = false ∧ s.batch ≠ [] ∧ (s.batch.length = 32 ∨ s.pending.buf = []) then
        some { s with sending := true }
      else none
  | .listen, s => if s.inbox.isNone then some { s with inbox := some [] } else none
  | .unlisten, s => if s.inbox.isSome then some { s with inbox := none } else none
  | .receive row order, s =>
      match s.inbox with
      | some (e :: rest) =>
          if e.sourceId = i then some { s with inbox := some rest }
          else (Broadcaster.step (.broadcast (e.result.hydrate row).data order) s.fanout).map
            (s.forward e rest (e.result.hydrate row))
      | _ => none

/-- What the steps of a server are. -/
inductive Server.Steps (size : Envelope ι → ℕ) (i : ι) (s : Server ι) : LocalAction → Server ι → Prop
  | stream {a : Broadcaster.Action} {b : Broadcaster} (hstarts : a.starts = [])
      (hb : Broadcaster.step a s.fanout = some b) : Steps size i s (.stream a) { s with fanout := b }
  | broadcast {res : Outcome} {order : List ℕ} {b : Broadcaster}
      (hb : Broadcaster.step (.broadcast res.data order) s.fanout = some b) :
      Steps size i s (.broadcast res order)
        { s with fanout := b, calls := s.calls ++ [res], broadcasts := s.broadcasts ++ [res] }
  | enqueue {k : ℕ} {res : Outcome} (hk : s.calls[k]? = some res) :
      Steps size i s (.enqueue k) ({ s with calls := s.calls.eraseIdx k }.put ⟨i, res.carried size i⟩)
  | take {e : Envelope ι} {ch : Chan (Envelope ι)} (hrecv : s.pending.recv = some (e, ch)) :
      Steps size i s .take { s with pending := ch, batch := s.batch ++ [e] }
  | close : Steps size i s .close { s with sending := true }
  | listen (hinbox : s.inbox = none) : Steps size i s .listen { s with inbox := some [] }
  | unlisten : Steps size i s .unlisten { s with inbox := none }
  | skip {e : Envelope ι} {rest : List (Envelope ι)} {row : Option Outcome} {order : List ℕ}
      (hinbox : s.inbox = some (e :: rest)) (hown : e.sourceId = i) :
      Steps size i s (.receive row order) { s with inbox := some rest }
  | forward {e : Envelope ι} {rest : List (Envelope ι)} {row : Option Outcome} {order : List ℕ}
      {b : Broadcaster} (hinbox : s.inbox = some (e :: rest)) (hother : e.sourceId ≠ i)
      (hb : Broadcaster.step (.broadcast (e.result.hydrate row).data order) s.fanout = some b) :
      Steps size i s (.receive row order) (s.forward e rest (e.result.hydrate row) b)

lemma Server.steps_of_step {size : Envelope ι → ℕ} {i : ι} {s s' : Server ι} {a : LocalAction}
    (hstep : Server.step size i a s = some s') : Server.Steps size i s a s' := by
  cases a with
  | stream a =>
      simp only [Server.step] at hstep
      split_ifs at hstep with hstarts
      obtain ⟨b, hb, rfl⟩ := Option.map_eq_some_iff.mp hstep
      exact .stream (List.isEmpty_iff.mp hstarts) hb
  | broadcast res order =>
      obtain ⟨b, hb, rfl⟩ := Option.map_eq_some_iff.mp hstep
      exact .broadcast hb
  | enqueue k =>
      obtain ⟨res, hk, rfl⟩ := Option.map_eq_some_iff.mp hstep
      exact .enqueue hk
  | take =>
      simp only [Server.step] at hstep
      split_ifs at hstep
      obtain ⟨p, hrecv, rfl⟩ := Option.map_eq_some_iff.mp hstep
      exact .take hrecv
  | close =>
      simp only [Server.step] at hstep
      split_ifs at hstep
      obtain rfl := Option.some.inj hstep
      exact .close
  | listen =>
      simp only [Server.step] at hstep
      split_ifs at hstep with hinbox
      obtain rfl := Option.some.inj hstep
      exact .listen (Option.isNone_iff_eq_none.mp hinbox)
  | unlisten =>
      simp only [Server.step] at hstep
      split_ifs at hstep
      obtain rfl := Option.some.inj hstep
      exact .unlisten
  | receive row order =>
      cases hinbox : s.inbox with
      | none => simp [Server.step, hinbox] at hstep
      | some notes =>
          cases notes with
          | nil => simp [Server.step, hinbox] at hstep
          | cons e rest =>
              simp only [Server.step, hinbox] at hstep
              split_ifs at hstep with hown
              · obtain rfl := Option.some.inj hstep
                exact .skip hinbox hown
              · obtain ⟨b, hb, rfl⟩ := Option.map_eq_some_iff.mp hstep
                exact .forward hinbox hown hb

end Servers

/-! ## All servers -/

/-- The notifications of a transaction: of equal ones the first. -/
def notifications {ι : Type} [DecidableEq ι] (batch : List (Envelope ι)) : List (Envelope ι) :=
  batch.reverse.dedup.reverse

abbrev Cluster (ι : Type) := ι → Server ι

inductive Action (ι : Type)
  | act (i : ι) (a : LocalAction)
  /-- `SendBatch` of the server `i` ends; its transaction has been committed or not -/
  | sent (i : ι) (committed : Bool)

namespace Cluster

variable {ι : Type} [DecidableEq ι]

/-- No server has done anything. -/
def start (ι : Type) : Cluster ι := fun _ => .new ι

/-- The batch has been sent. -/
def clear (s : Server ι) : Server ι := { s with batch := [], sending := false }

/-- The notifications reach a server, if it listens. -/
def notify (notes : List (Envelope ι)) (s : Server ι) : Server ι :=
  { s with inbox := s.inbox.map (· ++ notes) }

def step (size : Envelope ι → ℕ) : Action ι → Cluster ι → Option (Cluster ι)
  | .act i a, c => (Server.step size i a (c i)).map (Function.update c i)
  | .sent i committed, c =>
      if (c i).sending then
        let notes := if committed then notifications (c i).batch else []
        some fun j => notify notes (if j = i then clear (c j) else c j)
      else none

end Cluster

/-! ## One server -/

section Local

variable {ι : Type} {size : Envelope ι → ℕ} {i : ι} {s s' : Server ι}

/-- What a server has queued and not sent. -/
def Server.outgoing (s : Server ι) : List (Envelope ι) := s.batch ++ s.pending.buf

/-- What a server has been notified of and handled, or still has to handle. -/
def Server.incoming (s : Server ι) : List (Envelope ι) := s.dispatched.map Prod.fst ++ s.inbox.getD []

/-- The results for which `BroadcastLocal` has been called. -/
def Server.started (s : Server ι) : List StatusResponse :=
  s.broadcasts.map Outcome.data ++ s.dispatched.map fun e => e.2.data

/-- What holds of a server by itself. -/
structure Server.Sound (size : Envelope ι → ℕ) (i : ι) (s : Server ι) : Prop where
  dispatched : ∀ e ∈ s.dispatched, e.1.sourceId ≠ i ∧ e.2.strip = e.1.result.strip
  queued : ∀ e ∈ s.queued, e.sourceId = i
  carried : (s.queued.map Envelope.result ++ s.calls.map (Outcome.carried size i)).Subperm
    (s.broadcasts.map (Outcome.carried size i))
  once : Broadcaster.Once s.fanout s.started

/-- What comes in and goes out when a server acts by itself. -/
structure Server.Moves (i : ι) (s s' : Server ι) : Prop where
  outgoing : s'.queued = s.queued ∧ s'.outgoing = s.outgoing ∨
    ∃ e, e.sourceId = i ∧ s'.queued = s.queued ++ [e] ∧ s'.outgoing = s.outgoing ++ [e]
  incoming : s'.incoming.Sublist s.incoming

lemma Server.Moves.of_same (hqueued : s'.queued = s.queued) (houtgoing : s'.outgoing = s.outgoing)
    (hincoming : s'.incoming.Sublist s.incoming) : Server.Moves i s s' where
  outgoing := .inl ⟨hqueued, houtgoing⟩
  incoming := hincoming

lemma sound_new (size : Envelope ι → ℕ) (i : ι) : Server.Sound size i (.new ι) where
  dispatched _ h := by simp [Server.new] at h
  queued _ h := by simp [Server.new] at h
  carried := by simp [Server.new]
  once := by simpa [Server.started, Server.new] using Broadcaster.once_new

lemma once_perm {b : Broadcaster} {l l' : List StatusResponse} (h : Broadcaster.Once b l)
    (hperm : l.Perm l') : Broadcaster.Once b l' :=
  ⟨h.todo, h.turn, fun c sub hsub P => (h.few c sub hsub P).trans (hperm.countP_eq P).le, h.own, h.four⟩

lemma sound_clear (h : s.Sound size i) : (Cluster.clear s).Sound size i :=
  ⟨h.dispatched, h.queued, h.carried, h.once⟩

lemma sound_notify (h : s.Sound size i) (notes : List (Envelope ι)) :
    (Cluster.notify notes s).Sound size i := ⟨h.dispatched, h.queued, h.carried, h.once⟩

lemma incoming_notify (notes : List (Envelope ι)) (s : Server ι) :
    (Cluster.notify notes s).incoming.Sublist (s.incoming ++ notes) := by
  rw [Server.incoming, Server.incoming, Cluster.notify]
  cases s.inbox with
  | none => simp
  | some inbox => simp

/-- The call `k` reaches the queue, or finds it full. -/
lemma enqueue_spec (h : s.Sound size i) {k : ℕ} {res : Outcome} (hk : s.calls[k]? = some res) :
    let t := ({ s with calls := s.calls.eraseIdx k }).put ⟨i, res.carried size i⟩
    t.Sound size i ∧ Server.Moves i s t := by
  have hperm : (s.calls.map (Outcome.carried size i)).Perm
      (res.carried size i :: (s.calls.eraseIdx k).map (Outcome.carried size i)) := by
    obtain ⟨hlt, rfl⟩ := List.getElem?_eq_some_iff.mp hk
    rw [← List.map_cons]
    exact ((List.getElem_cons_eraseIdx_perm hlt).map _).symm
  intro t
  cases hsend : s.pending.send ⟨i, res.carried size i⟩ with
  | none =>
      have ht : t = { s with calls := s.calls.eraseIdx k } := by simp [t, Server.put, hsend]
      rw [ht]
      refine ⟨⟨h.dispatched, h.queued, ?_, h.once⟩, .of_same rfl rfl (List.Sublist.refl _)⟩
      refine List.Subperm.trans ?_ h.carried
      exact ((((List.eraseIdx_sublist s.calls k).map _).append_left _)).subperm
  | some ch =>
      have ht : t = { s with
          calls := s.calls.eraseIdx k
          pending := ch
          queued := s.queued ++ [⟨i, res.carried size i⟩] } := by simp [t, Server.put, hsend]
      rw [ht]
      refine ⟨⟨h.dispatched, fun e he => ?_, ?_, h.once⟩, ⟨.inr ⟨_, rfl, rfl, ?_⟩, List.Sublist.refl _⟩⟩
      · rcases List.mem_append.mp he with he | he
        · exact h.queued e he
        · rw [List.mem_singleton.mp he]
      · refine (List.Perm.subperm_right ?_).mp h.carried
        rw [List.map_append, List.append_assoc]
        exact hperm.append_left _
      · simp [Server.outgoing, Go.Chan.buf_send hsend]

/-- A notification is given to the subscribers. -/
lemma forward_spec (h : s.Sound size i) {e : Envelope ι} {rest : List (Envelope ι)}
    (hinbox : s.inbox = some (e :: rest)) (hother : e.sourceId ≠ i) {row : Option Outcome}
    {order : List ℕ} {b : Broadcaster}
    (hstep : Broadcaster.step (.broadcast (e.result.hydrate row).data order) s.fanout = some b) :
    (s.forward e rest (e.result.hydrate row) b).Sound size i ∧
      Server.Moves i s (s.forward e rest (e.result.hydrate row) b) := by
  refine ⟨⟨fun x hx => ?_, h.queued, h.carried, ?_⟩, .of_same rfl rfl ?_⟩
  · rcases List.mem_append.mp hx with hx | hx
    · exact h.dispatched x hx
    · obtain rfl := List.mem_singleton.mp hx
      exact ⟨hother, Outcome.strip_hydrate row e.result⟩
  · have honce := h.once.step hstep
    simpa [Server.started, Server.forward, Broadcaster.Action.starts] using honce
  · simp [Server.incoming, Server.forward, hinbox]

variable [DecidableEq ι]

/-- **What a server does on its own.** -/
theorem step_spec (h : s.Sound size i) {a : LocalAction} (hstep : Server.step size i a s = some s') :
    s'.Sound size i ∧ Server.Moves i s s' := by
  cases Server.steps_of_step hstep with
  | stream hstarts hb =>
      have honce := h.once.step hb
      rw [hstarts, List.append_nil] at honce
      exact ⟨⟨h.dispatched, h.queued, h.carried, honce⟩, .of_same rfl rfl (List.Sublist.refl _)⟩
  | broadcast hb =>
      refine ⟨⟨h.dispatched, h.queued, ?_, ?_⟩, .of_same rfl rfl (List.Sublist.refl _)⟩
      · rw [List.map_append, List.map_append, ← List.append_assoc]
        exact h.carried.append (List.Subperm.refl _)
      · refine once_perm (h.once.step hb) ?_
        simp only [Server.started, Broadcaster.Action.starts, List.map_append, List.append_assoc]
        exact List.Perm.append_left _ List.perm_append_comm
  | enqueue hk => exact enqueue_spec h hk
  | take hrecv =>
      refine ⟨⟨h.dispatched, h.queued, h.carried, h.once⟩, .of_same rfl ?_ (List.Sublist.refl _)⟩
      simp [Server.outgoing, Go.Chan.buf_recv hrecv]
  | close => exact ⟨⟨h.dispatched, h.queued, h.carried, h.once⟩, .of_same rfl rfl (List.Sublist.refl _)⟩
  | listen hinbox =>
      refine ⟨⟨h.dispatched, h.queued, h.carried, h.once⟩, .of_same rfl rfl ?_⟩
      simp [Server.incoming]
  | unlisten =>
      refine ⟨⟨h.dispatched, h.queued, h.carried, h.once⟩, .of_same rfl rfl ?_⟩
      simp [Server.incoming]
  | skip hinbox hown =>
      refine ⟨⟨h.dispatched, h.queued, h.carried, h.once⟩, .of_same rfl rfl ?_⟩
      simp [Server.incoming, hinbox]
  | forward hinbox hother hb => exact forward_spec h hinbox hother hb

end Local

/-! ## What is on its way -/

section Flow

variable {ι : Type} [DecidableEq ι] {size : Envelope ι → ℕ} {c c' : Cluster ι} {i j : ι}

/-- What the server `i` has sent to the server `j`, or has still to send. -/
def Cluster.via (c : Cluster ι) (i j : ι) : List (Envelope ι) :=
  ((c j).incoming.filter fun e => e.sourceId = i) ++ (c i).outgoing

/-- What is on its way, in the order in which it was queued. -/
structure Flow (size : Envelope ι → ℕ) (c : Cluster ι) : Prop where
  sound : ∀ i, (c i).Sound size i
  order : ∀ i j, (c.via i j).Sublist (c i).queued

lemma notifications_sublist (batch : List (Envelope ι)) : (notifications batch).Sublist batch := by
  have hsub := (List.dedup_sublist batch.reverse).reverse
  rwa [List.reverse_reverse] at hsub

lemma flow_start (size : Envelope ι → ℕ) : Flow size (Cluster.start ι) where
  sound i := sound_new size i
  order i j := by simp [Cluster.via, Cluster.start, Server.new, Server.incoming, Server.outgoing,
    Go.Chan.make]

lemma Flow.outgoing (h : Flow size c) {e : Envelope ι} (he : e ∈ (c i).outgoing) : e.sourceId = i := by
  refine (h.sound i).queued e ((h.order i i).subset ?_)
  exact List.mem_append_right _ he

lemma Flow.act (h : Flow size c) {a : LocalAction} {s' : Server ι}
    (hstep : Server.step size i a (c i) = some s') : Flow size (Function.update c i s') := by
  obtain ⟨hsound, hmoves⟩ := step_spec (h.sound i) hstep
  have hincoming : ∀ k, (Function.update c i s' k).incoming.Sublist (c k).incoming := by
    intro k
    by_cases hk : k = i
    · subst hk
      rw [Function.update_self]
      exact hmoves.incoming
    · rw [Function.update_of_ne hk]
  refine ⟨fun k => ?_, fun k j => ?_⟩
  · by_cases hk : k = i
    · subst hk
      rwa [Function.update_self]
    · rw [Function.update_of_ne hk]
      exact h.sound k
  · have hfilter := (hincoming j).filter fun e => decide (e.sourceId = k)
    have horder := h.order k j
    rw [Cluster.via] at horder ⊢
    by_cases hk : k = i
    · subst hk
      rw [Function.update_self]
      rcases hmoves.outgoing with ⟨hqueued, hout⟩ | ⟨e, -, hqueued, hout⟩
      · rw [hqueued, hout]
        exact (hfilter.append_right _).trans horder
      · rw [hqueued, hout, ← List.append_assoc]
        exact ((hfilter.append_right _).trans horder).append_right _
    · rw [Function.update_of_ne hk]
      exact (hfilter.append_right _).trans horder

lemma Flow.sent (h : Flow size c) (i : ι) {notes : List (Envelope ι)}
    (hnotes : notes.Sublist (c i).batch) :
    Flow size fun j => Cluster.notify notes (if j = i then Cluster.clear (c j) else c j) := by
  have hincoming : ∀ j, (Cluster.notify notes (if j = i then Cluster.clear (c j) else c j)).incoming.Sublist
      ((c j).incoming ++ notes) := by
    intro j
    split_ifs with hj
    · exact incoming_notify notes (Cluster.clear (c j))
    · exact incoming_notify notes (c j)
  refine ⟨fun k => sound_notify ?_ notes, fun k j => ?_⟩
  · split_ifs with hk
    · exact sound_clear (h.sound k)
    · exact h.sound k
  · have hfilter := (hincoming j).filter fun e => decide (e.sourceId = k)
    have horder := h.order k j
    rw [List.filter_append] at hfilter
    rw [Cluster.via] at horder ⊢
    by_cases hk : k = i
    · -- its batch has become notifications
      subst hk
      rw [if_pos rfl]
      refine List.Sublist.trans ?_ horder
      have hall := hfilter.trans ((List.filter_sublist.trans hnotes).append_left _)
      have hout : (Cluster.notify notes (Cluster.clear (c k))).outgoing = (c k).pending.buf := rfl
      rw [hout, Server.outgoing, ← List.append_assoc]
      exact hall.append_right _
    · rw [if_neg hk]
      have hnone : (notes.filter fun e => decide (e.sourceId = k)) = [] := by
        refine List.filter_eq_nil_iff.mpr fun e he hsource => hk ?_
        rw [← of_decide_eq_true hsource]
        exact h.outgoing (List.mem_append_left _ (hnotes.subset he))
      rw [hnone, List.append_nil] at hfilter
      exact (hfilter.append_right _).trans horder

theorem Flow.step (h : Flow size c) {a : Action ι} (hstep : Cluster.step size a c = some c') :
    Flow size c' := by
  cases a with
  | act i a =>
      obtain ⟨s', hs', rfl⟩ := Option.map_eq_some_iff.mp hstep
      exact h.act hs'
  | sent i committed =>
      simp only [Cluster.step] at hstep
      split_ifs at hstep with hsending hcommitted
      · obtain rfl := Option.some.inj hstep
        exact h.sent i (notifications_sublist _)
      · obtain rfl := Option.some.inj hstep
        exact h.sent i (List.nil_sublist _)

theorem Flow.of_reach (h : Go.Reach (Cluster.step size) (Cluster.start ι) c) : Flow size c :=
  h.invariant (flow_start size) fun _ _ _ hflow hstep => hflow.step hstep

/-! ## Nothing twice -/

section Once

/-- The envelopes carry results that were broadcast. -/
lemma Flow.queued_subperm (h : Flow size c) (i : ι) :
    ((c i).queued.map Envelope.result).Subperm ((c i).broadcasts.map (Outcome.carried size i)) :=
  (List.sublist_append_left _ _).subperm.trans (h.sound i).carried

/-- What is dispatched from a server was queued there. -/
lemma Flow.dispatched_sublist (h : Flow size c) (i j : ι) :
    (((c j).dispatched.map Prod.fst).filter fun e => e.sourceId = i).Sublist (c i).queued := by
  refine List.Sublist.trans ?_ (h.order i j)
  rw [Cluster.via, Server.incoming, List.filter_append, List.append_assoc]
  exact List.sublist_append_left _ _

/-- What has been dispatched from a server is of the kinds that were broadcast there. -/
lemma Flow.countP_from (h : Flow size c) (i j : ι) (Q : StatusResponse → Bool) :
    ((c j).dispatched.filter fun e => e.1.sourceId = i).countP (fun e => Q (bare e.2.data))
      ≤ (c i).broadcasts.countP fun res => Q (bare res.data) := by
  have hresults : ((c j).dispatched.filter fun e => e.1.sourceId = i).countP
      (fun e => Q (bare e.2.data)) = (((c j).dispatched.filter fun e => e.1.sourceId = i).map
        Prod.fst).countP fun e => Q (bare e.result.data) := by
    rw [List.countP_map]
    refine List.countP_congr fun e he => ?_
    have hstrip := ((h.sound j).dispatched e (List.mem_of_mem_filter he)).2
    rw [Outcome.bare_of_strip hstrip]
    rfl
  have hqueued : (((c j).dispatched.filter fun e => e.1.sourceId = i).map Prod.fst).Sublist
      (c i).queued := by
    have hsub := h.dispatched_sublist i j
    rwa [List.filter_map] at hsub
  have hcarried : (c i).queued.countP (fun e => Q (bare e.result.data))
      ≤ (c i).broadcasts.countP fun res => Q (bare res.data) := by
    have hsub := (h.queued_subperm i).countP_le fun res => Q (bare res.data)
    rw [List.countP_map, List.countP_map] at hsub
    refine hsub.trans (List.countP_congr fun res _ => ?_).le
    have hbare := Outcome.bare_of_strip (Outcome.strip_carried size i res)
    simp only [Function.comp_apply, hbare]
  rw [hresults]
  exact hqueued.countP_le.trans hcarried

variable [Fintype ι]

/-- What there is of a kind is what there is of it from each source. -/
lemma countP_sources {α : Type} (source : α → ι) (P : α → Bool) (l : List α) :
    l.countP P = ∑ i, (l.filter fun a => source a = i).countP P := by
  induction l with
  | nil => simp
  | cons a l ih =>
      have hcons : ∀ i, ((a :: l).filter fun a => source a = i).countP P
          = (l.filter fun a => source a = i).countP P
            + if source a = i then (if P a then 1 else 0) else 0 := by
        intro i
        rw [List.filter_cons]
        by_cases hi : source a = i
        · simp [hi, List.countP_cons]
        · simp [hi]
      simp only [hcons]
      rw [Finset.sum_add_distrib, Finset.sum_ite_eq, if_pos (Finset.mem_univ _), ← ih, List.countP_cons]

/-- **Nothing twice.**  In every run of the servers, the envelopes that a server queues carry results that
were broadcast there, each no more often.  Those that a server dispatches from another one are some of
those that were queued there, each once and in their order; none is its own, and a result is dispatched
with all that was broadcast of it except for what may be read again.  A stream has of the results of a
kind no more than were broadcast on all the servers. -/
theorem relayed_once (h : Go.Reach (Cluster.step size) (Cluster.start ι) c) :
    (∀ i, ((c i).queued.map Envelope.result).Subperm ((c i).broadcasts.map (Outcome.carried size i))) ∧
      (∀ i j, (((c j).dispatched.map Prod.fst).filter fun e => e.sourceId = i).Sublist (c i).queued) ∧
      (∀ j, ∀ e ∈ (c j).dispatched, e.1.sourceId ≠ j ∧ e.2.strip = e.1.result.strip ∧
        ∃ res ∈ (c e.1.sourceId).broadcasts, e.1.result = res.carried size e.1.sourceId) ∧
        ∀ j ch sub, (c j).fanout.subscribers.get? ch = some sub → ∀ Q : StatusResponse → Bool,
          (Broadcaster.content sub).countP (fun data => Q (bare data))
            ≤ ∑ i, (c i).broadcasts.countP fun res => Q (bare res.data) := by
  have hflow := Flow.of_reach h
  refine ⟨hflow.queued_subperm, hflow.dispatched_sublist, fun j e he => ?_, fun j ch sub hsub Q => ?_⟩
  · obtain ⟨hother, hstrip⟩ := (hflow.sound j).dispatched e he
    have hmem : e.1 ∈ (c e.1.sourceId).queued := (hflow.dispatched_sublist e.1.sourceId j).subset <|
      List.mem_filter.mpr ⟨List.mem_map_of_mem he, decide_eq_true rfl⟩
    obtain ⟨res, hres, heq⟩ :=
      List.mem_map.mp ((hflow.queued_subperm _).subset (List.mem_map_of_mem hmem))
    exact ⟨hother, hstrip, res, hres, heq.symm⟩
  · have hfew := (hflow.sound j).once.few ch sub hsub fun data => Q (bare data)
    have hsources := countP_sources (fun e : Envelope ι × Outcome => e.1.sourceId)
      (fun e => Q (bare e.2.data)) (c j).dispatched
    have hown : ((c j).dispatched.filter fun e => e.1.sourceId = j) = [] :=
      List.filter_eq_nil_iff.mpr fun e he hsource =>
        ((hflow.sound j).dispatched e he).1 (of_decide_eq_true hsource)
    rw [← Finset.add_sum_erase _ _ (Finset.mem_univ j), hown, List.countP_nil, zero_add] at hsources
    have hothers : ∑ i ∈ Finset.univ.erase j, ((c j).dispatched.filter fun e => e.1.sourceId = i).countP
        (fun e => Q (bare e.2.data))
          ≤ ∑ i ∈ Finset.univ.erase j, (c i).broadcasts.countP fun res => Q (bare res.data) :=
      Finset.sum_le_sum fun i _ => hflow.countP_from i j Q
    have hstarted : (c j).started.countP (fun data => Q (bare data))
        = (c j).broadcasts.countP (fun res => Q (bare res.data))
          + (c j).dispatched.countP fun e => Q (bare e.2.data) := by
      rw [Server.started, List.countP_append, List.countP_map, List.countP_map]
      rfl
    rw [← Finset.add_sum_erase _ _ (Finset.mem_univ j)]
    omega

end Once

/-! ## Nothing lost -/

section All

/-- The step loses nothing that the server `j` should get. -/
def Reliable (j : ι) : Action ι → Cluster ι → Prop
  | .act i (.enqueue _), c => (c i).pending.len < (c i).pending.cap
  | .act i .unlisten, _ => i ≠ j
  | .act _ _, _ => True
  | .sent _ committed, c => committed = true ∧ (c j).inbox.isSome = true

instance (j : ι) : (a : Action ι) → (c : Cluster ι) → Decidable (Reliable j a c)
  | .act _ (.enqueue _), _ => inferInstanceAs (Decidable (_ < _))
  | .act i .unlisten, _ => inferInstanceAs (Decidable (i ≠ j))
  | .act _ (.stream _), _ => .isTrue trivial
  | .act _ (.broadcast _ _), _ => .isTrue trivial
  | .act _ .take, _ => .isTrue trivial
  | .act _ .close, _ => .isTrue trivial
  | .act _ .listen, _ => .isTrue trivial
  | .act _ (.receive _ _), _ => .isTrue trivial
  | .sent _ _, _ => inferInstanceAs (Decidable (_ ∧ _))

/-- What has been broadcast on other servers has been dispatched on the server `j`, or is on its way. -/
structure Complete (size : Envelope ι → ℕ) (j : ι) (c : Cluster ι) : Prop where
  queued : ∀ i ≠ j, ∀ e ∈ (c i).queued, e ∈ (c j).incoming ∨ e ∈ (c i).outgoing
  broadcasts : ∀ i, ∀ res ∈ (c i).broadcasts,
    res ∈ (c i).calls ∨ ⟨i, res.carried size i⟩ ∈ (c i).queued

omit [DecidableEq ι] in
lemma complete_start (size : Envelope ι → ℕ) (j : ι) : Complete size j (Cluster.start ι) where
  queued i _ e he := by simp [Cluster.start, Server.new] at he
  broadcasts i res hres := by simp [Cluster.start, Server.new] at hres

/-- A listener that keeps its connection drops its own notifications only. -/
lemma mem_incoming {s s' : Server ι} {a : LocalAction} (hstep : Server.step size i a s = some s')
    (ha : a ≠ .unlisten) {e : Envelope ι} (he : e ∈ s.incoming) (hother : e.sourceId ≠ i) :
    e ∈ s'.incoming := by
  cases Server.steps_of_step hstep with
  | unlisten => exact absurd rfl ha
  | skip hinbox hown =>
      rw [Server.incoming, hinbox, Option.getD_some, List.mem_append, List.mem_cons] at he
      rw [Server.incoming, Option.getD_some, List.mem_append]
      refine he.imp_right fun he => he.resolve_left fun heq => hother ?_
      rw [heq]
      exact hown
  | forward hinbox =>
      rw [Server.incoming, hinbox] at he
      simpa [Server.incoming, Server.forward, or_assoc] using he
  | listen hinbox => simpa [Server.incoming, hinbox] using he
  | enqueue =>
      unfold Server.put
      split <;> exact he
  | stream => exact he
  | broadcast => exact he
  | take => exact he
  | close => exact he

/-- A call that finds room in the queue is not lost. -/
lemma mem_broadcasts {s s' : Server ι} {a : LocalAction} (hstep : Server.step size i a s = some s')
    (hroom : ∀ k, a = .enqueue k → s.pending.len < s.pending.cap)
    (h : ∀ res ∈ s.broadcasts, res ∈ s.calls ∨ ⟨i, res.carried size i⟩ ∈ s.queued) :
    ∀ res ∈ s'.broadcasts, res ∈ s'.calls ∨ ⟨i, res.carried size i⟩ ∈ s'.queued := by
  cases Server.steps_of_step hstep with
  | @enqueue k called hk =>
      obtain ⟨ch, hsend⟩ := Option.isSome_iff_exists.mp
        (Go.Chan.send_isSome (hroom k rfl) ⟨i, called.carried size i⟩)
      have hput : ({ s with calls := s.calls.eraseIdx k }).put ⟨i, called.carried size i⟩
          = { s with
            calls := s.calls.eraseIdx k
            pending := ch
            queued := s.queued ++ [⟨i, called.carried size i⟩] } := by simp [Server.put, hsend]
      rw [hput]
      intro res hres
      rcases h res hres with hcall | hqueued
      · obtain ⟨hlt, rfl⟩ := List.getElem?_eq_some_iff.mp hk
        have hmem := (List.getElem_cons_eraseIdx_perm hlt).mem_iff.mpr hcall
        rcases List.mem_cons.mp hmem with rfl | hrest
        · exact .inr (by simp)
        · exact .inl hrest
      · exact .inr (List.mem_append_left _ hqueued)
  | broadcast hb =>
      intro res hres
      rcases List.mem_append.mp hres with hres | hres
      · exact (h res hres).imp_left (List.mem_append_left _)
      · exact .inl (List.mem_append_right _ hres)
  | stream => exact h
  | take => exact h
  | close => exact h
  | listen => exact h
  | unlisten => exact h
  | skip => exact h
  | forward => exact h

lemma Complete.act (h : Complete size j c) (hflow : Flow size c) {a : LocalAction} {s' : Server ι}
    (hok : Reliable j (.act i a) c) (hstep : Server.step size i a (c i) = some s') :
    Complete size j (Function.update c i s') := by
  obtain ⟨hsound, hmoves⟩ := step_spec (hflow.sound i) hstep
  refine ⟨fun k hk e he => ?_, fun k res hres => ?_⟩
  · -- what was on its way still is, and what is queued now goes out
    have hin : e ∈ (c j).incoming → e.sourceId = k →
        e ∈ (Function.update c i s' j).incoming := by
      intro hin hsource
      by_cases hj : j = i
      · subst hj
        rw [Function.update_self]
        refine mem_incoming hstep (fun ha => ?_) hin (hsource ▸ hk)
        subst ha
        exact hok rfl
      · rwa [Function.update_of_ne hj]
    by_cases hki : k = i
    · subst hki
      rw [Function.update_self] at he ⊢
      have hsource := hsound.queued e he
      rcases hmoves.outgoing with ⟨hqueued, hout⟩ | ⟨x, -, hqueued, hout⟩
      · rw [hqueued] at he
        rw [hout]
        exact (h.queued k hk e he).imp_left fun hmem => hin hmem hsource
      · rw [hqueued] at he
        rw [hout]
        rcases List.mem_append.mp he with he | he
        · exact (h.queued k hk e he).imp (fun hmem => hin hmem hsource) (List.mem_append_left _)
        · exact .inr (List.mem_append_right _ he)
    · rw [Function.update_of_ne hki] at he ⊢
      have hsource := (hflow.sound k).queued e he
      exact (h.queued k hk e he).imp_left fun hmem => hin hmem hsource
  · by_cases hki : k = i
    · subst hki
      rw [Function.update_self] at hres ⊢
      refine mem_broadcasts hstep (fun n hn => ?_) (h.broadcasts k) res hres
      subst hn
      exact hok
    · rw [Function.update_of_ne hki] at hres ⊢
      exact h.broadcasts k res hres

lemma Complete.sent (h : Complete size j c) (hlisten : (c j).inbox.isSome = true) (i : ι) :
    Complete size j fun k => Cluster.notify (notifications (c i).batch)
      (if k = i then Cluster.clear (c k) else c k) := by
  obtain ⟨inbox, hinbox⟩ := Option.isSome_iff_exists.mp hlisten
  have hincoming : ∀ e, e ∈ (c j).incoming ∨ e ∈ (c i).batch →
      e ∈ (Cluster.notify (notifications (c i).batch)
        (if j = i then Cluster.clear (c j) else c j)).incoming := by
    intro e he
    have hnotes : e ∈ (c i).batch ↔ e ∈ notifications (c i).batch := by simp [notifications]
    have hsame : (if j = i then Cluster.clear (c j) else c j).dispatched = (c j).dispatched ∧
        (if j = i then Cluster.clear (c j) else c j).inbox = (c j).inbox := by
      split_ifs
      · exact ⟨rfl, rfl⟩
      · exact ⟨rfl, rfl⟩
    rw [hnotes, Server.incoming, hinbox] at he
    rw [Server.incoming, Cluster.notify]
    simp only [hsame.1, hsame.2, hinbox, Option.map_some, Option.getD_some, List.mem_append] at he ⊢
    rwa [← or_assoc]
  refine ⟨fun k hk e he => ?_, fun k res hres => ?_⟩
  · by_cases hki : k = i
    · subst hki
      simp only [if_true] at he ⊢
      rcases h.queued k hk e he with hin | hout
      · exact .inl (hincoming e (.inl hin))
      · rcases List.mem_append.mp hout with hbatch | hpending
        · exact .inl (hincoming e (.inr hbatch))
        · exact .inr hpending
    · simp only [if_neg hki] at he ⊢
      exact (h.queued k hk e he).imp_left fun hin => hincoming e (.inl hin)
  · by_cases hki : k = i
    · subst hki
      simp only [if_true] at hres ⊢
      exact h.broadcasts k res hres
    · simp only [if_neg hki] at hres ⊢
      exact h.broadcasts k res hres

/-- **Nothing lost.**  In a run in which every call finds room in its queue, every batch is committed
while the server `j` listens, and `j` does not lose its connection, every result broadcast on another
server has been dispatched on `j`, all of it that cannot be read again, or it is on its way. -/
theorem relayed_all (h : Go.ReachIf (Cluster.step size) (Reliable j) (Cluster.start ι) c) (hij : i ≠ j)
    {res : Outcome} (hres : res ∈ (c i).broadcasts) :
    (∃ e ∈ (c j).dispatched, e.1.sourceId = i ∧ e.2.strip = res.strip) ∨
      ⟨i, res.carried size i⟩ ∈ (c j).inbox.getD [] ++ (c i).outgoing ∨ res ∈ (c i).calls := by
  have hcomplete : Complete size j c := by
    refine h.invariant_of (fun _ => Flow.of_reach) (complete_start size j) ?_
    intro a s s' hflow hs hok hstep
    cases a with
    | act i a =>
        obtain ⟨t, ht, rfl⟩ := Option.map_eq_some_iff.mp hstep
        exact hs.act hflow hok ht
    | sent i committed =>
        obtain ⟨rfl, hlisten⟩ := hok
        simp only [Cluster.step, if_true] at hstep
        split_ifs at hstep
        obtain rfl := Option.some.inj hstep
        exact hs.sent hlisten i
  have hflow : Flow size c := Flow.of_reach h.reach
  rcases hcomplete.broadcasts i res hres with hcall | hqueued
  · exact .inr (.inr hcall)
  · rcases hcomplete.queued i hij _ hqueued with hin | hout
    · rcases List.mem_append.mp hin with hdispatched | hinbox
      · obtain ⟨e, he, heq⟩ := List.mem_map.mp hdispatched
        refine .inl ⟨e, he, by rw [heq], ?_⟩
        rw [((hflow.sound j).dispatched e he).2, heq]
        exact Outcome.strip_carried size i res
      · exact .inr (.inl (List.mem_append_left _ hinbox))
    · exact .inr (.inl (List.mem_append_right _ hout))

end All

end Flow

/-! ## Two servers -/

/-- The result of the submission 11. -/
def sampleOutcome : Outcome where
  data := Broadcaster.sampleResult 11 .passed
  reviewStatus := none
  reviewReason := ""
  reviewedAt := none

/-- The result is broadcast on one server and reaches a stream of the other one, cut down on its way. -/
def sampleRelay : List (Action Bool) :=
  [.act true .listen, .act true (.stream (.subscribe (some 1))), .act false (.broadcast sampleOutcome []),
    .act false (.enqueue 0), .act false .take, .act false .close, .sent false true,
    .act true (.receive none [0]), .act true (.stream (.advance 0))]

def sampleCluster : Cluster Bool :=
  (Go.runIf (Cluster.step fun _ => 8000) (Reliable true) sampleRelay (Cluster.start Bool)).getD
    (Cluster.start Bool)

theorem relayed_once_sample :
    (∀ i, ((sampleCluster i).queued.map Envelope.result).Subperm
        ((sampleCluster i).broadcasts.map (Outcome.carried (fun _ => 8000) i))) ∧
      (∀ i j, (((sampleCluster j).dispatched.map Prod.fst).filter fun e => e.sourceId = i).Sublist
        (sampleCluster i).queued) ∧
      (∀ j, ∀ e ∈ (sampleCluster j).dispatched, e.1.sourceId ≠ j ∧ e.2.strip = e.1.result.strip ∧
        ∃ res ∈ (sampleCluster e.1.sourceId).broadcasts,
          e.1.result = res.carried (fun _ => 8000) e.1.sourceId) ∧
        ∀ j ch sub, (sampleCluster j).fanout.subscribers.get? ch = some sub →
          ∀ Q : StatusResponse → Bool, (Broadcaster.content sub).countP (fun data => Q (bare data))
            ≤ ∑ i, (sampleCluster i).broadcasts.countP fun res => Q (bare res.data) :=
  relayed_once (Go.ReachIf.runIf_getD sampleRelay).reach

theorem relayed_all_sample :
    (∃ e ∈ (sampleCluster true).dispatched, e.1.sourceId = false ∧ e.2.strip = sampleOutcome.strip) ∨
      ⟨false, sampleOutcome.carried (fun _ => 8000) false⟩
        ∈ (sampleCluster true).inbox.getD [] ++ (sampleCluster false).outgoing ∨
      sampleOutcome ∈ (sampleCluster false).calls :=
  relayed_all (Go.ReachIf.runIf_getD sampleRelay) (by decide) (by decide +kernel)

end Relay

end Labyrithm
