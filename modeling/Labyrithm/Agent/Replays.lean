import Mathlib.Data.List.DropRight
import Mathlib.Data.List.Nodup
import Labyrithm.Agent.Heartbeat
import Labyrithm.Go.Runs

/-!
# Heartbeats delivered more than once

Live heartbeats of one enrollment arrive in any order and any number of times, and their requests run
at the same time: between the moment a request reads the row and its `UPDATE`, others may be recorded.
Shutdowns, revocations and their reversals come in between.

The server compares a heartbeat with the boot and the sequence number of the row, so it knows of the
boot that was accepted last and of no other, and only by the text that it writes itself.

* `Deliveries.step` — one request reads and decides, or one request records.
* `Orderly` — a copy of an accepted heartbeat is delivered while the server still knows of it, with the
  boot spelled its way, and none is accepted between the two halves of a request for the same heartbeat.
* **`accepted_nodup`** — as long as all steps are orderly, no heartbeat is accepted twice.
* `accepted_again` — a copy that comes after a heartbeat of another boot is accepted again.
-/

namespace Labyrithm

namespace Agent

/-- What tells a heartbeat from the others of its agent. -/
def Heartbeat.key (hb : Heartbeat) : String × ℤ := (hb.bootId, hb.seq)

/-- The server with the requests that have read the row, each with the number of acceptances there
were by then, and all acceptances in their order. -/
structure Deliveries where
  server : Server
  pending : List (Pending × ℕ)
  accepted : List (String × ℤ)
  deriving DecidableEq, Repr

def Deliveries.enrolled (agentVersion : String) : Deliveries :=
  ⟨⟨.enrolled agentVersion, [], []⟩, [], []⟩

inductive Delivery
  | deliver (keepaliveSeconds : ℤ) (hb : Heartbeat) (now : ℤ)
  | record (i : ℕ) (now : ℤ)
  | shutdown (reason : String) (now : ℤ)
  | revoke (reason : String) (now : ℤ)
  | unrevoke
  deriving DecidableEq, Repr

/-- A change of the row by another handler. -/
def Deliveries.changeRow (s : Deliveries) (row : AgentRow) : Deliveries :=
  { s with server := { s.server with row := row } }

/-- A request reads the row and decides. -/
def Deliveries.receive (s : Deliveries) (keepaliveSeconds : ℤ) (hb : Heartbeat) (now : ℤ) :
    Deliveries :=
  let (server, received) := s.server.receive keepaliveSeconds hb now
  { s with
    server := server
    pending := match received with
      | .pending p => s.pending ++ [(p, s.accepted.length)]
      | _ => s.pending }

/-- A request records its heartbeat. -/
def Deliveries.record (s : Deliveries) (i : ℕ) (p : Pending) (now : ℤ) : Deliveries :=
  match s.server.record p now with
  | .ok server =>
      { server := server
        pending := s.pending.eraseIdx i
        accepted := s.accepted ++ [p.hb.key] }
  | .error _ => { s with pending := s.pending.eraseIdx i }

/-- One step; what is delivered is live and has a sequence number greater than zero. -/
def Deliveries.step : Delivery → Deliveries → Option Deliveries
  | .deliver keepaliveSeconds hb now, s =>
      if hb.buffered = false ∧ 0 < hb.seq then some (s.receive keepaliveSeconds hb now) else none
  | .record i now, s => s.pending[i]?.map fun q => s.record i q.1 now
  | .shutdown reason now, s => some (s.changeRow (Agent.shutdown s.server.row reason now))
  | .revoke reason now, s => some (s.changeRow (Agent.revoke s.server.row reason now))
  | .unrevoke, s => some (s.changeRow (Agent.unrevoke s.server.row))

/-- The heartbeats accepted since the last one of another boot include one with this sequence number
or a higher one. -/
def Known (accepted : List (String × ℤ)) (key : String × ℤ) : Prop :=
  ∃ k ∈ accepted.rtakeWhile (fun k => k.1 = key.1), key.2 ≤ k.2

instance (accepted : List (String × ℤ)) (key : String × ℤ) : Decidable (Known accepted key) :=
  inferInstanceAs (Decidable (∃ k ∈ _, _))

/-- A live enrollment gets no copy of an accepted heartbeat that is not known any more or has its boot
spelled in another way, and a request whose heartbeat was accepted since it read the row comes to its
`UPDATE` after a stop. -/
def Orderly : Delivery → Deliveries → Prop
  | .deliver _ hb _, s => s.server.row.revokedAt = none → hb.key ∈ s.accepted →
      hb.bootCanonical = true ∧ Known s.accepted hb.key
  | .record i _, s => ∀ q ∈ s.pending[i]?,
      q.1.hb.key ∈ s.accepted.drop q.2 → s.server.row.Stopped q.1.hb.bootId
  | _, _ => True

instance : (d : Delivery) → (s : Deliveries) → Decidable (Orderly d s)
  | .deliver .., _ => inferInstanceAs (Decidable (_ → _))
  | .record .., _ => inferInstanceAs (Decidable (∀ q ∈ _, _))
  | .shutdown .., _ => .isTrue trivial
  | .revoke .., _ => .isTrue trivial
  | .unrevoke, _ => .isTrue trivial

/-! ## The invariant -/

/-- The row has the boot of the heartbeats that are known and a sequence number as great as theirs,
and a request that is under way is for a heartbeat that had not been accepted when it read the row. -/
structure Deliveries.Fresh (s : Deliveries) : Prop where
  row : ∀ key, Known s.accepted key →
    s.server.row.bootId = some key.1 ∧ key.2 ≤ s.server.row.seq
  pending : ∀ q ∈ s.pending, q.2 ≤ s.accepted.length ∧ q.1.hb.key ∉ s.accepted.take q.2
  nodup : s.accepted.Nodup

lemma known_concat {accepted : List (String × ℤ)} {key last : String × ℤ} :
    Known (accepted ++ [last]) key ↔
      last.1 = key.1 ∧ (Known accepted key ∨ key.2 ≤ last.2) := by
  unfold Known
  rw [List.rtakeWhile_concat]
  by_cases hboot : last.1 = key.1 <;> simp [hboot, or_and_right, exists_or]

section Step

variable {s : Deliveries}

lemma Deliveries.Fresh.changeRow (h : s.Fresh) {row : AgentRow}
    (hboot : row.bootId = s.server.row.bootId) (hseq : row.seq = s.server.row.seq) :
    (s.changeRow row).Fresh where
  row key hkey := by
    obtain ⟨hkeyBoot, hkeySeq⟩ := h.row key hkey
    exact ⟨hboot.trans hkeyBoot, hkeySeq.trans_eq hseq.symm⟩
  pending := h.pending
  nodup := h.nodup

/-- A copy of a heartbeat that is known is found out by the request that reads the row. -/
lemma Deliveries.Fresh.not_mem_accepted (h : s.Fresh) {k now : ℤ} {hb : Heartbeat} {p : Pending}
    (hseq : 0 < hb.seq) (horder : Orderly (.deliver k hb now) s)
    (hp : (s.server.receive k hb now).2 = .pending p) : hb.key ∉ s.accepted := by
  intro hmem
  obtain ⟨hlive, -, hnew, -⟩ := receive_pending_iff.mp hp
  obtain ⟨hcanonical, hknown⟩ := horder hlive hmem
  obtain ⟨hboot, hle⟩ := h.row _ hknown
  exact hnew ⟨hcanonical, hboot, hseq, hle⟩

lemma Deliveries.Fresh.receive (h : s.Fresh) {k now : ℤ} {hb : Heartbeat} (hseq : 0 < hb.seq)
    (horder : Orderly (.deliver k hb now) s) : (s.receive k hb now).Fresh where
  row key hkey := by
    have hrow : (s.receive k hb now).server.row = s.server.row := receive_row
    rw [hrow]
    exact h.row key hkey
  pending q hq := by
    simp only [Deliveries.receive] at hq
    split at hq
    · rename_i p hp
      rcases List.mem_append.mp hq with hq | hq
      · exact h.pending q hq
      · obtain rfl := List.mem_singleton.mp hq
        have hnew := h.not_mem_accepted hseq horder hp
        obtain ⟨-, -, -, rfl⟩ := receive_pending_iff.mp hp
        exact ⟨le_rfl, by simpa [Deliveries.receive] using hnew⟩
    · exact h.pending q hq
  nodup := h.nodup

/-- The half of a request that records: what is accepted had not been accepted before. -/
lemma Deliveries.Fresh.record (h : s.Fresh) {i : ℕ} {q : Pending × ℕ} {now : ℤ}
    (hq : s.pending[i]? = some q) (horder : Orderly (.record i now) s) :
    (s.record i q.1 now).Fresh := by
  have herase : ∀ r ∈ s.pending.eraseIdx i, r ∈ s.pending := (List.eraseIdx_sublist _ _).subset
  unfold Deliveries.record
  split
  · rename_i server hserver
    obtain ⟨row, hrow, rfl⟩ := record_eq_ok.mp hserver
    obtain ⟨hboot, hseq, hgrow, -⟩ := recordHeartbeat_eq_some hrow
    constructor
    · intro key hkey
      obtain ⟨hlast, hknown⟩ := known_concat.mp hkey
      have hsame : q.1.hb.bootId = key.1 := hlast
      rw [hsame] at hboot hgrow
      rcases hknown with hkey | hle
      · obtain ⟨hkeyBoot, hkeySeq⟩ := h.row key hkey
        exact ⟨hboot, hkeySeq.trans (hgrow hkeyBoot)⟩
      · exact ⟨hboot, hle.trans hseq⟩
    · intro r hr
      obtain ⟨hle, hnot⟩ := h.pending r (herase r hr)
      refine ⟨by simpa using Nat.le_succ_of_le hle, ?_⟩
      rwa [List.take_append_of_le_length hle]
    · have hnotStopped : ¬ s.server.row.Stopped q.1.hb.bootId :=
        recordHeartbeat_isSome.mp (Option.isSome_of_eq_some hrow)
      have hsince : q.1.hb.key ∉ s.accepted.drop q.2 := fun hmem =>
        hnotStopped (horder q hq hmem)
      have hbefore := (h.pending q (List.mem_of_getElem? hq)).2
      have hnew : q.1.hb.key ∉ s.accepted := by
        rw [← List.take_append_drop q.2 s.accepted, List.mem_append]
        exact not_or.mpr ⟨hbefore, hsince⟩
      exact List.concat_eq_append ▸ List.Nodup.concat hnew h.nodup
  · exact ⟨h.row, fun r hr => h.pending r (herase r hr), h.nodup⟩

lemma Deliveries.Fresh.step (h : s.Fresh) {d : Delivery} {s' : Deliveries} (horder : Orderly d s)
    (hstep : Deliveries.step d s = some s') : s'.Fresh := by
  cases d with
  | deliver k hb now =>
      obtain ⟨⟨-, hseq⟩, hs'⟩ := Option.ite_none_right_eq_some.mp hstep
      obtain rfl := Option.some.inj hs'
      exact h.receive hseq horder
  | record i now =>
      obtain ⟨q, hq, rfl⟩ := Option.map_eq_some_iff.mp hstep
      exact h.record hq horder
  | shutdown reason now =>
      obtain rfl := Option.some.inj hstep
      exact h.changeRow shutdown_bootId shutdown_seq
  | revoke reason now =>
      obtain rfl := Option.some.inj hstep
      exact h.changeRow revoke_bootId revoke_seq
  | unrevoke =>
      obtain rfl := Option.some.inj hstep
      exact h.changeRow unrevoke_bootId unrevoke_seq

lemma fresh_enrolled (agentVersion : String) : (Deliveries.enrolled agentVersion).Fresh where
  row _ hkey := by simp [Deliveries.enrolled, Known] at hkey
  pending _ hq := by simp [Deliveries.enrolled] at hq
  nodup := List.nodup_nil

end Step

/-! ## The runs -/

/-- Whatever is delivered, how often and in which order: as long as every step is orderly, no boot
and sequence number are accepted twice. -/
theorem accepted_nodup (agentVersion : String) (s : Deliveries)
    (h : Go.ReachIf Deliveries.step Orderly (.enrolled agentVersion) s) : s.accepted.Nodup :=
  (h.invariant (fresh_enrolled agentVersion) fun _ _ _ hs horder hstep => hs.step horder hstep).nodup

/-- A live heartbeat with the version the row has. -/
def beat (bootId : String) (seq : ℤ) (nonce : String) : Heartbeat where
  bootId := bootId
  seq := seq
  wallTs := none
  agentVersion := ""
  loopbackPort := 0
  attestNonce := nonce
  signalHash := ""
  buffered := false

/-- Two boots with a shutdown in between, a copy that is refused and one that is recorded late. -/
def replaysSample : List Delivery :=
  [.deliver 0 (beat "a" 1 "n1") 1, .record 0 1, .deliver 0 (beat "a" 1 "n1") 2,
    .deliver 0 (beat "a" 2 "n2") 3, .deliver 0 (beat "a" 2 "n2") 3, .shutdown "" 4,
    .deliver 0 (beat "b" 1 "m1") 5, .record 2 5, .deliver 0 (beat "b" 1 "m1") 6, .record 0 7]

theorem accepted_nodup_sample :
    ((Go.runIf Deliveries.step Orderly replaysSample (.enrolled "1")).getD
      (.enrolled "1")).accepted.Nodup :=
  accepted_nodup "1" _ (Go.ReachIf.runIf_getD replaysSample)

/-- A heartbeat, one of the next boot, and a copy of the first. -/
theorem accepted_again :
    ¬ ∀ (agentVersion : String) (s : Deliveries),
      Go.Reach Deliveries.step (.enrolled agentVersion) s → s.accepted.Nodup := by
  intro h
  have hrun := h "1" _ (Go.Reach.run_getD
    [.deliver 0 (beat "a" 1 "n1") 1, .record 0 1, .deliver 0 (beat "b" 1 "n2") 2, .record 0 2,
      .deliver 0 (beat "a" 1 "n1") 3, .record 0 3])
  revert hrun
  decide

/-- A copy whose boot is spelled in another way, which is no replay to `Classify`. -/
example :
    ((Go.run Deliveries.step
      [.deliver 0 (beat "a" 1 "n1") 1, .record 0 1,
        .deliver 0 { beat "a" 1 "n2" with bootCanonical := false } 2, .record 0 2]
      (.enrolled "1")).map (·.accepted)) = some [("a", 1), ("a", 1)] := by
  decide

end Agent

end Labyrithm
