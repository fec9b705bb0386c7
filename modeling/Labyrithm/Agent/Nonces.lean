import Mathlib.Data.List.Chain
import Labyrithm.Agent.Scheduler

/-!
# The nonce of the agent and the nonces of the server

The agent publishes the nonce of a heartbeat when it is acknowledged; the server has by then made it
the current one and kept the one before.  Between the two, the agent publishes an older nonce: one
acceptance behind the server after a lost acknowledgement, and two behind while the acknowledgement
of the next heartbeat is still under way.

* `NoTwoLost` — no two heartbeats accepted in succession both have their acknowledgement lost.
* **`published_nonce_accepted`** — in such a run the published nonce is the current or the previous
  one of the server, unless an acknowledgement is under way right after one that was lost.
* `published_nonce_overtaken` — there it is neither.
-/

namespace Labyrithm

namespace Agent

/-- Whether an accepted heartbeat was acknowledged; `none` for one that was not accepted. -/
def Outcome.ack : Outcome → Option Bool
  | answered response => if response = .accepted then some true else none
  | requestLost => none
  | responseLost response => if response = .accepted then some false else none

/-- The acknowledgements of the accepted heartbeats in their order. -/
def acks (outcomes : List Outcome) : List Bool := outcomes.filterMap Outcome.ack

def NoTwoLost (outcomes : List Outcome) : Prop :=
  (acks outcomes).IsChain fun a b => a = true ∨ b = true

instance (outcomes : List Outcome) : Decidable (NoTwoLost outcomes) :=
  inferInstanceAs (Decidable (List.IsChain _ _))

/-- The acknowledgement of the heartbeat accepted last was lost. -/
def LastLost (outcomes : List Outcome) : Prop := (acks outcomes).getLast? = some false

instance (outcomes : List Outcome) : Decidable (LastLost outcomes) :=
  inferInstanceAs (Decidable (_ = _))

/-- The acknowledgement of an accepted heartbeat is under way. -/
def Phase.Accepted : Phase → Prop
  | answered _ response => response = .accepted
  | _ => False

instance : (phase : Phase) → Decidable phase.Accepted
  | .answered .. => inferInstanceAs (Decidable (_ = _))
  | .idle | .sent _ | .read _ => .isFalse id

/-- The nonce is the current one of the row or the previous one. -/
def AgentRow.Holds (row : AgentRow) (nonce : String) : Prop :=
  nonce = row.attestNonce ∨ nonce = row.prevAttestNonce

instance (row : AgentRow) (nonce : String) : Decidable (row.Holds nonce) :=
  inferInstanceAs (Decidable (_ ∨ _))

lemma verifyNonce_eq_true_iff {row : AgentRow} {nonce : String} :
    verifyNonce row nonce = true ↔ nonce ≠ "" ∧ row.revokedAt = none ∧ row.Holds nonce := by
  simp [verifyNonce, AgentRow.Holds]

/-! ## The acknowledgements -/

section Acks

variable {outcomes : List Outcome} {o : Outcome}

lemma acks_concat : acks (outcomes ++ [o]) = acks outcomes ++ o.ack.toList := by
  cases h : o.ack <;> simp [acks, h]

lemma acks_concat_none (h : o.ack = none) : acks (outcomes ++ [o]) = acks outcomes := by
  simp [acks_concat, h]

lemma NoTwoLost.init (h : NoTwoLost (outcomes ++ [o])) : NoTwoLost outcomes := by
  rw [NoTwoLost, acks_concat] at h
  exact (List.isChain_append.mp h).1

/-- An acknowledgement that is lost comes after one that was not. -/
lemma NoTwoLost.not_lastLost (h : NoTwoLost (outcomes ++ [.responseLost .accepted])) :
    ¬ LastLost outcomes := by
  rw [NoTwoLost, acks_concat] at h
  intro hlost
  have hchain := (List.isChain_append.mp h).2.2 false hlost false rfl
  simp at hchain

end Acks

/-! ## The invariant -/

/-- What the agent publishes, by what it knows of the heartbeat accepted last. -/
structure Link.Agrees (s : Link) : Prop where
  sent : ∀ hb, s.phase = .sent hb → hb.attestNonce ≠ "" ∧ hb.buffered = false
  read : ∀ p, s.phase = .read p → p.hb.attestNonce ≠ ""
  accepted : ∀ hb, s.phase = .answered hb .accepted → s.server.row.attestNonce = hb.attestNonce
  current : NoTwoLost s.outcomes → ¬ LastLost s.outcomes → ¬ s.phase.Accepted →
    s.agent.publishedNonce = "" ∨ s.agent.publishedNonce = s.server.row.attestNonce
  held : NoTwoLost s.outcomes → ¬ (LastLost s.outcomes ∧ s.phase.Accepted) →
    s.agent.publishedNonce = "" ∨ s.server.row.Holds s.agent.publishedNonce

section Moves

variable {s s' : Link}

/-- Steps that leave the nonces, the acknowledgements and the phase of the acknowledgement alone. -/
lemma Link.Agrees.frame (h : s.Agrees)
    (hpublished : s'.agent.publishedNonce = s.agent.publishedNonce)
    (hnonce : s'.server.row.attestNonce = s.server.row.attestNonce)
    (hprev : s'.server.row.prevAttestNonce = s.server.row.prevAttestNonce)
    (hacks : acks s'.outcomes = acks s.outcomes) (hphase : s'.phase.Accepted ↔ s.phase.Accepted)
    (hsent : ∀ hb, s'.phase = .sent hb → hb.attestNonce ≠ "" ∧ hb.buffered = false)
    (hread : ∀ p, s'.phase = .read p → p.hb.attestNonce ≠ "")
    (haccepted : ∀ hb, s'.phase = .answered hb .accepted → s.phase = .answered hb .accepted) : s'.Agrees where
  sent := hsent
  read := hread
  accepted hb hb' := hnonce.trans (h.accepted hb (haccepted hb hb'))
  current hlost hlast hnot := by
    rw [hpublished, hnonce]
    rw [NoTwoLost, hacks] at hlost
    rw [LastLost, hacks] at hlast
    exact h.current hlost hlast (hphase.not.mp hnot)
  held hlost hnot := by
    rw [AgentRow.Holds, hpublished, hnonce, hprev]
    rw [NoTwoLost, hacks] at hlost
    rw [LastLost, hacks, hphase] at hnot
    exact h.held hlost hnot

/-- A step while no acknowledgement is under way, after which none is either. -/
lemma Link.Agrees.frame_of_not_accepted (h : s.Agrees) (hs : ¬ s.phase.Accepted)
    (hs' : ¬ s'.phase.Accepted)
    (hpublished : s'.agent.publishedNonce = s.agent.publishedNonce)
    (hrow : s'.server.row = s.server.row) (hacks : acks s'.outcomes = acks s.outcomes)
    (hsent : ∀ hb, s'.phase = .sent hb → hb.attestNonce ≠ "" ∧ hb.buffered = false)
    (hread : ∀ p, s'.phase = .read p → p.hb.attestNonce ≠ "") : s'.Agrees :=
  h.frame hpublished (congrArg _ hrow) (congrArg _ hrow) hacks (iff_of_false hs' hs) hsent hread
    fun hb hb' => absurd (by rw [hb']; rfl) hs'

lemma settle_publishedNonce {a : AgentState} {nonce uuid : String} {response : Response}
    (h : response ≠ .accepted) :
    (a.settle nonce uuid (Transport.classify response.status)).publishedNonce = a.publishedNonce := by
  rw [classify_status]
  rcases response with _ | (_ | _) | _
  · exact absurd rfl h
  · by_cases hrotate : a.consecutiveRejections + 1 ≥ 2 <;>
      simp [AgentState.settle, AgentState.noteRejection, AgentState.rotateBoot, hrotate]
  · rfl
  · rfl

/-- A heartbeat is recorded: its nonce is the current one, the current one the previous one. -/
lemma Link.Agrees.recorded (h : s.Agrees) {p : Pending} {row : AgentRow} {now : ℤ}
    (hphase : s.phase = .read p)
    (hrow : recordHeartbeat s.server.row p.hb p.clockOffsetMs p.eventWritten now = some row) :
    Link.Agrees { s.changeRow row with phase := .answered p.hb .accepted } := by
  obtain ⟨hcurrent, hprev⟩ := recordHeartbeat_nonces hrow (h.read p hphase)
  have hnotAccepted : ¬ s.phase.Accepted := by rw [hphase]; exact id
  constructor
  · rintro hb ⟨⟩
  · rintro q ⟨⟩
  · rintro hb ⟨⟩
    exact hcurrent
  · intro hlost hlast hnot
    exact absurd rfl hnot
  · intro hlost hnot
    have hlast : ¬ LastLost s.outcomes := fun hlast => hnot ⟨hlast, rfl⟩
    rcases h.current hlost hlast hnotAccepted with hempty | hpublished
    · exact .inl hempty
    · refine .inr ?_
      rcases hprev with hsame | hprev
      · exact .inl (hpublished.trans (hsame.trans hcurrent.symm))
      · exact .inr (hpublished.trans hprev.symm)

/-- The answer, or its loss: only an acknowledgement matters. -/
lemma Link.Agrees.done (h : s.Agrees) {hb : Heartbeat} {response : Response} {outcome : Outcome}
    (hphase : s.phase = .answered hb response) (hresponse : response ≠ .accepted)
    (houtcome : outcome.ack = none) (hidle : s'.phase = .idle)
    (hpublished : s'.agent.publishedNonce = s.agent.publishedNonce)
    (hrow : s'.server.row = s.server.row) (houtcomes : s'.outcomes = s.outcomes ++ [outcome]) :
    s'.Agrees := by
  refine h.frame_of_not_accepted ?_ ?_ hpublished hrow ?_ ?_ ?_
  · rwa [hphase]
  · rw [hidle]
    exact id
  · rw [houtcomes, acks_concat_none houtcome]
  · rw [hidle]
    rintro _ ⟨⟩
  · rw [hidle]
    rintro _ ⟨⟩

lemma Link.Agrees.responseLost (h : s.Agrees) {hb : Heartbeat} {response : Response}
    (hphase : s.phase = .answered hb response) :
    Link.Agrees (s.finish s.agent (.responseLost response)) := by
  by_cases hresponse : response = .accepted
  · subst hresponse
    constructor
    · rintro _ ⟨⟩
    · rintro _ ⟨⟩
    · rintro _ ⟨⟩
    · intro hlost hlast
      exact absurd (by simp [LastLost, Link.finish, acks_concat, Outcome.ack]) hlast
    · intro hlost _
      exact h.held hlost.init fun hboth => hlost.not_lastLost hboth.1
  · exact h.done hphase hresponse (by simp [Outcome.ack, hresponse]) rfl rfl rfl rfl

lemma Link.Agrees.answered (h : s.Agrees) {hb : Heartbeat} {response : Response} {uuid : String}
    (hphase : s.phase = .answered hb response) : Link.Agrees (s.answer hb response uuid) := by
  by_cases hresponse : response = .accepted
  · subst hresponse
    have hpublished : (s.answer hb .accepted uuid).agent.publishedNonce = s.server.row.attestNonce :=
      (h.accepted hb hphase).symm
    constructor
    · rintro _ ⟨⟩
    · rintro _ ⟨⟩
    · rintro _ ⟨⟩
    · intro _ _ _
      exact .inr hpublished
    · intro _ _
      exact .inr (.inl hpublished)
  · exact h.done hphase hresponse (by simp [Outcome.ack, hresponse]) rfl
      (settle_publishedNonce hresponse) rfl rfl

theorem Link.Agrees.moves (h : s.Agrees) (hmoves : s.Moves s') : s'.Agrees := by
  cases hmoves with
  | send nonce report hphase hnonce =>
      refine h.frame_of_not_accepted (by rw [hphase]; exact id) id rfl rfl rfl ?_ ?_
      · rintro hb ⟨⟩
        exact ⟨hnonce, rfl⟩
      · rintro _ ⟨⟩
  | requestLost hb hphase =>
      refine h.frame_of_not_accepted (by rw [hphase]; exact id) id rfl rfl (acks_concat_none rfl) ?_ ?_
      · rintro _ ⟨⟩
      · rintro _ ⟨⟩
  | limited hb hphase =>
      refine h.frame_of_not_accepted (by rw [hphase]; exact id) (by rintro ⟨⟩) rfl rfl rfl ?_ ?_
      · rintro _ ⟨⟩
      · rintro _ ⟨⟩
  | refused hb server err hphase hrow _ =>
      refine h.frame_of_not_accepted (by rw [hphase]; exact id) (by rintro ⟨⟩) rfl hrow rfl ?_ ?_
      · rintro _ ⟨⟩
      · rintro _ ⟨⟩
  | replayed hb server hphase hbuffered _ => simp [(h.sent hb hphase).2] at hbuffered
  | read p server hphase hrow =>
      refine h.frame_of_not_accepted (by rw [hphase]; exact id) id rfl hrow rfl ?_ ?_
      · rintro _ ⟨⟩
      · rintro q ⟨⟩
        exact (h.sent p.hb hphase).1
  | recorded p row now hphase hrow => exact h.recorded hphase hrow
  | notRecorded p hphase _ =>
      refine h.frame_of_not_accepted (by rw [hphase]; exact id) (by rintro ⟨⟩) rfl rfl rfl ?_ ?_
      · rintro _ ⟨⟩
      · rintro _ ⟨⟩
  | responseLost hb response hphase => exact h.responseLost hphase
  | answered hb response uuid hphase _ => exact h.answered hphase
  | rowChanged row _ hnonce hprev =>
      exact h.frame rfl hnonce hprev rfl Iff.rfl h.sent h.read fun _ => id
  | restart uuid hphase _ =>
      constructor
      · exact h.sent
      · exact h.read
      · exact h.accepted
      · exact fun _ _ _ => .inl rfl
      · exact fun _ _ => .inl rfl

lemma Link.agrees_meet {agent : AgentState} {server : Server} (h : agent.publishedNonce = "") :
    (Link.meet agent server).Agrees where
  sent _ hphase := by cases hphase
  read _ hphase := by cases hphase
  accepted _ hphase := by cases hphase
  current _ _ _ := .inl h
  held _ _ := .inl h

end Moves

/-! ## The runs -/

/-- An agent that publishes no nonce yet, with any server: where no two accepted heartbeats in
succession lose their acknowledgements, the nonce that it comes to publish is the current or the
previous one, and proves it while the enrollment is not revoked, unless an acknowledgement is under way
right after one that was lost. -/
theorem published_nonce_accepted (agent : AgentState) (server : Server) (s : Link)
    (hagent : agent.publishedNonce = "") (h : Go.Reach Link.step (.meet agent server) s)
    (hlost : NoTwoLost s.outcomes) (hway : ¬ (LastLost s.outcomes ∧ s.phase.Accepted))
    (hnonce : s.agent.publishedNonce ≠ "") :
    s.server.row.Holds s.agent.publishedNonce ∧
      (s.server.row.revokedAt = none → verifyNonce s.server.row s.agent.publishedNonce = true) := by
  have hagrees : s.Agrees := h.invariant (Link.agrees_meet hagent) fun _ _ _ hs hstep =>
    hs.moves (Link.moves_of_step hstep)
  have hholds := (hagrees.held hlost hway).resolve_left hnonce
  exact ⟨hholds, fun hlive => verifyNonce_eq_true_iff.mpr ⟨hnonce, hlive, hholds⟩⟩

/-- A heartbeat on its way and back. -/
def exchange (nonce uuid : String) (now : ℤ) : List Action :=
  [.send nonce ⟨none, "1", 47615, "s"⟩, .receive 300 now, .record now, .answer uuid]

/-- A heartbeat that is accepted, its acknowledgement lost. -/
def unheard (nonce : String) (now : ℤ) : List Action :=
  [.send nonce ⟨none, "1", 47615, "s"⟩, .receive 300 now, .record now, .loseResponse]

/-- Lost acknowledgements, a shutdown with the rejections after it, and one more lost. -/
def noncesSample : List Action :=
  exchange "n1" "u1" 1 ++ unheard "n2" 2 ++ exchange "n3" "u2" 3 ++ [.shutdown "" 4] ++
    exchange "n4" "u3" 5 ++ exchange "n5" "u4" 6 ++ exchange "n6" "u5" 7 ++ unheard "n7" 8

theorem published_nonce_accepted_sample :
    ((Go.run Link.step noncesSample (.enrolled "u0" "1")).getD (.enrolled "u0" "1")).server.row.Holds
      "n6" :=
  (published_nonce_accepted (.new "u0") ⟨.enrolled "1", [], []⟩ _ rfl (Go.Reach.run_getD noncesSample)
    (by decide) (by decide) (by decide)).1

/-- The acknowledgement of the second heartbeat is lost, that of the third is under way. -/
theorem published_nonce_overtaken :
    ¬ ∀ (uuid agentVersion : String) (s : Link), Go.Reach Link.step (.enrolled uuid agentVersion) s →
      NoTwoLost s.outcomes → s.agent.publishedNonce ≠ "" →
      s.server.row.Holds s.agent.publishedNonce := by
  intro h
  have hrun := h "u0" "1" _ (Go.Reach.run_getD
    (exchange "n1" "u1" 1 ++ unheard "n2" 2 ++ (exchange "n3" "u2" 3).take 3))
  revert hrun
  decide

end Agent

end Labyrithm
