import Mathlib.Data.List.DropRight
import Labyrithm.Agent.Scheduler

/-!
# Heartbeats are accepted again

A heartbeat is rejected for two reasons, a sequence number that the row knows of and a stop; both
hold of the boot in the row only.  The agent starts a new boot at the second rejection, and at every
one after it until a heartbeat is acknowledged.

* `rejections` — the number of heartbeats rejected in a row, at the end of a history.
* `Link.Recovers` — after two of them, the boot of the agent is not the one in the row.
* **`accepted_within_three`** — of three heartbeats in succession that are all answered, and neither
  limited nor refused for a revocation, one is accepted, whatever the two sides started from.
-/

namespace Labyrithm

namespace Agent

/-- The heartbeat was refused by the server, for its boot. -/
def Outcome.rejected : Outcome := .answered (.refused .unknownAgent)

/-- The heartbeats rejected in succession at the end of a history. -/
def rejections (outcomes : List Outcome) : ℕ :=
  (outcomes.rtakeWhile fun o => o = .rejected).length

/-- A heartbeat whose request and response were delivered, not limited, of a live enrollment. -/
def Outcome.Delivered : Outcome → Prop
  | answered response => response ≠ .limited ∧ response ≠ .refused .revoked
  | requestLost | responseLost _ => False

instance : (o : Outcome) → Decidable o.Delivered
  | .answered _ => inferInstanceAs (Decidable (_ ∧ _))
  | .requestLost | .responseLost _ => .isFalse id

lemma rejections_concat_rejected (outcomes : List Outcome) :
    rejections (outcomes ++ [.rejected]) = rejections outcomes + 1 := by
  simp [rejections]

lemma rejections_concat {outcomes : List Outcome} {o : Outcome} (h : o ≠ .rejected) :
    rejections (outcomes ++ [o]) = 0 := by
  simp [rejections, h]

lemma Outcome.Delivered.cases {o : Outcome} (h : o.Delivered) :
    o = .answered .accepted ∨ o = .rejected := by
  rcases o with (_ | (_ | _) | _) | _ | _
  · exact .inl rfl
  · exact .inr rfl
  · exact absurd rfl h.2
  · exact absurd rfl h.1
  · exact h.elim
  · exact h.elim

/-! ## The invariant -/

/-- The agent has a boot of its own: not the one in the row. -/
def Link.NewBoot (s : Link) : Prop := s.server.row.bootId ≠ some s.agent.bootId

/-- The agent has counted its last rejection. -/
def Link.Counted (s : Link) : Prop := rejections s.outcomes = 1 ∧ 1 ≤ s.agent.consecutiveRejections

/-- Once a heartbeat was rejected, the agent has counted it or has a new boot; a heartbeat that is
rejected is so for the boot in the row. -/
structure Link.Recovers (s : Link) : Prop where
  agentBoot : s.agent.bootId ∈ s.boots
  rowBoot : ∀ b ∈ s.server.row.bootId, b ∈ s.boots
  sent : ∀ hb, s.phase = .sent hb → hb.bootId = s.agent.bootId
  read : ∀ p, s.phase = .read p → p.hb.bootId = s.agent.bootId
  recovers : (∀ hb, s.phase ≠ .answered hb .accepted) → 0 < rejections s.outcomes →
    s.Counted ∨ s.NewBoot
  rejected : ∀ hb, s.phase = .answered hb (.refused .unknownAgent) → 0 < rejections s.outcomes →
    s.Counted
  two : ∀ outcomes, outcomes <+: s.outcomes → rejections outcomes ≤ 2

section Moves

variable {s s' : Link}

/-- Steps that leave the boots and the counts alone. -/
lemma Link.Recovers.frame (h : s.Recovers) (hboot : s'.agent.bootId = s.agent.bootId)
    (hcount : s'.agent.consecutiveRejections = s.agent.consecutiveRejections)
    (hrow : s'.server.row.bootId = s.server.row.bootId) (hboots : s'.boots = s.boots)
    (houtcomes : s'.outcomes = s.outcomes)
    (hsent : ∀ hb, s'.phase = .sent hb → hb.bootId = s.agent.bootId)
    (hread : ∀ p, s'.phase = .read p → p.hb.bootId = s.agent.bootId)
    (hphase : (∀ hb, s'.phase ≠ .answered hb .accepted) → ∀ hb, s.phase ≠ .answered hb .accepted)
    (hrejected : ∀ hb, s'.phase = .answered hb (.refused .unknownAgent) →
      0 < rejections s.outcomes → s.Counted) : s'.Recovers where
  agentBoot := by
    rw [hboot, hboots]
    exact h.agentBoot
  rowBoot := by
    rw [hrow, hboots]
    exact h.rowBoot
  sent := by
    rw [hboot]
    exact hsent
  read := by
    rw [hboot]
    exact hread
  recovers hnot := by
    rw [Link.Counted, Link.NewBoot, houtcomes, hcount, hrow, hboot]
    exact h.recovers (hphase hnot)
  rejected := by
    rw [Link.Counted, houtcomes, hcount]
    exact hrejected
  two := by
    rw [houtcomes]
    exact h.two

/-- A heartbeat is done with and was not rejected. -/
lemma Link.Recovers.reset (h : s.Recovers) (outcome : Outcome) (houtcome : outcome ≠ .rejected)
    (hidle : s'.phase = .idle) (houtcomes : s'.outcomes = s.outcomes ++ [outcome])
    (hagent : s'.agent.bootId ∈ s'.boots) (hrow : ∀ b ∈ s'.server.row.bootId, b ∈ s'.boots) :
    s'.Recovers where
  agentBoot := hagent
  rowBoot := hrow
  sent hb hphase := by simp [hidle] at hphase
  read p hphase := by simp [hidle] at hphase
  recovers _ hpos := by simp [houtcomes, rejections_concat houtcome] at hpos
  rejected hb hphase := by simp [hidle] at hphase
  two outcomes hprefix := by
    rw [houtcomes, List.prefix_concat_iff] at hprefix
    rcases hprefix with rfl | hprefix
    · simp [rejections_concat houtcome]
    · exact h.two outcomes hprefix

/-- A heartbeat was rejected: the agent counts it, and has a new boot if it is the second. -/
lemma Link.Recovers.answered_rejected (h : s.Recovers) {hb : Heartbeat} {uuid : String}
    (hphase : s.phase = .answered hb (.refused .unknownAgent)) (huuid : uuid ∉ s.boots) :
    Link.Recovers (s.answer hb (.refused .unknownAgent) uuid) := by
  have hrejections : rejections (s.answer hb (.refused .unknownAgent) uuid).outcomes =
      rejections s.outcomes + 1 := rejections_concat_rejected _
  have hagent : (s.answer hb (.refused .unknownAgent) uuid).agent =
      if s.agent.consecutiveRejections + 1 ≥ 2 then s.agent.noteRejection.1.rotateBoot uuid
      else s.agent.noteRejection.1 := rfl
  have hcount : (s.answer hb (.refused .unknownAgent) uuid).agent.consecutiveRejections =
      s.agent.consecutiveRejections + 1 := by
    rw [hagent]
    split_ifs <;> rfl
  have hrowBoot : ∀ b ∈ s.server.row.bootId, b ≠ uuid := fun b hb heq =>
    huuid (heq ▸ h.rowBoot b hb)
  constructor
  · rw [hagent]
    split_ifs
    · exact List.mem_cons_self
    · exact List.mem_cons_of_mem _ h.agentBoot
  · exact fun b hb => List.mem_cons_of_mem _ (h.rowBoot b hb)
  · rintro _ ⟨⟩
  · rintro _ ⟨⟩
  · intro _ _
    rw [Link.Counted, hrejections, hcount]
    rcases Nat.eq_zero_or_pos (rejections s.outcomes) with hzero | hpos
    · exact .inl ⟨by omega, by omega⟩
    · obtain ⟨-, hcounted⟩ := h.rejected hb hphase hpos
      refine .inr ?_
      rw [Link.NewBoot, hagent, if_pos (by omega)]
      exact fun hboot => hrowBoot uuid hboot rfl
  · rintro _ ⟨⟩
  · intro outcomes hprefix
    have hle : rejections s.outcomes + 1 ≤ 2 := by
      rcases Nat.eq_zero_or_pos (rejections s.outcomes) with hzero | hpos
      · omega
      · have hone := (h.rejected hb hphase hpos).1
        omega
    rcases List.prefix_concat_iff.mp hprefix with rfl | hprefix
    · exact hrejections.trans_le hle
    · exact h.two outcomes hprefix

/-- The boot in the row is that of the agent, so the last rejection was the first. -/
lemma Link.Recovers.counted (h : s.Recovers) (hphase : ∀ hb, s.phase ≠ .answered hb .accepted)
    (hboot : s.server.row.bootId = some s.agent.bootId) (hpos : 0 < rejections s.outcomes) :
    s.Counted :=
  (h.recovers hphase hpos).resolve_right fun hnew => hnew hboot

lemma settle_bootId {a : AgentState} {nonce uuid : String} {response : Response}
    (h : response ≠ .refused .unknownAgent) :
    (a.settle nonce uuid (Transport.classify response.status)).bootId = a.bootId := by
  rw [classify_status]
  rcases response with _ | (_ | _) | _
  · rfl
  · exact absurd rfl h
  · rfl
  · rfl

lemma Link.Recovers.answered (h : s.Recovers) {hb : Heartbeat} {response : Response} {uuid : String}
    (hphase : s.phase = .answered hb response) (huuid : uuid ∉ s.boots) :
    Link.Recovers (s.answer hb response uuid) := by
  by_cases hresponse : response = .refused .unknownAgent
  · subst hresponse
    exact h.answered_rejected hphase huuid
  · refine h.reset (.answered response) (by simp [Outcome.rejected, hresponse]) rfl rfl ?_ ?_
    · have hboot : (s.answer hb response uuid).agent.bootId = s.agent.bootId := settle_bootId hresponse
      rw [hboot]
      exact List.mem_cons_of_mem _ h.agentBoot
    · exact fun b hb => List.mem_cons_of_mem _ (h.rowBoot b hb)

theorem Link.Recovers.moves (h : s.Recovers) (hmoves : s.Moves s') : s'.Recovers := by
  cases hmoves with
  | send nonce report hphase _ =>
      refine h.frame rfl rfl rfl rfl rfl ?_ ?_ ?_ ?_
      · rintro hb ⟨⟩
        rfl
      · rintro _ ⟨⟩
      · intro _ hb
        simp [hphase]
      · rintro _ ⟨⟩
  | requestLost hb hphase =>
      exact h.reset .requestLost (by simp [Outcome.rejected]) rfl rfl h.agentBoot h.rowBoot
  | limited hb hphase =>
      refine h.frame rfl rfl rfl rfl rfl ?_ ?_ ?_ ?_
      · rintro _ ⟨⟩
      · rintro _ ⟨⟩
      · intro _ hb
        simp [hphase]
      · rintro _ ⟨⟩
  | refused hb server err hphase hrow herr =>
      have hnot : ∀ hb, s.phase ≠ .answered hb .accepted := by simp [hphase]
      refine h.frame rfl rfl (congrArg _ hrow) rfl rfl ?_ ?_ (fun _ => hnot) ?_
      · rintro _ ⟨⟩
      · rintro _ ⟨⟩
      · rintro _ hrefused
        obtain ⟨rfl, rfl⟩ : hb = _ ∧ err = .unknownAgent := by simpa using hrefused
        exact h.counted hnot (h.sent hb hphase ▸ herr rfl)
  | replayed hb server hphase _ hrow =>
      refine h.frame rfl rfl (congrArg _ hrow) rfl rfl ?_ ?_ ?_ ?_
      · rintro _ ⟨⟩
      · rintro _ ⟨⟩
      · intro hnot
        exact absurd rfl (hnot hb)
      · rintro _ ⟨⟩
  | read p server hphase hrow =>
      refine h.frame rfl rfl (congrArg _ hrow) rfl rfl ?_ ?_ ?_ ?_
      · rintro _ ⟨⟩
      · rintro q ⟨⟩
        exact h.sent p.hb hphase
      · intro _ hb
        simp [hphase]
      · rintro _ ⟨⟩
  | recorded p row now hphase hrow =>
      have hboot := (recordHeartbeat_eq_some hrow).1
      constructor
      · exact h.agentBoot
      · intro b hb
        obtain rfl : p.hb.bootId = b := by simpa [Link.changeRow, hboot] using hb
        exact h.read p hphase ▸ h.agentBoot
      · rintro _ ⟨⟩
      · rintro _ ⟨⟩
      · intro hnot
        exact absurd rfl (hnot p.hb)
      · rintro _ ⟨⟩
      · exact h.two
  | notRecorded p hphase hstopped =>
      have hnot : ∀ hb, s.phase ≠ .answered hb .accepted := by simp [hphase]
      refine h.frame rfl rfl rfl rfl rfl ?_ ?_ (fun _ => hnot) ?_
      · rintro _ ⟨⟩
      · rintro _ ⟨⟩
      · intro _ _
        exact h.counted hnot (h.read p hphase ▸ hstopped.2)
  | responseLost hb response hphase =>
      exact h.reset (.responseLost response) (by simp [Outcome.rejected]) rfl rfl h.agentBoot h.rowBoot
  | answered hb response uuid hphase huuid => exact h.answered hphase huuid
  | rowChanged row hboot _ _ =>
      exact h.frame rfl rfl hboot rfl rfl h.sent h.read (fun hnot => hnot) h.rejected
  | restart uuid hphase huuid =>
      constructor
      · exact List.mem_cons_self
      · exact fun b hb => List.mem_cons_of_mem _ (h.rowBoot b hb)
      · intro hb hsent
        simp [Link.restart, hphase] at hsent
      · intro p hread
        simp [Link.restart, hphase] at hread
      · intro _ _
        exact .inr fun hboot => huuid (h.rowBoot uuid hboot)
      · intro hb hrejected
        simp [Link.restart, hphase] at hrejected
      · exact h.two

lemma Link.recovers_meet (agent : AgentState) (server : Server) :
    (Link.meet agent server).Recovers where
  agentBoot := List.mem_cons_self
  rowBoot b hb := List.mem_cons_of_mem _ (Option.mem_toList.mpr hb)
  sent _ hphase := by cases hphase
  read _ hphase := by cases hphase
  recovers _ hpos := by simp [Link.meet, rejections] at hpos
  rejected _ hphase := by cases hphase
  two outcomes hprefix := by simp [List.prefix_nil.mp hprefix, rejections]

end Moves

/-! ## The runs -/

/-- Whatever sequence numbers, boots and marks the two sides start from, and whatever was lost or
stopped before: of three heartbeats in succession that are delivered with their responses, one is
accepted, also where shutdowns come in between. -/
theorem accepted_within_three (agent : AgentState) (server : Server) (s : Link)
    (h : Go.Reach Link.step (.meet agent server) s) (before after : List Outcome) (x y z : Outcome)
    (houtcomes : s.outcomes = before ++ [x, y, z] ++ after)
    (hdelivered : ∀ o ∈ [x, y, z], o.Delivered) : .answered .accepted ∈ [x, y, z] := by
  have hrecovers : s.Recovers := h.invariant (Link.recovers_meet agent server) fun _ _ _ hs hstep =>
    hs.moves (Link.moves_of_step hstep)
  by_contra hnone
  have hrejected : ∀ o ∈ [x, y, z], o = .rejected := fun o ho =>
    (hdelivered o ho).cases.resolve_left fun haccepted => hnone (haccepted ▸ ho)
  obtain ⟨rfl, rfl, rfl⟩ : x = .rejected ∧ y = .rejected ∧ z = .rejected := by simpa using hrejected
  have hle := hrecovers.two (before ++ [.rejected, .rejected, .rejected]) ⟨after, houtcomes.symm⟩
  have hthree : rejections (before ++ [.rejected] ++ [.rejected] ++ [.rejected]) =
      rejections before + 3 := by simp only [rejections_concat_rejected]
  simp only [List.append_assoc, List.cons_append, List.nil_append] at hthree
  omega

/-- A stop between the `SELECT` and the `UPDATE`, one more afterwards, and the first of a new boot. -/
def recoverySample : List Action :=
  [.send "n1" ⟨none, "1", 47615, "s"⟩, .receive 300 1, .record 1, .loseResponse,
    .send "n2" ⟨none, "1", 47615, "s"⟩, .receive 300 2, .shutdown "" 2, .record 2, .answer "u1",
    .send "n3" ⟨none, "1", 47615, "s"⟩, .receive 300 3, .record 3, .answer "u2",
    .send "n4" ⟨none, "1", 47615, "s"⟩, .receive 300 4, .record 4, .answer "u3"]

theorem accepted_within_three_sample :
    Outcome.answered .accepted ∈
      [.answered (.refused .unknownAgent), .answered (.refused .unknownAgent), .answered .accepted] :=
  accepted_within_three (.new "u0") ⟨.enrolled "1", [], []⟩ _ (Go.Reach.run_getD recoverySample)
    [.responseLost .accepted] [] _ _ _ (by decide) (by decide)

end Agent

end Labyrithm
