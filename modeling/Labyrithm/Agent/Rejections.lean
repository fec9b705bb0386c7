import Labyrithm.Agent.Heartbeat
import Labyrithm.Proctor.Findings

/-!
# Rejected heartbeats

A heartbeat is rejected when its enrollment is revoked, when its sequence number is known to the boot in
the row, and by the condition of the `UPDATE`, when its boot has been stopped by then.  The first two are
decided before anything is written.  The third is decided last: findings and an event are there already.

Between the moment a request reads the row and its `UPDATE` there may be others, so the two are about
two states of the tables.  How a time is written in the evidence of a finding is a parameter (`stamp`).

* `receive_of_fresh` — what a heartbeat writes before its `UPDATE`.
* **`noTrace_iff`** — which rejected heartbeats leave no trace.
-/

namespace Labyrithm

namespace Agent

/-! ## Findings -/

/-- The evidence of a record. -/
def Record.evidence (stamp : Option ℤ → Proctor.Value) : Record → Proctor.Evidence
  | seqReplay bootId reportedSeq knownSeq =>
      [("boot_id", .text bootId), ("reported_seq", .number reportedSeq), ("known_seq", .number knownSeq)]
  | agentCrash previousBootId newBootId lastSeenAt =>
      [("previous_boot_id", (previousBootId.map Proctor.Value.text).getD (.json "null")),
        ("new_boot_id", .text newBootId), ("last_seen_at", stamp lastSeenAt)]
  | clockSkew deltaMs agentWall serverWall =>
      [("delta_ms", .number deltaMs), ("agent_wall", stamp agentWall),
        ("server_wall", stamp (some serverWall))]

/-- What `record` hands to `RecordEvent`. -/
def Record.observation (stamp : Option ℤ → Proctor.Value) (r : Record) : Proctor.Observation :=
  ⟨r.ruleId, r.weight, r.evidence stamp⟩

/-- The tables of the proctor: the row of one enrollment, the events of its user, and the findings. -/
structure Tables where
  row : AgentRow
  events : List TelemetryEvent
  findings : Proctor.Db

/-- What a request goes by beside the tables: the user of the enrollment, the catalogue of rules, the
policy, and the time. -/
structure Context where
  userID : String
  rules : Proctor.Catalogue
  stamp : Option ℤ → Proctor.Value
  keepaliveSeconds : ℤ
  now : ℤ

/-- `record`. -/
def Context.observe (r : Context) (record : Record) (db : Proctor.Db) : Proctor.Db :=
  Proctor.observe r.rules r.userID (record.observation r.stamp) r.now db

/-- The finding of a record is filed. -/
def Context.Files (r : Context) (db : Proctor.Db) (record : Record) : Prop :=
  db.Records r.rules r.userID (record.observation r.stamp)

instance (r : Context) (db : Proctor.Db) (record : Record) : Decidable (r.Files db record) :=
  inferInstanceAs (Decidable (Proctor.Db.Records _ _ _ _))

/-! ## A request -/

/-- `requireAgent` and `Heartbeat` up to `RecordHeartbeat`, with the findings that it files. -/
def Tables.receive (r : Context) (hb : Heartbeat) (s : Tables) : Tables × Received :=
  let (server, received) := Server.receive ⟨s.row, s.events, []⟩ r.keepaliveSeconds hb r.now
  (⟨server.row, server.events, server.records.foldl (fun db record => r.observe record db) s.findings⟩,
    received)

/-- `RecordHeartbeat`, and the error that `Heartbeat` returns then. -/
def Tables.record (p : Pending) (now : ℤ) (s : Tables) : Tables × Option Err :=
  match recordHeartbeat s.row p.hb p.clockOffsetMs p.eventWritten now with
  | some row => ({ s with row := row }, none)
  | none => (s, some .unknownAgent)

/-- The rest of a request, at a time and on tables of its own. -/
def Tables.finish (received : Received) (now : ℤ) (s : Tables) : Tables × Option Err :=
  match received with
  | .refused err => (s, some err)
  | .replayed => (s, none)
  | .pending p => s.record p now

/-- The tables are the same, but for the finding of a replay. -/
structure Tables.Same (userID : String) (s s' : Tables) : Prop where
  row : s'.row = s.row
  events : s'.events = s.events
  findings : ∀ user rule, (user = userID → rule ≠ "tel.seq_replay") →
    (s'.findings.findings user).get? rule = (s.findings.findings user).get? rule

lemma Tables.Same.refl (userID : String) (s : Tables) : s.Same userID s := ⟨rfl, rfl, fun _ _ _ => rfl⟩

section Filed

variable {r : Context} {db : Proctor.Db} {record : Record}

/-- What is filed changes its finding. -/
lemma observe_ne (hfiles : r.Files db record) :
    ((r.observe record db).findings r.userID).get? record.ruleId ≠
      (db.findings r.userID).get? record.ruleId := by
  rw [Context.observe, Proctor.finding_observe, if_pos ⟨hfiles, rfl, rfl⟩]
  show some (Proctor.fileFinding ((db.findings r.userID).get? record.ruleId) _ _ _) ≠ _
  cases (db.findings r.userID).get? record.ruleId with
  | none => exact Option.some_ne_none _
  | some f =>
      intro heq
      have hcount := congrArg Proctor.Finding.occurrences (Option.some.inj heq)
      simp [Proctor.fileFinding] at hcount

lemma observe_of_not_files (hfiles : ¬ r.Files db record) : r.observe record db = db :=
  Proctor.observe_of_not_records hfiles

/-- Another finding stays. -/
lemma observe_of_ne {user rule : String} (h : user = r.userID → rule ≠ record.ruleId) :
    ((r.observe record db).findings user).get? rule = (db.findings user).get? rule := by
  rw [Context.observe, Proctor.finding_observe, if_neg]
  rintro ⟨-, huser, hrule⟩
  exact h huser hrule

end Filed

/-! ## What a heartbeat writes -/

/-- The heartbeat has nothing to report: its signals are not new, no keepalive is due, its boot is none
that follows another, and its clock shows what it did, or nobody files that. -/
def Heartbeat.Silent (hb : Heartbeat) (r : Context) (s : Tables) : Prop :=
  writeEvent r.keepaliveSeconds s.row hb (classify s.row hb r.now) r.now = false ∧
    (clockSkew s.row hb r.now ≠ 0 →
      ¬ r.Files s.findings (.clockSkew (clockSkew s.row hb r.now) hb.wallTs r.now))

instance (hb : Heartbeat) (r : Context) (s : Tables) : Decidable (hb.Silent r s) :=
  inferInstanceAs (Decidable (_ ∧ (_ → _)))

section Receive

variable {r : Context} {hb : Heartbeat} {s : Tables}

/-- A revoked enrollment is refused. -/
lemma receive_of_revoked (hrevoked : s.row.revokedAt.isSome = true) :
    s.receive r hb = (s, .refused .revoked) := by
  simp [Tables.receive, Server.receive, getByToken, hrevoked]

/-- A replay is refused, with its finding. -/
lemma receive_of_repeated (hrevoked : s.row.revokedAt = none) (hlive : hb.buffered = false)
    (hrepeated : hb.Repeated s.row) :
    s.receive r hb =
      ({ s with findings := r.observe (.seqReplay hb.bootId hb.seq s.row.seq) s.findings },
        .refused .unknownAgent) := by
  have hreplay : (classify s.row hb r.now).seqReplay = true := classify_seqReplay_iff.mpr hrepeated
  simp [Tables.receive, Server.receive, Server.judge, Server.note, getByToken, hrevoked, hlive, hreplay]

/-- The findings of a heartbeat that is no replay. -/
def integrityRecords (row : AgentRow) (hb : Heartbeat) (now : ℤ) : List Record :=
  let integ := classify row hb now
  (if integ.newBoot && !integ.cleanRestart then [.agentCrash row.bootId hb.bootId row.lastSeenAt] else []) ++
    if integ.clockSkewMs ≠ 0 then [.clockSkew integ.clockSkewMs hb.wallTs now] else []

/-- Any other live heartbeat goes on to its `UPDATE`, with its findings and, where one is written, its
event. -/
lemma receive_of_fresh (hrevoked : s.row.revokedAt = none) (hlive : hb.buffered = false)
    (hrepeated : ¬ hb.Repeated s.row) :
    s.receive r hb =
      (⟨s.row,
        if writeEvent r.keepaliveSeconds s.row hb (classify s.row hb r.now) r.now then
          s.events ++ [⟨hb.bootId, hb.seq, eventType s.row hb (classify s.row hb r.now), hb.signalHash, r.now⟩]
        else s.events,
        (integrityRecords s.row hb r.now).foldl (fun db record => r.observe record db) s.findings⟩,
        .pending ⟨hb, clockOffset hb r.now,
          writeEvent r.keepaliveSeconds s.row hb (classify s.row hb r.now) r.now⟩) := by
  have hreplay : (classify s.row hb r.now).seqReplay = false :=
    Bool.eq_false_iff.mpr (mt classify_seqReplay_iff.mp hrepeated)
  simp only [Tables.receive, Server.receive, getByToken, hrevoked, hlive, Server.judge, hreplay,
    integrityRecords, Server.noteIntegrity, Server.note, Server.append, Option.isSome_none,
    Bool.false_eq_true, if_false]
  split_ifs <;> rfl

/-- A buffered heartbeat is not rejected. -/
lemma receive_of_buffered (hrevoked : s.row.revokedAt = none) (hbuffered : hb.buffered = true) :
    (s.receive r hb).2 = .replayed := by
  simp [Tables.receive, Server.receive, getByToken, hrevoked, hbuffered]

end Receive

/-- Without an event there is no new boot. -/
lemma newBoot_of_not_writeEvent {k now : ℤ} {row : AgentRow} {hb : Heartbeat} {integ : Integrity}
    (h : writeEvent k row hb integ now = false) : integ.newBoot = false := by
  rw [writeEvent, Bool.or_eq_false_iff] at h
  exact h.2

/-- Then the findings are those of the clock. -/
lemma integrityRecords_of_not_writeEvent {k now : ℤ} {row : AgentRow} {hb : Heartbeat}
    (h : writeEvent k row hb (classify row hb now) now = false) :
    integrityRecords row hb now =
      if clockSkew row hb now ≠ 0 then [.clockSkew (clockSkew row hb now) hb.wallTs now] else [] := by
  have hboot := newBoot_of_not_writeEvent h
  simp only [integrityRecords, hboot, Bool.false_and, Bool.false_eq_true, if_false, List.nil_append]
  rfl

/-! ## Traces -/

/-- The request in `s`, with its `UPDATE` in `s'`, answers with an error. -/
def Rejected (r : Context) (hb : Heartbeat) (s s' : Tables) (now' : ℤ) : Prop :=
  (s'.finish (s.receive r hb).2 now').2.isSome

instance (r : Context) (hb : Heartbeat) (s s' : Tables) (now' : ℤ) : Decidable (Rejected r hb s s' now') :=
  inferInstanceAs (Decidable (_ = true))

/-- Neither what the request does in `s` nor what it does in `s'` changes anything but the finding of a
replay. -/
def NoTrace (r : Context) (hb : Heartbeat) (s s' : Tables) (now' : ℤ) : Prop :=
  s.Same r.userID (s.receive r hb).1 ∧ s'.Same r.userID (s'.finish (s.receive r hb).2 now').1

section Traces

variable {r : Context} {hb : Heartbeat} {s s' : Tables} {now' : ℤ}

/-- A rejection changes nothing by itself. -/
lemma finish_of_rejected {received : Received} (h : (s'.finish received now').2.isSome) :
    (s'.finish received now').1 = s' := by
  cases received with
  | refused err => rfl
  | replayed => rfl
  | pending p =>
      rw [Tables.finish, Tables.record] at h ⊢
      cases hrow : recordHeartbeat s'.row p.hb p.clockOffsetMs p.eventWritten now' with
      | none => rfl
      | some row => simp [hrow] at h

/-- What is neither refused nor buffered leaves no trace where it is silent. -/
lemma same_of_fresh_iff (hrevoked : s.row.revokedAt = none) (hlive : hb.buffered = false)
    (hrepeated : ¬ hb.Repeated s.row) : s.Same r.userID (s.receive r hb).1 ↔ hb.Silent r s := by
  rw [receive_of_fresh hrevoked hlive hrepeated]
  constructor
  · intro hsame
    have hwrite : writeEvent r.keepaliveSeconds s.row hb (classify s.row hb r.now) r.now = false := by
      rw [Bool.eq_false_iff]
      intro hwritten
      have hevents := hsame.events
      rw [if_pos hwritten] at hevents
      simp at hevents
    refine ⟨hwrite, fun hskew hfiles => ?_⟩
    have hfindings := hsame.findings r.userID "tel.clock_skew" fun _ => by decide
    rw [integrityRecords_of_not_writeEvent hwrite, if_pos hskew] at hfindings
    exact observe_ne hfiles hfindings
  · rintro ⟨hwrite, hskew⟩
    rw [integrityRecords_of_not_writeEvent hwrite, hwrite]
    have hfindings : (if clockSkew s.row hb r.now ≠ 0 then
        [Record.clockSkew (clockSkew s.row hb r.now) hb.wallTs r.now] else []).foldl
          (fun db record => r.observe record db) s.findings = s.findings := by
      split_ifs with h
      · exact observe_of_not_files (hskew h)
      · rfl
    rw [hfindings]
    exact Tables.Same.refl r.userID s

/-- A rejected heartbeat leaves no trace where its enrollment is revoked, where its sequence number is
known, and where it has nothing to report. -/
theorem noTrace_iff (hrejected : Rejected r hb s s' now') :
    NoTrace r hb s s' now' ↔ s.row.revokedAt.isSome ∨ hb.Repeated s.row ∨ hb.Silent r s := by
  have hsecond : s'.Same r.userID (s'.finish (s.receive r hb).2 now').1 := by
    rw [finish_of_rejected hrejected]
    exact Tables.Same.refl r.userID s'
  rw [NoTrace, and_iff_left hsecond]
  cases hrevoked : s.row.revokedAt with
  | some t =>
      have hsome : s.row.revokedAt.isSome = true := by rw [hrevoked]; rfl
      rw [receive_of_revoked hsome]
      simp [Tables.Same.refl r.userID s]
  | none =>
      have hlive : hb.buffered = false := by
        rw [Bool.eq_false_iff]
        intro hbuffered
        rw [Rejected, receive_of_buffered hrevoked hbuffered] at hrejected
        cases hrejected
      by_cases hrepeated : hb.Repeated s.row
      · rw [receive_of_repeated hrevoked hlive hrepeated]
        have hsame : s.Same r.userID
            { s with findings := r.observe (.seqReplay hb.bootId hb.seq s.row.seq) s.findings } :=
          ⟨rfl, rfl, fun user rule h => observe_of_ne h⟩
        simp [hrepeated, hsame]
      · rw [same_of_fresh_iff hrevoked hlive hrepeated]
        simp [hrepeated]

end Traces

/-! ## A stopped boot -/

/-- A request of the sample, under the default policy. -/
def sampleContext (now : ℤ) : Context := ⟨"u", none, fun _ => .json "null", 300, now⟩

/-- A heartbeat of the sample, with the signals that it reports. -/
def sampleBeat (seq : ℤ) (signalHash : String) : Heartbeat :=
  ⟨"b", seq, none, "1.0", 7000, "n", signalHash, false, true⟩

/-- An enrollment, its first heartbeat, and a shutdown. -/
def stoppedTables : Tables :=
  let enrolled : Tables := ⟨.enrolled "1.0", [], ⟨["u"], ["tel.clock_skew"], fun _ => ∅, fun _ => none⟩⟩
  let (received, p) := enrolled.receive (sampleContext 0) (sampleBeat 1 "h")
  let live := (received.finish p 0).1
  { live with row := shutdown live.row "" Go.second }

/-- The agent goes on after the shutdown.  With other signals than before its heartbeat is rejected, and
its event stays. -/
theorem noTrace_broken :
    ¬ ∀ (r : Context) (hb : Heartbeat) (s s' : Tables) (now' : ℤ), Rejected r hb s s' now' →
      NoTrace r hb s s' now' := by
  intro h
  have hrejected : Rejected (sampleContext (2 * Go.second)) (sampleBeat 2 "h'") stoppedTables stoppedTables
      (2 * Go.second) := by
    decide +kernel
  have hevents := (h _ _ _ _ _ hrejected).1.events
  exact absurd hevents (by decide +kernel)

/-- With the signals of before there is no trace. -/
theorem noTrace_iff_sample :
    NoTrace (sampleContext (2 * Go.second)) (sampleBeat 2 "h") stoppedTables stoppedTables
      (2 * Go.second) := by
  have hrejected : Rejected (sampleContext (2 * Go.second)) (sampleBeat 2 "h") stoppedTables stoppedTables
      (2 * Go.second) := by
    decide +kernel
  exact (noTrace_iff hrejected).mpr (.inr (.inr (by decide +kernel)))

end Agent

end Labyrithm
