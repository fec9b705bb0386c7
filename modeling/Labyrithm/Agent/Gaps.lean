import Labyrithm.Agent.Heartbeat
import Labyrithm.Go.Runs

/-!
# Telemetry gaps

`Sweep` of `backend/internal/agent/service.go` with the statements behind it, and the operations that
change `proctor_agents` meanwhile.  Every statement is an atomic section and takes the time at which it
runs; there is one sweeper, and its statements may fail.  The indexes allow a contestant one live
enrollment and one open gap.

Closing asks for a live enrollment that is stopped or fresh.  A contestant whose enrollment is revoked has
none, and the gap stays open.

* `Fleet.step` — one statement.
* `Fleet.Sane` — what the indexes say.
* `Orderly` — when the gaps are closed every contestant with an open one has a live enrollment, and nobody
  touches it before the gaps are opened.
* **`settled_of_orderly`** — after a sweep whose steps are all orderly, open gaps and silent contestants are
  the same.
-/

namespace Labyrithm

namespace Agent

/-! ## Tables -/

/-- A row of `proctor_agents`, with its contestant. -/
structure FleetAgent where
  id : ℕ
  userId : String
  enrolledAt : ℤ
  row : AgentRow
  deriving DecidableEq, Repr

namespace FleetAgent

/-- The row is in `idx_proctor_agents_live`. -/
def live (a : FleetAgent) : Bool := a.row.revokedAt.isNone

/-- `COALESCE(last_seen_at, enrolled_at) < now() - make_interval(secs => $1)`. -/
def stale (staleSeconds now : ℤ) (a : FleetAgent) : Bool :=
  a.row.lastSeenAt.getD a.enrolledAt < now - staleSeconds * Go.second

/-- The row is live, not stopped, and stale. -/
def silent (staleSeconds now : ℤ) (a : FleetAgent) : Bool :=
  a.live && a.row.stoppedAt.isNone && a.stale staleSeconds now

end FleetAgent

/-- A row of `telemetry_gaps`. -/
structure Gap where
  userId : String
  agentId : ℕ
  startedAt : ℤ
  endedAt : Option ℤ
  durationSeconds : Option ℤ
  reason : String
  deriving DecidableEq, Repr

def Gap.open (g : Gap) : Bool := g.endedAt.isNone

/-- An open gap of the contestant. -/
def Gap.openOf (userId : String) (g : Gap) : Bool := g.open && g.userId = userId

/-- A row of `telemetry_incidents`. -/
structure Incident where
  startedAt : ℤ
  endedAt : Option ℤ
  affectedAgents : ℕ
  enrolledAgents : ℕ
  note : String
  deriving DecidableEq, Repr

def Incident.open (i : Incident) : Bool := i.endedAt.isNone

/-- Where a sweep is. -/
inductive Sweep
  | idle
  | openIncident (stale total : ℕ)
  | discardGapsInIncident
  | closeIncident (staleSeconds : ℤ)
  | closeGaps (staleSeconds : ℤ)
  | openGaps (staleSeconds : ℤ)
  deriving DecidableEq, Repr

structure Fleet where
  agents : List FleetAgent
  gaps : List Gap
  incidents : List Incident
  sweep : Sweep
  /-- the time of the last statement -/
  clock : ℤ
  deriving DecidableEq, Repr

/-! ## The statements of a sweep -/

/-- `fleetHealth`: how many are stale, and how many there are. -/
def fleetHealth (staleSeconds now : ℤ) (agents : List FleetAgent) : ℕ × ℕ :=
  let counted := agents.filter fun a => a.live && a.row.stoppedAt.isNone
  ((counted.filter (FleetAgent.stale staleSeconds now)).length, counted.length)

def incidentThresholdNumerator : ℕ := 3

def incidentThresholdDenominator : ℕ := 10

def incidentMinFleet : ℕ := 10

/-- `fleetWide`. -/
def fleetWide (stale total : ℕ) : Bool :=
  total ≥ incidentMinFleet && stale * incidentThresholdDenominator ≥ total * incidentThresholdNumerator

def openIncident (stale total : ℕ) (now : ℤ) (incidents : List Incident) : List Incident :=
  if incidents.any Incident.open then incidents
  else incidents ++
    [⟨now, none, stale, total, "fleet-wide heartbeat loss; contestant gaps suppressed"⟩]

def closeIncident (now : ℤ) (incidents : List Incident) : List Incident :=
  incidents.map fun i => if i.open then { i with endedAt := some now } else i

def discardGapsInIncident (incidents : List Incident) (gaps : List Gap) : List Gap :=
  gaps.filter fun g =>
    !(g.open && incidents.any fun i => i.open && g.startedAt ≥ i.startedAt - 60 * Go.second)

/-- `EXTRACT(EPOCH FROM d)::int`, of an interval that is not negative. -/
def epochSeconds (d : ℤ) : ℤ := (d + Go.second / 2) / Go.second

/-- The row ends a gap of its contestant. -/
def FleetAgent.ends (staleSeconds now : ℤ) (userId : String) (a : FleetAgent) : Bool :=
  a.userId = userId && a.live && (a.row.stoppedAt.isSome || !a.stale staleSeconds now)

def closeGaps (staleSeconds now : ℤ) (agents : List FleetAgent) (gaps : List Gap) : List Gap :=
  gaps.map fun g =>
    if g.open && agents.any (FleetAgent.ends staleSeconds now g.userId) then
      { g with
        endedAt := some now
        durationSeconds := some (max 1 (epochSeconds (now - g.startedAt))) }
    else g

/-- `ON CONFLICT (user_id) WHERE ended_at IS NULL DO NOTHING`. -/
def insertGap (gaps : List Gap) (a : FleetAgent) : List Gap :=
  if gaps.any (Gap.openOf a.userId) then gaps
  else gaps ++
    [⟨a.userId, a.id, a.row.lastSeenAt.getD a.enrolledAt, none, none, "agent_unreachable"⟩]

def openGaps (staleSeconds now : ℤ) (agents : List FleetAgent) (gaps : List Gap) : List Gap :=
  (agents.filter (FleetAgent.silent staleSeconds now)).foldl insertGap gaps

/-! ## Steps -/

inductive FleetAction
  | enroll (id : ℕ) (userId agentVersion : String)
  /-- the `UPDATE` of a heartbeat -/
  | heartbeat (id : ℕ) (p : Pending)
  | shutdown (id : ℕ) (reason : String)
  | revoke (id : ℕ) (reason : String)
  | unrevoke (userId : String)
  /-- `Sweep` begins, with `fleetHealth` -/
  | sweep (staleSeconds : ℤ)
  /-- the next statement of the sweep -/
  | advance
  /-- or its failure -/
  | abort
  deriving DecidableEq, Repr

namespace Fleet

/-- A change of the row of one enrollment. -/
def setRow (id : ℕ) (f : AgentRow → AgentRow) (agents : List FleetAgent) : List FleetAgent :=
  agents.map fun a => if a.id = id then { a with row := f a.row } else a

/-- A change of the rows of a contestant. -/
def setRows (userId : String) (f : AgentRow → AgentRow) (agents : List FleetAgent) : List FleetAgent :=
  agents.map fun a => if a.userId = userId then { a with row := f a.row } else a

/-- The live rows of a contestant. -/
def liveOf (userId : String) (agents : List FleetAgent) : List FleetAgent :=
  agents.filter fun a => a.live && a.userId = userId

/-- The next statement of a sweep. -/
def advance (now : ℤ) (s : Fleet) : Option Fleet :=
  match s.sweep with
  | .idle => none
  | .openIncident stale total => some { s with
      incidents := Agent.openIncident stale total now s.incidents
      sweep := .discardGapsInIncident }
  | .discardGapsInIncident => some { s with
      gaps := Agent.discardGapsInIncident s.incidents s.gaps
      sweep := .idle }
  | .closeIncident staleSeconds => some { s with
      incidents := Agent.closeIncident now s.incidents
      sweep := .closeGaps staleSeconds }
  | .closeGaps staleSeconds => some { s with
      gaps := Agent.closeGaps staleSeconds now s.agents s.gaps
      sweep := .openGaps staleSeconds }
  | .openGaps staleSeconds => some { s with
      gaps := Agent.openGaps staleSeconds now s.agents s.gaps
      sweep := .idle }

/-- What an operation does to `proctor_agents`, or `none` where there is no such operation. -/
def operate (now : ℤ) (agents : List FleetAgent) : FleetAction → Option (List FleetAgent)
  | .enroll id userId agentVersion =>
      if agents.any (·.id = id) then none
      else some (setRows userId (fun row => Agent.revoke row "superseded by new enrollment" now) agents ++
        [⟨id, userId, now, .enrolled agentVersion⟩])
  | .heartbeat id p => some (setRow id
      (fun row => (recordHeartbeat row p.hb p.clockOffsetMs p.eventWritten now).getD row) agents)
  | .shutdown id reason => some (setRow id (fun row => Agent.shutdown row reason now) agents)
  | .revoke id reason => some (setRow id (fun row => Agent.revoke row reason now) agents)
  | .unrevoke userId =>
      let agents' := setRows userId Agent.unrevoke agents
      some (if (liveOf userId agents').length ≤ 1 then agents' else agents)
  | .sweep _ | .advance | .abort => none

/-- One statement at a time that is not before the last. -/
def step : FleetAction × ℤ → Fleet → Option Fleet
  | (action, now), s =>
      if now < s.clock then none
      else
        let s := { s with clock := now }
        match action with
        | .sweep staleSeconds =>
            if s.sweep = .idle then
              let (stale, total) := fleetHealth staleSeconds now s.agents
              some { s with
                sweep := if fleetWide stale total then .openIncident stale total
                  else .closeIncident staleSeconds }
            else none
        | .advance => s.advance now
        | .abort => some { s with sweep := .idle }
        | _ => (operate now s.agents action).map fun agents => { s with agents := agents }

/-- Nobody has enrolled. -/
def new : Fleet := ⟨[], [], [], .idle, 0⟩

end Fleet

/-! ## What a statement does to the gaps -/

/-- A contestant has one open gap at most. -/
def OneOpen (gaps : List Gap) : Prop := ∀ userId, (gaps.filter (Gap.openOf userId)).length ≤ 1

section Gaps

variable {staleSeconds now : ℤ} {agents : List FleetAgent} {gaps : List Gap} {g : Gap}

/-- A gap that is open after the closing was open before, and its contestant has no live enrollment that
is stopped or fresh. -/
lemma open_closeGaps (hg : g ∈ closeGaps staleSeconds now agents gaps) (hopen : g.open) :
    g ∈ gaps ∧ ∀ a ∈ agents, a.ends staleSeconds now g.userId = false := by
  obtain ⟨old, hold, rfl⟩ := List.mem_map.mp hg
  by_cases hends : (old.open && agents.any (FleetAgent.ends staleSeconds now old.userId)) = true
  · rw [if_pos hends] at hopen
    cases hopen
  · rw [if_neg hends] at hopen ⊢
    rw [hopen, Bool.true_and, Bool.not_eq_true, List.any_eq_false] at hends
    exact ⟨hold, fun a ha => Bool.eq_false_iff.mpr (hends a ha)⟩

lemma OneOpen.closeGaps (h : OneOpen gaps) : OneOpen (closeGaps staleSeconds now agents gaps) := by
  intro userId
  refine le_trans ?_ (h userId)
  rw [Agent.closeGaps, List.filter_map, List.length_map, ← List.countP_eq_length_filter,
    ← List.countP_eq_length_filter]
  refine List.countP_mono_left fun g _ hopen => ?_
  rw [Function.comp_apply] at hopen
  split_ifs at hopen
  · simp [Gap.openOf, Gap.open] at hopen
  · exact hopen

lemma OneOpen.discard (h : OneOpen gaps) (incidents : List Incident) :
    OneOpen (discardGapsInIncident incidents gaps) := by
  intro userId
  exact (List.filter_sublist.filter _).length_le.trans (h userId)

lemma OneOpen.insertGap (h : OneOpen gaps) (a : FleetAgent) : OneOpen (insertGap gaps a) := by
  intro userId
  rw [Agent.insertGap]
  split_ifs with hany
  · exact h userId
  · rw [List.filter_append, List.length_append]
    by_cases huser : a.userId = userId
    · subst huser
      have hnone : gaps.filter (Gap.openOf a.userId) = [] := by
        rw [List.filter_eq_nil_iff]
        intro g hg hopen
        exact hany (List.any_eq_true.mpr ⟨g, hg, hopen⟩)
      rw [hnone, List.length_nil, Nat.zero_add]
      exact List.length_filter_le _ _
    · simpa [Gap.openOf, huser] using h userId

lemma OneOpen.foldl_insertGap (h : OneOpen gaps) (agents : List FleetAgent) :
    OneOpen (agents.foldl Agent.insertGap gaps) := by
  induction agents generalizing gaps with
  | nil => exact h
  | cons a agents ih => exact ih (h.insertGap a)

/-- What has been inserted is there, and nothing is taken away. -/
lemma mem_insertGap (hg : g ∈ gaps) (a : FleetAgent) : g ∈ insertGap gaps a := by
  rw [insertGap]
  split_ifs
  · exact hg
  · exact List.mem_append_left _ hg

lemma any_insertGap (a : FleetAgent) : (insertGap gaps a).any (Gap.openOf a.userId) = true := by
  rw [insertGap]
  split_ifs with hany
  · exact hany
  · simp [Gap.openOf, Gap.open]

/-- Every row that is gone through leaves its contestant with an open gap. -/
lemma any_foldl_insertGap {userId : String}
    (h : gaps.any (Gap.openOf userId) = true ∨ ∃ a ∈ agents, a.userId = userId) :
    (agents.foldl insertGap gaps).any (Gap.openOf userId) = true := by
  induction agents generalizing gaps with
  | nil => simpa using h
  | cons a agents ih =>
      apply ih
      rcases h with hany | ⟨b, hb, hbuser⟩
      · obtain ⟨g, hg, hopen⟩ := List.any_eq_true.mp hany
        exact .inl (List.any_eq_true.mpr ⟨g, mem_insertGap hg a, hopen⟩)
      · rcases List.mem_cons.mp hb with rfl | hb
        · exact .inl (hbuser ▸ any_insertGap b)
        · exact .inr ⟨b, hb, hbuser⟩

/-- A gap was there before, or is that of a row that was gone through. -/
lemma mem_foldl_insertGap (hg : g ∈ agents.foldl insertGap gaps) :
    g ∈ gaps ∨ ∃ a ∈ agents, a.userId = g.userId := by
  induction agents generalizing gaps with
  | nil => exact .inl hg
  | cons a agents ih =>
      rcases ih hg with hmem | ⟨b, hb, hbuser⟩
      · rw [insertGap] at hmem
        split_ifs at hmem
        · exact .inl hmem
        · rcases List.mem_append.mp hmem with hold | hnew
          · exact .inl hold
          · obtain rfl := List.mem_singleton.mp hnew
            exact .inr ⟨a, List.mem_cons_self, rfl⟩
      · exact .inr ⟨b, List.mem_cons_of_mem a hb, hbuser⟩

end Gaps

/-! ## What an operation leaves alone -/

/-- The operation changes the row. -/
def FleetAction.touches (a : FleetAgent) : FleetAction → Bool
  | enroll _ userId _ => a.userId = userId
  | heartbeat id _ | shutdown id _ | revoke id _ => a.id = id
  | unrevoke userId => a.userId = userId
  | sweep _ | advance | abort => false

section Operations

variable {now : ℤ} {agents agents' : List FleetAgent} {a : FleetAgent}

lemma mem_setRow {id : ℕ} {f : AgentRow → AgentRow} (ha : a ∈ agents) (hid : a.id ≠ id) :
    a ∈ Fleet.setRow id f agents :=
  List.mem_map.mpr ⟨a, ha, if_neg hid⟩

lemma mem_setRows {userId : String} {f : AgentRow → AgentRow} (ha : a ∈ agents)
    (huser : a.userId ≠ userId) : a ∈ Fleet.setRows userId f agents :=
  List.mem_map.mpr ⟨a, ha, if_neg huser⟩

/-- A row that an operation does not touch stays. -/
lemma mem_operate {action : FleetAction} (h : Fleet.operate now agents action = some agents')
    (ha : a ∈ agents) (htouch : action.touches a = false) : a ∈ agents' := by
  cases action with
  | enroll id userId agentVersion =>
      rw [Fleet.operate, Option.ite_none_left_eq_some] at h
      obtain rfl := Option.some.inj h.2
      exact List.mem_append_left _ (mem_setRows ha (by simpa [FleetAction.touches] using htouch))
  | heartbeat id p =>
      obtain rfl := Option.some.inj h
      exact mem_setRow ha (by simpa [FleetAction.touches] using htouch)
  | shutdown id reason =>
      obtain rfl := Option.some.inj h
      exact mem_setRow ha (by simpa [FleetAction.touches] using htouch)
  | revoke id reason =>
      obtain rfl := Option.some.inj h
      exact mem_setRow ha (by simpa [FleetAction.touches] using htouch)
  | unrevoke userId =>
      obtain rfl := Option.some.inj h
      split_ifs
      · exact mem_setRows ha (by simpa [FleetAction.touches] using htouch)
      · exact ha
  | sweep staleSeconds => cases h
  | advance => cases h
  | abort => cases h

/-- Changing rows without making one live leaves no more live ones. -/
lemma liveOf_map_le {f : FleetAgent → FleetAgent} (userId : String)
    (h : ∀ a, (f a).live → a.live ∧ a.userId = (f a).userId) :
    (Fleet.liveOf userId (agents.map f)).length ≤ (Fleet.liveOf userId agents).length := by
  rw [Fleet.liveOf, List.filter_map, List.length_map, ← List.countP_eq_length_filter, Fleet.liveOf,
    ← List.countP_eq_length_filter]
  refine List.countP_mono_left fun a _ hlive => ?_
  rw [Function.comp_apply, Bool.and_eq_true] at hlive
  obtain ⟨hwas, huser⟩ := h a hlive.1
  rw [Bool.and_eq_true, huser]
  exact ⟨hwas, hlive.2⟩

lemma liveOf_setRow_le (userId : String) {id : ℕ} {f : AgentRow → AgentRow}
    (hf : ∀ row, (f row).revokedAt = none → row.revokedAt = none) :
    (Fleet.liveOf userId (Fleet.setRow id f agents)).length ≤ (Fleet.liveOf userId agents).length := by
  refine liveOf_map_le userId fun a hlive => ?_
  split_ifs at hlive ⊢
  · exact ⟨Option.isNone_iff_eq_none.mpr (hf a.row (Option.isNone_iff_eq_none.mp hlive)), rfl⟩
  · exact ⟨hlive, rfl⟩

lemma liveOf_setRows_of_ne {userId userId' : String} {f : AgentRow → AgentRow} (h : userId ≠ userId') :
    Fleet.liveOf userId (Fleet.setRows userId' f agents) = Fleet.liveOf userId agents := by
  induction agents with
  | nil => rfl
  | cons a agents ih =>
      rw [Fleet.setRows, List.map_cons, Fleet.liveOf, List.filter_cons, Fleet.liveOf, List.filter_cons]
      by_cases huser : a.userId = userId'
      · have hne : a.userId ≠ userId := fun heq => h (heq.symm.trans huser)
        simpa [huser, hne, Ne.symm h, Fleet.liveOf, Fleet.setRows] using ih
      · rw [if_neg huser]
        split_ifs
        · exact congrArg (a :: ·) ih
        · exact ih

lemma revokedAt_revoke_ne_none (row : AgentRow) (reason : String) (now : ℤ) :
    (Agent.revoke row reason now).revokedAt ≠ none := by
  rw [Agent.revoke]
  split_ifs with h
  · exact Option.isSome_iff_ne_none.mp h
  · exact Option.some_ne_none now

/-- Revoking the rows of a contestant leaves none live. -/
lemma liveOf_setRows_revoke (userId reason : String) :
    Fleet.liveOf userId (Fleet.setRows userId (fun row => Agent.revoke row reason now) agents) = [] := by
  rw [Fleet.liveOf, List.filter_eq_nil_iff]
  intro a ha
  obtain ⟨old, -, rfl⟩ := List.mem_map.mp ha
  split_ifs with huser
  · have hrevoked := revokedAt_revoke_ne_none old.row reason now
    simp [FleetAgent.live, hrevoked]
  · simp [huser]

lemma recordHeartbeat_revokedAt (row : AgentRow) (p : Pending) :
    ((recordHeartbeat row p.hb p.clockOffsetMs p.eventWritten now).getD row).revokedAt = row.revokedAt := by
  cases hrow : recordHeartbeat row p.hb p.clockOffsetMs p.eventWritten now with
  | none => rfl
  | some row' => exact (recordHeartbeat_eq_some hrow).2.2.2

/-- The index on live rows holds after every operation. -/
lemma liveOf_operate {action : FleetAction} (h : Fleet.operate now agents action = some agents')
    (hlive : ∀ userId, (Fleet.liveOf userId agents).length ≤ 1) (userId : String) :
    (Fleet.liveOf userId agents').length ≤ 1 := by
  cases action with
  | enroll id userId' agentVersion =>
      rw [Fleet.operate, Option.ite_none_left_eq_some] at h
      obtain rfl := Option.some.inj h.2
      rw [Fleet.liveOf, List.filter_append, List.length_append]
      by_cases huser : userId = userId'
      · subst huser
        have hnone : Fleet.liveOf userId (Fleet.setRows userId
            (fun row => Agent.revoke row "superseded by new enrollment" now) agents) = [] :=
          liveOf_setRows_revoke userId _
        rw [Fleet.liveOf] at hnone
        rw [hnone, List.length_nil, Nat.zero_add]
        exact List.length_filter_le _ _
      · have hother : Fleet.liveOf userId (Fleet.setRows userId'
            (fun row => Agent.revoke row "superseded by new enrollment" now) agents) =
              Fleet.liveOf userId agents := liveOf_setRows_of_ne huser
        rw [Fleet.liveOf, Fleet.liveOf] at hother
        have := hlive userId
        rw [Fleet.liveOf] at this
        simpa [hother, Ne.symm huser] using this
  | heartbeat id p =>
      obtain rfl := Option.some.inj h
      refine (liveOf_setRow_le userId fun row hrow => ?_).trans (hlive userId)
      rwa [recordHeartbeat_revokedAt] at hrow
  | shutdown id reason =>
      obtain rfl := Option.some.inj h
      exact (liveOf_setRow_le (f := fun row => Agent.shutdown row reason now) userId
        fun row hrow => hrow).trans (hlive userId)
  | revoke id reason =>
      obtain rfl := Option.some.inj h
      refine (liveOf_setRow_le userId fun row hrow => ?_).trans (hlive userId)
      exact absurd hrow (revokedAt_revoke_ne_none row reason now)
  | unrevoke userId' =>
      obtain rfl := Option.some.inj h
      split_ifs with hindex
      · by_cases huser : userId = userId'
        · exact huser ▸ hindex
        · rw [liveOf_setRows_of_ne huser]
          exact hlive userId
      · exact hlive userId
  | sweep staleSeconds => cases h
  | advance => cases h
  | abort => cases h

end Operations

/-! ## Runs -/

namespace Fleet

/-- The indexes: a contestant has one live row and one open gap at most. -/
structure Sane (s : Fleet) : Prop where
  live : ∀ userId, (liveOf userId s.agents).length ≤ 1
  gaps : OneOpen s.gaps

/-- Every contestant with an open gap has a live enrollment. -/
def Covered (s : Fleet) : Prop := ∀ g ∈ s.gaps, g.open → ∃ a ∈ s.agents, a.live ∧ a.userId = g.userId

instance (s : Fleet) : Decidable s.Covered := inferInstanceAs (Decidable (∀ g ∈ s.gaps, _ → _))

/-- When the gaps are closed, everybody with an open gap has a live enrollment; between the closing and
the opening, nobody touches it. -/
def OrderlyIn (s : Fleet) (action : FleetAction) : Sweep → Prop
  | .closeGaps _ => action = .advance → s.Covered
  | .openGaps _ => ∀ a ∈ s.agents, a.live → s.gaps.any (Gap.openOf a.userId) → action.touches a = false
  | _ => True

instance (s : Fleet) (action : FleetAction) : (sweep : Sweep) → Decidable (s.OrderlyIn action sweep)
  | .closeGaps _ => inferInstanceAs (Decidable (_ → _))
  | .openGaps _ => inferInstanceAs (Decidable (∀ a ∈ s.agents, _ → _ → _))
  | .idle | .openIncident _ _ | .discardGapsInIncident | .closeIncident _ => .isTrue trivial

def Orderly (a : FleetAction × ℤ) (s : Fleet) : Prop := s.OrderlyIn a.1 s.sweep

instance (a : FleetAction × ℤ) (s : Fleet) : Decidable (Orderly a s) :=
  inferInstanceAs (Decidable (s.OrderlyIn _ _))

/-- Open gaps are those of the contestants whose live enrollment is silent, one each. -/
structure Settled (staleSeconds now : ℤ) (s : Fleet) : Prop where
  silent : ∀ g ∈ s.gaps, g.open → ∃ a ∈ s.agents, a.userId = g.userId ∧ a.silent staleSeconds now
  one : ∀ a ∈ s.agents, a.silent staleSeconds now → (s.gaps.filter (Gap.openOf a.userId)).length = 1

/-- Between the closing and the opening, every open gap is that of a silent enrollment. -/
def Ready (s : Fleet) : Prop :=
  match s.sweep with
  | .openGaps staleSeconds =>
      ∀ g ∈ s.gaps, g.open → ∃ a ∈ s.agents, a.userId = g.userId ∧ a.silent staleSeconds s.clock
  | _ => True

section Steps

variable {s s' : Fleet} {action : FleetAction} {now staleSeconds : ℤ}

lemma silent_mono {a : FleetAgent} {t t' : ℤ} (hle : t ≤ t') (h : a.silent staleSeconds t) :
    a.silent staleSeconds t' := by
  simp only [FleetAgent.silent, FleetAgent.stale, Bool.and_eq_true, decide_eq_true_eq] at h ⊢
  exact ⟨h.1, by omega⟩

/-- A row that does not end a gap of its contestant is silent if it is live. -/
lemma silent_of_not_ends {a : FleetAgent} (hlive : a.live) (h : a.ends staleSeconds now a.userId = false) :
    a.silent staleSeconds now := by
  simp only [FleetAgent.ends, decide_true, Bool.true_and, hlive, Bool.or_eq_false_iff,
    Bool.not_eq_false'] at h
  simp [FleetAgent.silent, hlive, Option.isSome_eq_false_iff.mp h.1, h.2]

/-- A step takes a statement of the sweeper, or an operation. -/
lemma step_cases (h : step (action, now) s = some s') :
    s.clock ≤ now ∧ s'.clock = now ∧
      ((∃ k, action = .sweep k ∧ s'.agents = s.agents ∧ s'.gaps = s.gaps ∧ ∀ k, s'.sweep ≠ .openGaps k) ∨
        (action = .advance ∧ advance now { s with clock := now } = some s') ∨
        (action = .abort ∧ s'.agents = s.agents ∧ s'.gaps = s.gaps ∧ s'.sweep = .idle) ∨
        operate now s.agents action = some s'.agents ∧ s'.gaps = s.gaps ∧ s'.sweep = s.sweep) := by
  rw [step, Option.ite_none_left_eq_some, not_lt] at h
  obtain ⟨hclock, h⟩ := h
  refine ⟨hclock, ?_⟩
  cases action with
  | sweep k =>
      obtain ⟨-, h⟩ := Option.ite_none_right_eq_some.mp h
      obtain rfl := Option.some.inj h
      refine ⟨rfl, .inl ⟨k, rfl, rfl, rfl, fun k' => ?_⟩⟩
      show (if _ then _ else _) ≠ _
      split_ifs
      · exact Sweep.noConfusion
      · exact Sweep.noConfusion
  | advance =>
      change Fleet.advance now { s with clock := now } = some s' at h
      refine ⟨?_, .inr (.inl ⟨rfl, h⟩)⟩
      rw [Fleet.advance] at h
      cases hsweep : s.sweep <;> simp only [hsweep, reduceCtorEq, Option.some.injEq] at h <;> rw [← h]
  | abort =>
      obtain rfl := Option.some.inj h
      exact ⟨rfl, .inr (.inr (.inl ⟨rfl, rfl, rfl, rfl⟩))⟩
  | enroll id userId agentVersion =>
      obtain ⟨agents, hagents, rfl⟩ := Option.map_eq_some_iff.mp h
      exact ⟨rfl, .inr (.inr (.inr ⟨hagents, rfl, rfl⟩))⟩
  | heartbeat id p =>
      obtain ⟨agents, hagents, rfl⟩ := Option.map_eq_some_iff.mp h
      exact ⟨rfl, .inr (.inr (.inr ⟨hagents, rfl, rfl⟩))⟩
  | shutdown id reason =>
      obtain ⟨agents, hagents, rfl⟩ := Option.map_eq_some_iff.mp h
      exact ⟨rfl, .inr (.inr (.inr ⟨hagents, rfl, rfl⟩))⟩
  | revoke id reason =>
      obtain ⟨agents, hagents, rfl⟩ := Option.map_eq_some_iff.mp h
      exact ⟨rfl, .inr (.inr (.inr ⟨hagents, rfl, rfl⟩))⟩
  | unrevoke userId =>
      obtain ⟨agents, hagents, rfl⟩ := Option.map_eq_some_iff.mp h
      exact ⟨rfl, .inr (.inr (.inr ⟨hagents, rfl, rfl⟩))⟩

/-- The indexes hold after every step. -/
lemma Sane.step (hs : Sane s) (h : Fleet.step (action, now) s = some s') : Sane s' := by
  obtain ⟨-, -, hcases⟩ := step_cases h
  rcases hcases with ⟨k, -, hagents, hgaps, -⟩ | ⟨-, hadvance⟩ | ⟨-, hagents, hgaps, -⟩ | ⟨hoperate, hgaps, -⟩
  · exact ⟨hagents ▸ hs.live, hgaps ▸ hs.gaps⟩
  · rw [Fleet.advance] at hadvance
    cases hsweep : s.sweep with
    | idle => simp [hsweep] at hadvance
    | openIncident stale total =>
        simp only [hsweep, Option.some.injEq] at hadvance
        exact hadvance ▸ ⟨hs.live, hs.gaps⟩
    | discardGapsInIncident =>
        simp only [hsweep, Option.some.injEq] at hadvance
        exact hadvance ▸ ⟨hs.live, hs.gaps.discard s.incidents⟩
    | closeIncident k =>
        simp only [hsweep, Option.some.injEq] at hadvance
        exact hadvance ▸ ⟨hs.live, hs.gaps⟩
    | closeGaps k =>
        simp only [hsweep, Option.some.injEq] at hadvance
        exact hadvance ▸ ⟨hs.live, hs.gaps.closeGaps⟩
    | openGaps k =>
        simp only [hsweep, Option.some.injEq] at hadvance
        exact hadvance ▸ ⟨hs.live, hs.gaps.foldl_insertGap _⟩
  · exact ⟨hagents ▸ hs.live, hgaps ▸ hs.gaps⟩
  · exact ⟨liveOf_operate hoperate hs.live, hgaps ▸ hs.gaps⟩

/-- An orderly step keeps what holds between the closing and the opening. -/
lemma Ready.step (hs : Ready s) (horderly : Orderly (action, now) s)
    (h : Fleet.step (action, now) s = some s') : Ready s' := by
  obtain ⟨hclock, hnow, hcases⟩ := step_cases h
  rcases hcases with ⟨k, -, -, -, hsweep⟩ | ⟨haction, hadvance⟩ | ⟨-, -, -, hsweep⟩ | ⟨hoperate, hgaps, hsweep⟩
  · rw [Ready]
    split
    · exact absurd ‹_› (hsweep _)
    · trivial
  · rw [Fleet.advance] at hadvance
    cases hphase : s.sweep with
    | idle => simp [hphase] at hadvance
    | openIncident stale total =>
        simp only [hphase, Option.some.injEq] at hadvance
        exact hadvance ▸ trivial
    | discardGapsInIncident =>
        simp only [hphase, Option.some.injEq] at hadvance
        exact hadvance ▸ trivial
    | closeIncident k =>
        simp only [hphase, Option.some.injEq] at hadvance
        exact hadvance ▸ trivial
    | closeGaps k =>
        simp only [hphase, Option.some.injEq] at hadvance
        rw [Orderly, hphase] at horderly
        rw [← hadvance]
        intro g hg hopen
        obtain ⟨hold, hends⟩ := open_closeGaps hg hopen
        obtain ⟨a, ha, hlive, huser⟩ := horderly haction g hold hopen
        exact ⟨a, ha, huser, silent_of_not_ends hlive (huser ▸ hends a ha)⟩
    | openGaps k =>
        simp only [hphase, Option.some.injEq] at hadvance
        exact hadvance ▸ trivial
  · rw [Ready, hsweep]
    trivial
  · rw [Ready, hsweep]
    rw [Ready] at hs
    split
    · rename_i k hphase
      rw [Orderly, hphase] at horderly
      simp only [hphase] at hs
      intro g hg hopen
      rw [hgaps] at hg
      obtain ⟨a, ha, huser, hsilent⟩ := hs g hg hopen
      have hlive : a.live = true := by
        simp only [FleetAgent.silent, Bool.and_eq_true] at hsilent
        exact hsilent.1.1
      have hany : s.gaps.any (Gap.openOf a.userId) = true :=
        List.any_eq_true.mpr ⟨g, hg, by simp [Gap.openOf, hopen, huser]⟩
      exact ⟨a, mem_operate hoperate ha (horderly a ha hlive hany), huser,
        silent_mono (hnow ▸ hclock) hsilent⟩
    · trivial

/-- The opening settles what is ready. -/
lemma settled_of_ready (hsane : Sane s) (hready : Ready s) (hsweep : s.sweep = .openGaps staleSeconds)
    (h : Fleet.step (.advance, now) s = some s') : Settled staleSeconds now s' := by
  obtain ⟨hclock, -, hcases⟩ := step_cases h
  rcases hcases with ⟨k, haction, -⟩ | ⟨-, hadvance⟩ | ⟨haction, -⟩ | ⟨hoperate, -⟩
  · cases haction
  · rw [Fleet.advance] at hadvance
    simp only [hsweep, Option.some.injEq] at hadvance
    rw [Ready, hsweep] at hready
    rw [← hadvance]
    constructor
    · intro g hg hopen
      rcases mem_foldl_insertGap hg with hold | ⟨a, ha, huser⟩
      · obtain ⟨a, ha, huser, hsilent⟩ := hready g hold hopen
        exact ⟨a, ha, huser, silent_mono hclock hsilent⟩
      · exact ⟨a, List.mem_of_mem_filter ha, huser, List.of_mem_filter ha⟩
    · intro a ha hsilent
      have hany : (openGaps staleSeconds now s.agents s.gaps).any (Gap.openOf a.userId) = true :=
        any_foldl_insertGap (.inr ⟨a, List.mem_filter.mpr ⟨ha, hsilent⟩, rfl⟩)
      have hpos : 0 < ((openGaps staleSeconds now s.agents s.gaps).filter (Gap.openOf a.userId)).length := by
        obtain ⟨g, hg, hopen⟩ := List.any_eq_true.mp hany
        exact List.length_pos_of_mem (List.mem_filter.mpr ⟨hg, hopen⟩)
      have hle := hsane.gaps.foldl_insertGap (s.agents.filter (FleetAgent.silent staleSeconds now)) a.userId
      exact Nat.le_antisymm hle hpos
  · cases haction
  · cases hoperate

end Steps

variable {s s' : Fleet}

/-- The indexes hold in every run. -/
lemma sane_of_reach (h : Go.Reach step new s) : Sane s := by
  have hnew : Sane new := ⟨fun _ => Nat.zero_le 1, fun _ => Nat.zero_le 1⟩
  exact h.invariant hnew fun _ _ _ hs hstep => hs.step hstep

/-- **Gaps and silent contestants.**  After a sweep in an orderly run the open gaps are those of the silent
enrollments, one each; and in no run has a contestant two open gaps, or two live enrollments. -/
theorem settled_of_orderly {staleSeconds now : ℤ} (hreach : Go.ReachIf step Orderly new s)
    (hsweep : s.sweep = .openGaps staleSeconds) (hstep : step (.advance, now) s = some s') :
    Settled staleSeconds now s' ∧ ∀ t, Go.Reach step new t → Sane t := by
  have hstart : Ready new := trivial
  have hready : Ready s := hreach.invariant hstart fun _ _ _ hs hok hstep => hs.step hok hstep
  exact ⟨settled_of_ready (sane_of_reach hreach.reach) hready hsweep hstep, fun _ => sane_of_reach⟩

/-- A contestant enrolls and is not heard of; the gap of the first sweep is closed by a heartbeat, and that
of the second is open. -/
def silentRun : List (FleetAction × ℤ) :=
  let sweep (t : ℤ) : List (FleetAction × ℤ) :=
    [(.sweep 60, t), (.advance, t), (.advance, t), (.advance, t)]
  let hb : Heartbeat := ⟨"b", 1, none, "1.0", 7000, "n", "h", false, true⟩
  [(.enroll 1 "u" "1.0", 0)] ++ sweep (100 * Go.second) ++
    [(.heartbeat 1 ⟨hb, 0, true⟩, 110 * Go.second)] ++ sweep (130 * Go.second) ++
    (sweep (180 * Go.second)).take 3

theorem settled_of_orderly_sample :
    Settled 60 (180 * Go.second) (((Go.run step silentRun new).bind
      (step (.advance, 180 * Go.second))).getD new) := by
  have hreach : Go.ReachIf step Orderly new ((Go.runIf step Orderly silentRun new).getD new) :=
    Go.ReachIf.runIf_getD silentRun
  exact (settled_of_orderly hreach (by decide +kernel) (by decide +kernel)).1

/-- A contestant enrolls, is not heard of, and is revoked. -/
def revokedRun : List (FleetAction × ℤ) :=
  let sweep (t : ℤ) : List (FleetAction × ℤ) :=
    [(.sweep 60, t), (.advance, t), (.advance, t), (.advance, t)]
  [(.enroll 1 "u" "1.0", 0)] ++ sweep (100 * Go.second) ++ [(.revoke 1 "left", 110 * Go.second)] ++
    (sweep (130 * Go.second)).take 3

/-- The gap is open after the next sweep, and the contestant has no live enrollment. -/
theorem settled_broken :
    ¬ ∀ s s' staleSeconds now, Go.Reach step new s → s.sweep = .openGaps staleSeconds →
      step (.advance, now) s = some s' → Settled staleSeconds now s' := by
  intro h
  have hsettled := h _ (((Go.run step revokedRun new).bind (step (.advance, 130 * Go.second))).getD new) 60
    (130 * Go.second) (Go.Reach.run_getD revokedRun) (by decide +kernel) (by decide +kernel)
  exact absurd hsettled.silent (by decide +kernel)

end Fleet

end Agent

end Labyrithm
