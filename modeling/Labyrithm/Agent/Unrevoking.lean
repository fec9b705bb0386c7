import Labyrithm.Agent.Leaving

/-!
# The index on live enrollments

The enrollments of a contestant under `idx_proctor_agents_live`, which allows one live row: a statement
after which there would be two fails.  `UnrevokeAgent` makes all of them live, and `restoreUserAccess`
passes over its error.

* `Enrollments` — the rows, with what the index says of them.
* `step_isSome` — no other statement fails.
* `recovers_iff` — un-revoking succeeds if and only if there is one row.
* **`unrevoked_iff`** — in a history, every un-revocation leaves the most recent enrollment live if and only
  if none comes after a second enrollment; at most one is live throughout.
-/

namespace Labyrithm

namespace Agent

/-- The rows of `proctor_agents` of a contestant, in the order in which they came in. -/
structure Enrollments where
  rows : List Enrollment
  live_le_one : (rows.filter Enrollment.live).length ≤ 1

namespace Enrollments

/-- What a statement leaves, unless the index refuses it. -/
def statement (rows : List Enrollment) : Option Enrollments :=
  if h : (rows.filter Enrollment.live).length ≤ 1 then some ⟨rows, h⟩ else none

/-- `UnrevokeAgent`. -/
def unrevokeAgent (s : Enrollments) : Option Enrollments :=
  statement (s.rows.map fun e => { e with row := Agent.unrevoke e.row })

inductive Event
  | enroll (id : ℕ) (req : EnrollRequest) (now : ℤ)
  | heartbeat (id : ℕ) (p : Pending) (now : ℤ)
  | shutdown (id : ℕ) (req : ShutdownRequest) (now : ℤ)
  | revoke (id : ℕ) (reason : String) (now : ℤ)
  | leave (faults : LeaveFaults) (now : ℤ)
  | unrevoke

def Event.isEnroll : Event → Bool
  | enroll _ _ _ => true
  | _ => false

def step (s : Enrollments) : Event → Option Enrollments
  | .enroll id req now => statement (Agent.enroll id req now s.rows)
  | .heartbeat id p now => statement (s.rows.map (recordAt id p now))
  | .shutdown id req now => statement (s.rows.map (shutdownAt id req now))
  | .revoke id reason now => statement (revokeId id reason now s.rows)
  | .leave faults now => statement (leaveEnrollments faults now s.rows)
  | .unrevoke => s.unrevokeAgent

/-- A statement that fails changes nothing. -/
def after (s : Enrollments) (e : Event) : Enrollments := (s.step e).getD s

/-- A contestant who has not enrolled yet. -/
def unenrolled : Enrollments := ⟨[], Nat.zero_le 1⟩

def run (es : List Event) : Enrollments := es.foldl after unenrolled

/-- Un-revoking succeeds, and leaves the most recent enrollment live. -/
def Recovers (s : Enrollments) : Prop :=
  ∃ s', s.unrevokeAgent = some s' ∧ ∃ e ∈ s'.rows.getLast?, e.live

variable {s s' : Enrollments} {e : Event} {rows : List Enrollment}

/-! ## What the index refuses -/

lemma statement_eq_some (h : statement rows = some s) : s.rows = rows := by
  unfold statement at h
  split_ifs at h with hlive
  exact congrArg Enrollments.rows (Option.some.inj h).symm

lemma statement_of_le (h : (rows.filter Enrollment.live).length ≤ 1) : statement rows = some ⟨rows, h⟩ :=
  dif_pos h

/-- A change that makes nothing live is not refused. -/
lemma statement_map (s : Enrollments) {f : Enrollment → Enrollment} (h : ∀ e, (f e).live → e.live) :
    ∃ s', statement (s.rows.map f) = some s' := by
  have hle : ∀ rows : List Enrollment,
      ((rows.map f).filter Enrollment.live).length ≤ (rows.filter Enrollment.live).length := by
    intro rows
    rw [List.filter_map, List.length_map, ← List.countP_eq_length_filter,
      ← List.countP_eq_length_filter]
    exact List.countP_mono_left fun e _ hlive => h e hlive
  exact ⟨_, statement_of_le ((hle s.rows).trans s.live_le_one)⟩

/-- Enrolling makes one live, after it has revoked the others. -/
lemma statement_enroll (s : Enrollments) (id : ℕ) (req : EnrollRequest) (now : ℤ) :
    ∃ s', statement (Agent.enroll id req now s.rows) = some s' := by
  have hnone : (s.rows.map fun e => e.revoke "superseded by new enrollment" now).filter Enrollment.live
      = [] := by
    rw [List.filter_eq_nil_iff]
    intro e he
    obtain ⟨old, -, rfl⟩ := List.mem_map.mp he
    simp
  refine ⟨_, statement_of_le ?_⟩
  rw [Agent.enroll, List.filter_append, hnone, List.nil_append]
  exact List.length_filter_le _ _

lemma live_shutdownAt (id : ℕ) (req : ShutdownRequest) (now : ℤ) (e : Enrollment) :
    (shutdownAt id req now e).live = e.live := by
  unfold shutdownAt
  split_ifs
  · rfl
  · rfl

/-- No statement but un-revoking is refused. -/
theorem step_isSome (s : Enrollments) (e : Event) (h : e ≠ .unrevoke) : ∃ s', s.step e = some s' := by
  cases e with
  | enroll id req now => exact statement_enroll s id req now
  | heartbeat id p now =>
      exact statement_map s fun e hlive => by rwa [live_recordAt] at hlive
  | shutdown id req now =>
      exact statement_map s fun e hlive => by rwa [live_shutdownAt] at hlive
  | revoke id reason now =>
      refine statement_map s fun e hlive => ?_
      split_ifs at hlive
      · simp at hlive
      · exact hlive
  | leave faults now =>
      show ∃ s', statement (leaveEnrollments faults now s.rows) = some s'
      unfold leaveEnrollments
      split_ifs
      · exact ⟨s, statement_of_le s.live_le_one⟩
      · refine statement_map s fun e hlive => ?_
        split_ifs at hlive
        · simp at hlive
        · exact hlive
  | unrevoke => exact absurd rfl h

/-- All rows are live after un-revoking, so there is one at most. -/
lemma unrevokeAgent_eq_some_iff : s.unrevokeAgent = some s' ↔
    s.rows.length ≤ 1 ∧ s'.rows = s.rows.map fun e => { e with row := Agent.unrevoke e.row } := by
  have hall : ∀ rows : List Enrollment,
      (rows.map fun e => { e with row := Agent.unrevoke e.row }).filter Enrollment.live
        = rows.map fun e => { e with row := Agent.unrevoke e.row } := by
    intro rows
    rw [List.filter_eq_self]
    intro e he
    obtain ⟨old, -, rfl⟩ := List.mem_map.mp he
    rfl
  constructor
  · intro h
    refine ⟨?_, statement_eq_some h⟩
    have hle := s'.live_le_one
    rw [statement_eq_some h, hall, List.length_map] at hle
    exact hle
  · rintro ⟨hle, hrows⟩
    have hlive : ((s.rows.map fun e => { e with row := Agent.unrevoke e.row }).filter
        Enrollment.live).length ≤ 1 := by
      rw [hall, List.length_map]
      exact hle
    rw [unrevokeAgent, statement_of_le hlive]
    obtain ⟨rows', hlive'⟩ := s'
    subst hrows
    rfl

lemma unrevokeAgent_of_length_le (h : s.rows.length ≤ 1) : ∃ s', s.unrevokeAgent = some s' := by
  have hlive : ((s.rows.map fun e => { e with row := Agent.unrevoke e.row }).filter
      Enrollment.live).length ≤ 1 :=
    (List.length_filter_le _ _).trans (by simpa using h)
  exact ⟨⟨_, hlive⟩, unrevokeAgent_eq_some_iff.mpr ⟨h, rfl⟩⟩

/-- Un-revoking is what `Agent.unrevokeAgent` has of it. -/
lemma after_unrevoke (s : Enrollments) : (s.after .unrevoke).rows = Agent.unrevokeAgent s.rows := by
  show ((s.unrevokeAgent).getD s).rows = _
  cases h : s.unrevokeAgent with
  | some s' =>
      obtain ⟨hle, hrows⟩ := unrevokeAgent_eq_some_iff.mp h
      show s'.rows = _
      rw [hrows]
      match hs : s.rows with
      | [] => rfl
      | [e] => rfl
      | e :: e' :: rest =>
          rw [hs] at hle
          simp at hle
  | none =>
      show s.rows = _
      match hs : s.rows with
      | [] => rfl
      | [e] =>
          have hsome := unrevokeAgent_of_length_le (s := s) (by simp [hs])
          obtain ⟨s', hs'⟩ := hsome
          rw [h] at hs'
          cases hs'
      | e :: e' :: rest => rfl

theorem recovers_iff (hne : s.rows ≠ []) : s.Recovers ↔ s.rows.length = 1 := by
  have hpos : 0 < s.rows.length := List.length_pos_iff.mpr hne
  constructor
  · rintro ⟨s', h, -⟩
    have hle := (unrevokeAgent_eq_some_iff.mp h).1
    omega
  · intro hlength
    obtain ⟨e, he⟩ := List.length_eq_one_iff.mp hlength
    obtain ⟨s', hs'⟩ := unrevokeAgent_of_length_le hlength.le
    have hrows := (unrevokeAgent_eq_some_iff.mp hs').2
    refine ⟨s', hs', { e with row := Agent.unrevoke e.row }, ?_, rfl⟩
    rw [hrows, he]
    rfl

/-! ## Histories -/

/-- Enrolling adds a row, and nothing else does. -/
lemma length_step (h : s.step e = some s') :
    s'.rows.length = s.rows.length + if e.isEnroll then 1 else 0 := by
  cases e with
  | enroll id req now => simp [statement_eq_some h, Agent.enroll, Event.isEnroll]
  | heartbeat id p now => simp [statement_eq_some h, Event.isEnroll]
  | shutdown id req now => simp [statement_eq_some h, Event.isEnroll]
  | revoke id reason now => simp [statement_eq_some h, revokeId, Event.isEnroll]
  | leave faults now =>
      cases hlist : faults.list with
      | true => simp [statement_eq_some h, leaveEnrollments, hlist, Event.isEnroll]
      | false => simp [statement_eq_some h, leaveEnrollments, hlist, Event.isEnroll]
  | unrevoke => simp [statement_eq_some h, Event.isEnroll]

lemma length_after (s : Enrollments) (e : Event) :
    (s.after e).rows.length = s.rows.length + if e.isEnroll then 1 else 0 := by
  unfold after
  cases h : s.step e with
  | some s' => exact length_step h
  | none =>
      by_cases he : e = .unrevoke
      · subst he
        rfl
      · obtain ⟨s', hs'⟩ := step_isSome s e he
        rw [h] at hs'
        cases hs'

/-- There are as many rows as there were enrollments. -/
lemma length_run (es : List Event) : (run es).rows.length = es.countP Event.isEnroll := by
  have hfrom : ∀ s : Enrollments, (es.foldl after s).rows.length = s.rows.length + es.countP Event.isEnroll := by
    induction es with
    | nil => intro s; rfl
    | cons e es ih =>
        intro s
        rw [List.foldl_cons, ih, length_after, List.countP_cons]
        omega
  have hrun := hfrom unenrolled
  rwa [show unenrolled.rows.length = 0 from rfl, Nat.zero_add] at hrun

/-- **At most one enrollment is live after every history; and every un-revocation of a contestant who has
enrolled succeeds, and leaves her most recent enrollment live, if and only if none comes after she has
enrolled twice.** -/
theorem unrevoked_iff (es : List Event) :
    (∀ n, ((run (es.take n)).rows.filter Enrollment.live).length ≤ 1) ∧
      ((∀ n, Go.At es n .unrevoke → 0 < (es.take n).countP Event.isEnroll → (run (es.take n)).Recovers) ↔
        ∀ n, Go.At es n .unrevoke → (es.take n).countP Event.isEnroll ≤ 1) := by
  have hiff : ∀ n, 0 < (es.take n).countP Event.isEnroll →
      ((run (es.take n)).Recovers ↔ (es.take n).countP Event.isEnroll = 1) := by
    intro n hpos
    rw [← length_run] at hpos ⊢
    exact recovers_iff (List.length_pos_iff.mp hpos)
  refine ⟨fun n => (run (es.take n)).live_le_one, ?_, ?_⟩
  · intro h n hn
    rcases Nat.eq_zero_or_pos ((es.take n).countP Event.isEnroll) with hzero | hpos
    · omega
    · exact ((hiff n hpos).mp (h n hn hpos)).le
  · intro h n hn hpos
    have hle := h n hn
    exact (hiff n hpos).mpr (by omega)

/-- She enrolls twice and is revoked; un-revoking fails, and no enrollment of hers is live. -/
theorem unrevoked_lost :
    ∃ es : List Event, 0 < es.countP Event.isEnroll ∧ ¬(run es).Recovers
      ∧ ((run es).after .unrevoke).rows.filter Enrollment.live = [] := by
  let es : List Event :=
    [.enroll 1 enrollSample 0, .enroll 2 enrollSample 10, .revoke 2 "left" 20]
  refine ⟨es, by decide, ?_, by decide +kernel⟩
  rintro ⟨s', hs', -⟩
  have hfails : ((run es).unrevokeAgent).isSome = false := by decide +kernel
  rw [hs'] at hfails
  cases hfails

end Enrollments

end Agent

end Labyrithm
