import Labyrithm.Clock.WellFormed

/-!
# The status that operations go by

`GetState` reports a running contest as ended once its end has passed, while the row still says that it
runs.  `Pause` asks for the status that is reported; `Start` and `Resume` read the row, and `Extend` takes
a contest of any status.

* `Status.Admits` — the operations a status admits.
* `Times.Lapsed` — the contests whose status is reported as another one than their row's.
* `follows_iff` — an operation goes by the reported status, and treats a lapsed contest like one that was
  ended, unless it starts a lapsed one.
* **`lifecycle_follows_iff`** — the runs in which all operations do.
-/

namespace Labyrithm

namespace Clock

open Go

/-- Whether a contest of a status can be started, paused, resumed or extended. -/
def Status.Admits : Status → Op → Prop
  | status, .start _ => status = .notStarted ∨ status = .ended
  | status, .pause _ => status = .running
  | status, .resume => status = .paused
  | _, .extend minutes => 0 < minutes
  | _, _ => True

/-- The four operations. -/
def Op.Lifecycle : Op → Prop
  | .start _ | .pause _ | .resume | .extend _ => True
  | _ => False

/-- The instant at which the clock is read to decide on an operation. -/
def Op.decidedAt (now : ℤ) : Op → ℤ
  | .pause checked => checked
  | _ => now

/-- A contest that runs by its row, and whose end has passed. -/
def Times.Lapsed (c : Times) (t : ℤ) : Prop :=
  c.status = .running ∧ c.startTime.isSome ∧ ∃ endTime ∈ c.endTime, endTime < t

/-- The operation starts a lapsed contest. -/
def Times.StartsLapsed (c : Times) (now : ℤ) : Op → Prop
  | .start _ => c.Lapsed now
  | _ => False

instance (c : Times) (t : ℤ) : Decidable (c.Lapsed t) := inferInstanceAs (Decidable (_ ∧ _ ∧ _))

def Manager.Accepted (m : Manager) (now : ℤ) (op : Op) : Prop := ∃ m', m.apply now op = .ok m'

/-- An operation is accepted or refused by the status that `GetState` reports, and by a lapsed contest like
by one that was ended. -/
structure Manager.Follows (m : Manager) (now : ℤ) (op : Op) : Prop where
  byStatus : m.Accepted now op ↔ (m.snapshot.getState (op.decidedAt now)).status.Admits op
  asEnded : m.snapshot.Lapsed (op.decidedAt now) →
    ∀ t, m.Accepted now op ↔ (m.endContest t).Accepted now op

section Status

variable {m : Manager} {c : Times} {now t : ℤ} {op : Op}

lemma Manager.Has.accepted_iff (h : m.Has c) (now : ℤ) (op : Op) : m.Accepted now op ↔ c.Accepts op := by
  constructor
  · rintro ⟨m', hm'⟩
    by_contra hacc
    obtain ⟨err, herr⟩ := apply_error h now op hacc
    rw [herr] at hm'
    cases hm'
  · intro hacc
    obtain ⟨m', hm', -⟩ := apply_eq h now op hacc
    exact ⟨m', hm'⟩

/-- The reported status is the one in the row, but for a lapsed contest. -/
lemma Times.progress_status (c : Times) (t : ℤ) :
    (c.progress t).1 = if c.Lapsed t then .ended else c.status := by
  cases hstatus : c.status with
  | notStarted | ended => simp [progress, Lapsed, hstatus]
  | running =>
      cases hstart : c.startTime with
      | none => simp [progress, Lapsed, hstatus, hstart]
      | some startTime =>
          cases hend : c.endTime with
          | none => simp [progress, Lapsed, hstatus, hstart, hend]
          | some endTime =>
              by_cases hlate : endTime < t
              · simp [progress, Lapsed, hstatus, hstart, hend, hlate]
              · simp [progress, Lapsed, hstatus, hstart, hend, hlate]
  | paused =>
      have hnot : ¬c.Lapsed t := by simp [Lapsed, hstatus]
      rw [if_neg hnot]
      simp only [progress, hstatus]
      split <;> rfl

/-- Of the four operations only starting a lapsed contest does not go by the reported status. -/
lemma Times.accepts_iff_admits (hop : op.Lifecycle) (now : ℤ) :
    (c.Accepts op ↔ (c.progress (op.decidedAt now)).1.Admits op) ↔ ¬c.StartsLapsed now op := by
  cases op with
  | start durationMinutes =>
      simp only [Accepts, Status.Admits, StartsLapsed, Op.decidedAt, progress_status]
      by_cases hlapsed : c.Lapsed now
      · simp [hlapsed, hlapsed.1]
      · cases hstatus : c.status with
        | notStarted | running | paused | ended => simp [hlapsed]
  | pause checked => simp [Accepts, Status.Admits, StartsLapsed, Op.decidedAt]
  | resume =>
      simp only [Accepts, Status.Admits, StartsLapsed, Op.decidedAt, progress_status]
      by_cases hlapsed : c.Lapsed now
      · simp [hlapsed, hlapsed.1]
      · simp [hlapsed]
  | extend minutes => simp [Accepts, Status.Admits, StartsLapsed]
  | freeze | unfreeze | reset | endContest | updateSettings _ => exact hop.elim

/-- And no other treats a lapsed contest like one that was not ended. -/
lemma Times.accepts_lapsed (hop : op.Lifecycle) (hlapsed : c.Lapsed (op.decidedAt now))
    (hstart : ¬c.StartsLapsed now op) (t : ℤ) : c.Accepts op ↔ (c.next t .endContest).Accepts op := by
  cases op with
  | start durationMinutes => exact absurd hlapsed hstart
  | pause checked =>
      have hended : (c.progress checked).1 = .ended := by
        rw [progress_status]
        exact if_pos hlapsed
      have hnext : ((c.next t .endContest).progress checked).1 = .ended := rfl
      show (c.progress checked).1 = .running ↔ ((c.next t .endContest).progress checked).1 = .running
      rw [hended, hnext]
  | resume => simp [Accepts, hlapsed.1, next]
  | extend minutes => simp [Accepts]
  | freeze | unfreeze | reset | endContest | updateSettings _ => exact hop.elim

lemma Manager.Has.endContest (h : m.Has c) (t : ℤ) : (m.endContest t).Has (c.next t .endContest) := by
  obtain ⟨m', hm', hhas⟩ := apply_eq h t .endContest trivial
  obtain rfl : m.endContest t = m' := Except.ok.inj hm'
  exact hhas

theorem follows_iff (h : m.Has c) (hop : op.Lifecycle) (now : ℤ) :
    m.Follows now op ↔ ¬c.StartsLapsed now op := by
  have hstatus : m.Accepted now op ↔ c.Accepts op := h.accepted_iff now op
  constructor
  · intro hfollows
    refine (Times.accepts_iff_admits hop now).mp ?_
    rw [← hstatus, hfollows.byStatus]
    show (m.snapshot.progress _).1.Admits op ↔ _
    rw [h.times]
  · intro hstart
    refine ⟨?_, fun hlapsed t => ?_⟩
    · rw [hstatus, (Times.accepts_iff_admits hop now).mpr hstart]
      show _ ↔ (m.snapshot.progress _).1.Admits op
      rw [h.times]
    · rw [hstatus, (h.endContest t).accepted_iff]
      rw [h.times] at hlapsed
      exact Times.accepts_lapsed hop hlapsed hstart t

end Status

/-- **In a run, all starts, pauses, resumptions and extensions go by the reported status, and treat a lapsed
contest like one that was ended, if and only if none starts a lapsed one.** -/
theorem lifecycle_follows_iff (stored : Settings) (events : List (ℤ × Op)) :
    (∀ n now op, events[n]? = some (now, op) → op.Lifecycle →
        ((Manager.load stored).run (events.take n)).Follows now op) ↔
      ∀ n now op, events[n]? = some (now, op) →
        ¬((Manager.load stored).run (events.take n)).snapshot.StartsLapsed now op := by
  have hhas : ∀ n, ((Manager.load stored).run (events.take n)).Has
      ((Manager.load stored).run (events.take n)).snapshot.toTimes := by
    intro n
    have hrun := Manager.Has.run (m := Manager.load stored) ⟨stored, rfl, rfl⟩ (events.take n)
    rwa [hrun.times]
  constructor
  · intro h n now op hat hstart
    have hop : op.Lifecycle := by
      cases op with
      | start durationMinutes => trivial
      | pause _ | resume | extend _ | freeze | unfreeze | reset | endContest | updateSettings _ =>
          exact hstart.elim
    exact (follows_iff (hhas n) hop now).mp (h n now op hat hop) hstart
  · intro h n now op hat hop
    exact (follows_iff (hhas n) hop now).mpr (h n now op hat)

/-- A contest of two hours that was started at the epoch. -/
def startedAtEpoch : Manager := (Manager.load .migrated).run [(0, .start 120)]

/-- Three hours later it is reported as ended; it cannot be started, and could be if it had been ended. -/
theorem lapsed_not_started :
    let now := 3 * 60 * minute
    (startedAtEpoch.snapshot.getState now).status = .ended ∧ ¬startedAtEpoch.Accepted now (.start 120) ∧
      ((startedAtEpoch.endContest now).snapshot.getState now).status = .ended ∧
      (startedAtEpoch.endContest now).Accepted now (.start 120) := by
  refine ⟨by decide +kernel, ?_, by decide +kernel, ?_⟩
  · rintro ⟨m', hm'⟩
    have hrefused : startedAtEpoch.apply (3 * 60 * minute) (.start 120) = .error .contestAlreadyRunning :=
      rfl
    rw [hrefused] at hm'
    cases hm'
  · exact ⟨_, rfl⟩

end Clock

end Labyrithm
