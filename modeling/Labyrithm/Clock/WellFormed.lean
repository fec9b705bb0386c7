import Labyrithm.Clock.Manager
import Labyrithm.Go.Runs

/-!
# Which contests have their times

A running contest needs a start and an end, a paused one its pause time as well: without them
`GetState` reports the whole duration for ever, and the contest does not end by itself.

* `Times.WellFormed` — the times a status asks for are there.
* `Times.step_wellFormed_iff` — an operation keeps that exactly under `Times.KeepsTimes`: `Extend`
  does not reopen a contest without a start, and what is written can be read again.
* **`clocked_iff`** — the runs in which the contest always has its times, and ends.
* `reopened_without_start` — a contest that was ended before it was started, and then extended.
-/

namespace Labyrithm

namespace Clock

open Go

/-! ## Well-formed times -/

structure Times.WellFormed (c : Times) : Prop where
  running : c.status = .running → c.startTime.isSome ∧ c.endTime.isSome
  paused : c.status = .paused → c.startTime.isSome ∧ c.endTime.isSome ∧ c.pausedAt.isSome

/-- What an operation needs for the times to stay: those it writes have a year of four digits, and a
contest that it reopens has a start and an end. -/
def Times.KeepsTimes (c : Times) (now : ℤ) : Op → Prop
  | .start durationMinutes =>
      HasYear now ∧ HasYear (now + duration (c.startDuration durationMinutes) second)
  | .pause _ => HasYear now
  | .resume => HasYear (c.resumedEnd now)
  | .extend minutes =>
      c.status ≠ .notStarted → c.startTime.isSome ∧ ∃ endTime, c.endTime = some endTime ∧
        HasYear ((if now > endTime then now else endTime) + duration (int64 (minutes * 60)) second)
  | .updateSettings req =>
      c.status = .running → 0 < req.durationMinutes → ∃ endTime, c.endTime = some endTime ∧
        HasYear (endTime +
          duration (int64 (int64 (req.durationMinutes * 60) - c.durationSeconds)) second)
  | _ => True

@[simp] lemma stamp_isSome {t : ℤ} : (stamp t).isSome ↔ HasYear t := by
  rw [stamp, parse_format]
  split_ifs with h <;> simp [h]

/-- The end after `Extend` is there if there was one and the new one can be written. -/
lemma Times.extendedEnd_isSome (c : Times) (now minutes : ℤ) :
    (c.extendedEnd now minutes).isSome ↔ ∃ endTime, c.endTime = some endTime ∧
      HasYear ((if now > endTime then now else endTime) + duration (int64 (minutes * 60)) second) := by
  cases hend : c.endTime with
  | none => simp [extendedEnd, hend]
  | some endTime => simp [extendedEnd, hend]

lemma Times.updatedEnd_isSome {c : Times} (durationMinutes : ℤ) (hrun : c.status = .running)
    (hend : c.endTime.isSome) :
    (c.updatedEnd durationMinutes).isSome ↔ ∃ endTime, c.endTime = some endTime ∧
      HasYear (endTime +
        duration (int64 (int64 (durationMinutes * 60) - c.durationSeconds)) second) := by
  obtain ⟨endTime, hend⟩ := Option.isSome_iff_exists.mp hend
  simp [updatedEnd, hrun, hend]

/-! ## One operation -/

lemma Times.wellFormed_of_running {c : Times} (h : c.status = .running) :
    c.WellFormed ↔ c.startTime.isSome ∧ c.endTime.isSome :=
  ⟨fun hw => hw.running h, fun hsome => ⟨fun _ => hsome, fun hp => by simp [h] at hp⟩⟩

lemma Times.wellFormed_of_paused {c : Times} (h : c.status = .paused) :
    c.WellFormed ↔ c.startTime.isSome ∧ c.endTime.isSome ∧ c.pausedAt.isSome :=
  ⟨fun hw => hw.paused h, fun hsome => ⟨fun hr => by simp [h] at hr, fun _ => hsome⟩⟩

/-- A contest that has not started, or is over, needs no times. -/
lemma Times.wellFormed_of_idle {c : Times} (hrun : c.status ≠ .running) (hpaused : c.status ≠ .paused) :
    c.WellFormed :=
  ⟨fun h => absurd h hrun, fun h => absurd h hpaused⟩

section Step

variable {c : Times} {now : ℤ}

lemma Times.extend_wellFormed_iff (h : c.WellFormed) (minutes : ℤ) :
    (c.next now (.extend minutes)).WellFormed ↔ c.KeepsTimes now (.extend minutes) := by
  have hend := c.extendedEnd_isSome now minutes
  cases hstatus : c.status with
  | notStarted =>
      have hidle : (c.next now (.extend minutes)).WellFormed :=
        wellFormed_of_idle (by simp [next, hstatus]) (by simp [next, hstatus])
      simp [hidle, KeepsTimes, hstatus]
  | running | ended =>
      rw [wellFormed_of_running (by simp [next, hstatus])]
      simp [next, KeepsTimes, hstatus, hend]
  | paused =>
      rw [wellFormed_of_paused (by simp [next, hstatus])]
      simp [next, KeepsTimes, hstatus, hend, (h.paused hstatus).2.2]

lemma Times.updateSettings_wellFormed_iff (h : c.WellFormed) (req : SettingsRequest) :
    (c.next now (.updateSettings req)).WellFormed ↔ c.KeepsTimes now (.updateSettings req) := by
  by_cases hpos : 0 < req.durationMinutes
  · by_cases hrun : c.status = .running
    · have hend := updatedEnd_isSome req.durationMinutes hrun
        (h.running hrun).2
      rw [wellFormed_of_running (by simp [next, hpos, hrun])]
      simp [next, KeepsTimes, hpos, hrun, hend, (h.running hrun).1]
    · have hnext : (c.next now (.updateSettings req)).WellFormed :=
        ⟨fun hr => by simp [next, hpos, hrun] at hr, fun hp => by
          simpa [next, hpos, updatedEnd, hrun] using h.paused (by simpa [next, hpos] using hp)⟩
      simp [hnext, KeepsTimes, hrun]
  · simp [next, KeepsTimes, hpos, h]

/-- **An operation that is accepted keeps the times exactly under its condition.** -/
theorem Times.next_wellFormed_iff (h : c.WellFormed) {op : Op} (hacc : c.Accepts op) :
    (c.next now op).WellFormed ↔ c.KeepsTimes now op := by
  cases op with
  | start durationMinutes =>
      rw [wellFormed_of_running rfl]
      simp [next, KeepsTimes]
  | pause checked =>
      have hsome := h.running (running_of_progress hacc)
      rw [wellFormed_of_paused rfl]
      simp [next, KeepsTimes, hsome]
  | resume =>
      have hsome := h.paused hacc
      rw [wellFormed_of_running rfl]
      simp [next, KeepsTimes, hsome]
  | extend minutes => exact extend_wellFormed_iff h minutes
  | updateSettings req => exact updateSettings_wellFormed_iff h req
  | freeze | unfreeze => exact iff_of_true h trivial
  | reset | endContest =>
      exact iff_of_true (wellFormed_of_idle (by simp [next]) (by simp [next])) trivial

/-- The same for any operation, as one that is refused changes nothing. -/
theorem Times.step_wellFormed_iff (h : c.WellFormed) (op : Op) :
    (c.step now op).WellFormed ↔ (c.Accepts op → c.KeepsTimes now op) := by
  unfold step
  split_ifs with hacc
  · simp [next_wellFormed_iff h hacc, hacc]
  · simp [h, hacc]

end Step

/-! ## The end of a running contest -/

/-- A running contest with its times is reported as ended after its end. -/
lemma Times.progress_after_end {c : Times} {startTime endTime t : ℤ} (hrun : c.status = .running)
    (hstart : c.startTime = some startTime) (hend : c.endTime = some endTime) (ht : endTime < t) :
    (c.progress t).1 = .ended := by
  simp [progress, hrun, hstart, hend, ht]

/-- A contest always has its times, and a running one is reported as ended in the long run. -/
structure Manager.Clocked (m : Manager) : Prop where
  wellFormed : m.snapshot.WellFormed
  ends : m.snapshot.status = .running → ∃ last, ∀ now > last, (m.snapshot.getState now).status = .ended

lemma Manager.clocked_iff_wellFormed {m : Manager} : m.Clocked ↔ m.snapshot.WellFormed := by
  refine ⟨fun h => h.wellFormed, fun h => ⟨h, fun hrun => ?_⟩⟩
  obtain ⟨hstart, hend⟩ := h.running hrun
  obtain ⟨startTime, hstart⟩ := Option.isSome_iff_exists.mp hstart
  obtain ⟨endTime, hend⟩ := Option.isSome_iff_exists.mp hend
  exact ⟨endTime, fun now hnow => Times.progress_after_end hrun hstart hend hnow⟩

/-! ## Runs -/

lemma wellFormed_migrated : (parseSnapshot .migrated).WellFormed :=
  Times.wellFormed_of_idle (by decide) (by decide)

lemma has_migrated : (Manager.load .migrated).Has (parseSnapshot .migrated).toTimes := ⟨_, rfl, rfl⟩

/-- What a run leads to. -/
def after (events : List (ℤ × Op)) : Manager := (Manager.load .migrated).run events

lemma after_times (events : List (ℤ × Op)) :
    (after events).snapshot.toTimes = (parseSnapshot .migrated).toTimes.run events :=
  (has_migrated.run events).times

/-- Every operation of the run meets its condition. -/
def KeepsTimes (events : List (ℤ × Op)) : Prop :=
  ∀ n now op, events[n]? = some (now, op) → (after (events.take n)).snapshot.Accepts op →
    (after (events.take n)).snapshot.KeepsTimes now op

/-- **The contest always has its times, and ends, exactly in the runs whose operations meet their
condition.** -/
theorem clocked_iff (events : List (ℤ × Op)) :
    (∀ n, (after (events.take n)).Clocked) ↔ KeepsTimes events := by
  have hruns := foldl_keeps_iff (I := Times.WellFormed) (f := fun c (e : ℤ × Op) => c.step e.1 e.2)
    (fun _ e h => Times.step_wellFormed_iff h e.2) wellFormed_migrated events
  simp only [Manager.clocked_iff_wellFormed, after_times, KeepsTimes]
  exact hruns.trans ⟨fun h n now op => h n (now, op), fun h n e => h n e.1 e.2⟩

/-- End a contest that was never started, then extend it by ten minutes. -/
def reopened : List (ℤ × Op) := [(0, .endContest), (second, .extend 10)]

/-- The contest runs without a start. -/
theorem reopened_without_start : ¬ ∀ events n, (after (List.take n events)).Clocked := by
  intro h
  have hsome := ((h reopened 2).wellFormed.running (by decide)).1
  revert hsome
  decide

end Clock

end Labyrithm
