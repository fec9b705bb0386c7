import Labyrithm.Clock.Accounting

/-!
# Elapsed and remaining time

`GetState` counts what has elapsed from the start and what remains from the end, and the two add up to the
time between them.  That is the duration for a contest that has just been started.  `Resume` puts the end
off by the pause, which then counts as elapsed; `Extend` counts from now where the stored end has passed;
and `UpdateSettings` leaves the end of a paused contest where it is.

* `Times.drift` — by how many seconds the end is away from the start and the duration.
* `Times.Keeps` — an operation that leaves the drift within what two seconds of rounding allow.
* `addsUp_running_iff` — which drift that is for a running contest.

**`times_add_up`** — in every run of operations that keep it there, elapsed and remaining time add up to
the duration, in every state and at every instant.
-/

namespace Labyrithm

namespace Clock

open Go

/-- The seconds elapsed that `GetState` reports. -/
def Times.elapsed (c : Times) (now : ℤ) : ℤ := (c.progress now).2.2

/-- What a running or paused contest reports adds up to its duration, up to two seconds. -/
def Times.AddsUp (c : Times) (now : ℤ) : Prop :=
  (c.progress now).1 = .running ∨ (c.progress now).1 = .paused →
    |c.elapsed now + c.remaining now - c.durationSeconds| ≤ 2

instance (c : Times) (now : ℤ) : Decidable (c.AddsUp now) := inferInstanceAs (Decidable (_ → _))

/-! ## Drift -/

/-- By how many seconds the end is away from the start and the duration. -/
def Times.drift (c : Times) : ℤ :=
  (c.endTime.getD 0 - c.startTime.getD 0) / second - c.durationSeconds

/-- How long ago the contest was paused, in seconds. -/
def Times.pausedFor (c : Times) (now : ℤ) : ℤ := now / second - c.pausedAt.getD 0 / second

/-- How long ago the stored end was, in seconds. -/
def Times.lateBy (c : Times) (now : ℤ) : ℤ := max 0 (now / second - c.endTime.getD 0 / second)

/-- The nanoseconds of these seconds fit a duration, with two seconds of rounding. -/
def Short (sec : ℤ) : Prop := (sec + 2) * second < 2 ^ 63

instance (sec : ℤ) : Decidable (Short sec) := inferInstanceAs (Decidable (_ < _))

/-- An operation leaves the drift between -1 and 2 seconds, or -2 and 2 where the contest is paused. -/
def Times.Keeps (c : Times) (now : ℤ) : Op → Prop
  | .start durationMinutes => Short (c.startDuration durationMinutes)
  | .pause _ => c.drift + c.lateBy now ≤ 2
  | .resume => -1 ≤ c.drift + c.pausedFor now ∧ c.drift + c.pausedFor now ≤ 2
  | .extend minutes =>
      (c.status ≠ .notStarted → c.drift + c.lateBy now ≤ 2) ∧ Short (c.durationSeconds + minutes * 60)
  | .updateSettings req =>
      0 < req.durationMinutes → Short (req.durationMinutes * 60) ∧
        (c.status = .paused → |c.drift + c.durationSeconds - req.durationMinutes * 60| ≤ 2 ∧
          (c.pausedAt.getD 0 - c.startTime.getD 0) / second - req.durationMinutes * 60 ≤ 2)
  | _ => True

instance (c : Times) (now : ℤ) : (op : Op) → Decidable (c.Keeps now op)
  | .start _ => inferInstanceAs (Decidable (_ < _))
  | .pause _ => inferInstanceAs (Decidable (_ ≤ _))
  | .resume | .extend _ => inferInstanceAs (Decidable (_ ∧ _))
  | .updateSettings _ => inferInstanceAs (Decidable (_ → _))
  | .freeze | .unfreeze | .reset | .endContest => inferInstanceAs (Decidable True)

section Drift

variable {c : Times} {now startSec endSec pauseSec : ℤ}

lemma drift_of_times (hstart : c.startTime = some (startSec * second))
    (hend : c.endTime = some (endSec * second)) : c.drift = endSec - startSec - c.durationSeconds := by
  rw [Times.drift, hstart, hend, Option.getD_some, Option.getD_some, ← sub_mul,
    Int.mul_ediv_cancel _ second_pos.ne']

lemma lateBy_of_end (hend : c.endTime = some (endSec * second)) :
    c.lateBy now = max 0 (now / second - endSec) := by
  rw [Times.lateBy, hend, Option.getD_some, Int.mul_ediv_cancel _ second_pos.ne']

lemma pausedFor_of_paused (hpaused : c.pausedAt = some (pauseSec * second)) :
    c.pausedFor now = now / second - pauseSec := by
  rw [Times.pausedFor, hpaused, Option.getD_some, Int.mul_ediv_cancel _ second_pos.ne']

end Drift

/-! ## What is reported -/

section Reports

variable {c : Times} {now startSec endSec : ℤ}

/-- Elapsed and remaining time of a running contest, as they are rounded. -/
lemma Times.running_reports (hstatus : c.status = .running) (hstart : c.startTime = some (startSec * second))
    (hend : c.endTime = some (endSec * second)) (hshort : (endSec - startSec) * second < 2 ^ 63)
    (hle : startSec * second ≤ now) (hnow : now ≤ endSec * second) :
    c.elapsed now = seconds (now - startSec * second) ∧ c.remaining now = seconds (endSec * second - now) := by
  constructor
  · simp only [elapsed, progress, hstatus, hstart, hend]
    rw [if_neg (not_lt.mpr hnow)]
    refine (secondsBetween_eq ?_).trans (by rw [max_eq_right (by omega)])
    unfold second at *
    omega
  · rw [remaining_of_running hstatus hstart hend, max_eq_right (by omega)]
    unfold second at *
    omega

lemma Times.running_adds (hstatus : c.status = .running) (hstart : c.startTime = some (startSec * second))
    (hend : c.endTime = some (endSec * second)) (hshort : (endSec - startSec) * second < 2 ^ 63)
    (hle : startSec * second ≤ now) (hnow : now ≤ endSec * second) :
    endSec - startSec - 1 ≤ c.elapsed now + c.remaining now ∧
      c.elapsed now + c.remaining now ≤ endSec - startSec := by
  obtain ⟨helapsed, hremaining⟩ := running_reports hstatus hstart hend hshort hle hnow
  rw [helapsed, hremaining]
  exact seconds_add (by omega) (by omega) (by ring) hshort

/-- Which drift of a running contest two seconds of rounding allow. -/
theorem addsUp_running_iff (hstatus : c.status = .running)
    (hstart : c.startTime = some (startSec * second)) (hend : c.endTime = some (endSec * second))
    (hshort : (endSec - startSec) * second < 2 ^ 63) (hlong : startSec < endSec) :
    (∀ now, startSec * second ≤ now → now ≤ endSec * second → c.AddsUp now)
      ↔ -1 ≤ c.drift ∧ c.drift ≤ 2 := by
  rw [drift_of_times hstart hend]
  constructor
  · intro h
    have hreport (now : ℤ) (hle : startSec * second ≤ now) (hnow : now ≤ endSec * second) :
        |seconds (now - startSec * second) + seconds (endSec * second - now) - c.durationSeconds| ≤ 2 := by
      have hrunning : (c.progress now).1 = .running := by
        simp only [Times.progress, hstatus, hstart, hend]
        rw [if_neg (not_lt.mpr hnow)]
      have hadds := h now hle hnow (.inl hrunning)
      obtain ⟨helapsed, hremaining⟩ := Times.running_reports hstatus hstart hend hshort hle hnow
      rwa [helapsed, hremaining] at hadds
    -- all is left at the start, and half a second later one less is told
    have hwhole := hreport (startSec * second) le_rfl (by unfold second; omega)
    have hsplit := hreport (startSec * second + 500000000) (by omega) (by unfold second; omega)
    rw [sub_self, seconds_zero, ← sub_mul, seconds_mul (by omega) hshort, abs_le] at hwhole
    rw [seconds_half (by omega) (by unfold second at *; omega) (by unfold second; omega),
      seconds_half (by unfold second; omega) (by unfold second at *; omega) (by unfold second; omega),
      abs_le] at hsplit
    unfold second at *
    omega
  · intro h now hle hnow _
    have hadds := Times.running_adds hstatus hstart hend hshort hle hnow
    rw [abs_le]
    omega

end Reports

/-! ## Runs -/

/-- The times that a run of these operations leaves by `t`. -/
structure Times.Steady (c : Times) (t : ℤ) : Prop where
  sound : c.Sound t
  notEnded : c.status ≠ .ended
  running : c.status = .running → ∃ startSec endSec, c.startTime = some (startSec * second)
    ∧ c.endTime = some (endSec * second) ∧ startSec * second ≤ t
    ∧ -1 ≤ endSec - startSec - c.durationSeconds ∧ endSec - startSec - c.durationSeconds ≤ 2
  paused : c.status = .paused → ∃ startSec endSec pauseSec, c.startTime = some (startSec * second)
    ∧ c.endTime = some (endSec * second) ∧ c.pausedAt = some (pauseSec * second)
    ∧ startSec ≤ pauseSec ∧ pauseSec * second ≤ t
    ∧ -2 ≤ endSec - startSec - c.durationSeconds
    ∧ max pauseSec endSec - startSec - c.durationSeconds ≤ 2
  short : c.status ≠ .notStarted → Short c.durationSeconds

/-- `Start`, `Pause`, `Resume`, `Extend` and `UpdateSettings`. -/
def Op.Moves : Op → Bool
  | .start _ | .pause _ | .resume | .extend _ | .updateSettings _ => true
  | _ => false

/-- A run of these operations, one after the other, which fit and keep the drift. -/
def Manager.KeepsDrift : Manager → ℤ → List (ℤ × Op) → Prop
  | _, _, [] => True
  | m, t, (now, op) :: events =>
      t ≤ now ∧ op.Moves ∧ (m.snapshot.Accepts op → m.snapshot.Fits now op ∧ m.snapshot.Keeps now op)
        ∧ (m.step now op).KeepsDrift now events

/-- The instant of the last operation. -/
def lastInstant (t : ℤ) (events : List (ℤ × Op)) : ℤ := events.foldl (fun _ e => e.1) t

section Runs

variable {c : Times} {m : Manager} {t now : ℤ} {op : Op}

lemma Times.Steady.mono (h : c.Steady t) (ht : t ≤ now) : c.Steady now where
  sound := h.sound.mono ht
  notEnded := h.notEnded
  running hstatus := by
    obtain ⟨s, e, hstart, hend, hle, hdrift⟩ := h.running hstatus
    exact ⟨s, e, hstart, hend, by omega, hdrift⟩
  paused hstatus := by
    obtain ⟨s, e, p, hstart, hend, hpaused, hsp, hle, hdrift⟩ := h.paused hstatus
    exact ⟨s, e, p, hstart, hend, hpaused, hsp, by omega, hdrift⟩
  short := h.short

/-- In such a state the reports add up. -/
lemma Times.Steady.addsUp (h : c.Steady t) (ht : t ≤ now) : c.AddsUp now := by
  rintro (hreport | hreport)
  · have hstatus := running_of_progress hreport
    obtain ⟨s, e, hstart, hend, hle, hlow, hhigh⟩ := h.running hstatus
    have hshort := h.short (by simp [hstatus])
    have hnow : now ≤ e * second := by
      by_contra hlate
      simp [progress, hstatus, hstart, hend, lt_of_not_ge hlate] at hreport
    have hadds := running_adds hstatus hstart hend (by unfold Short second at *; omega) (by omega) hnow
    rw [abs_le]
    omega
  · have hstatus := paused_of_progress hreport
    obtain ⟨s, e, p, hstart, hend, hpaused, hsp, -, hlow, hhigh⟩ := h.paused hstatus
    have hshort := h.short (by simp [hstatus])
    have hduration := h.sound.duration_pos
    have hfits : p * second - s * second < 2 ^ 63 := by
      unfold Short second at *
      omega
    have helapsed : c.elapsed now = max 0 (p - s) := by
      simp only [elapsed, progress, hstatus, hstart, hend, hpaused]
      exact (secondsBetween_eq hfits).trans (seconds_whole hfits)
    have hremaining := remaining_of_paused_whole now hstatus hstart hend hpaused (by
      unfold Short second at *
      omega)
    rw [helapsed, hremaining, abs_le]
    unfold second at *
    omega

/-- A contest that is started. -/
lemma Times.Steady.start {durationMinutes : ℤ} (hsound : (c.next now (.start durationMinutes)).Sound now)
    (hfits : c.Fits now (.start durationMinutes)) (hkeeps : c.Keeps now (.start durationMinutes)) :
    (c.next now (.start durationMinutes)).Steady now := by
  obtain ⟨hpos, hdur, hyear, hyearEnd⟩ := hfits
  have hduration : (c.next now (.start durationMinutes)).durationSeconds
      = c.startDuration durationMinutes := parseDuration_of_pos hpos
  have hend := stamp_of_hasYear hyearEnd
  rw [← duration_of_fits hdur] at hend
  refine ⟨hsound, fun hs => Status.noConfusion hs, fun _ => ?_, fun hs => Status.noConfusion hs,
    fun _ => ?_⟩
  · refine ⟨_, _, stamp_of_hasYear hyear, hend, Int.ediv_mul_le now second_pos.ne', ?_⟩
    rw [hduration, duration_of_fits hdur, Int.add_mul_ediv_right _ _ second_pos.ne']
    omega
  · rw [hduration]
    exact hkeeps

/-- A pause, which may be behind the end. -/
lemma Times.Steady.pause {checked : ℤ} (h : c.Steady t) (ht : t ≤ now)
    (hsound : (c.next now (.pause checked)).Sound now) (hacc : c.Accepts (.pause checked))
    (hfits : c.Fits now (.pause checked)) (hkeeps : c.Keeps now (.pause checked)) :
    (c.next now (.pause checked)).Steady now := by
  have hstatus := running_of_progress hacc
  obtain ⟨s, e, hstart, hend, hle, hlow, hhigh⟩ := h.running hstatus
  have hlate : c.drift + c.lateBy now ≤ 2 := hkeeps
  rw [drift_of_times hstart hend, lateBy_of_end hend] at hlate
  refine ⟨hsound, fun hs => Status.noConfusion hs, fun hs => Status.noConfusion hs, fun _ => ?_,
    fun _ => h.short (by simp [hstatus])⟩
  refine ⟨s, e, now / second, hstart, hend, stamp_of_hasYear hfits, ?_,
    Int.ediv_mul_le now second_pos.ne', ?_, ?_⟩
  · unfold second at *
    omega
  · show -2 ≤ e - s - c.durationSeconds
    omega
  · show max (now / second) e - s - c.durationSeconds ≤ 2
    omega

/-- The end moves by the length of the pause. -/
lemma Times.Steady.resume (h : c.Steady t) (ht : t ≤ now) (hsound : (c.next now .resume).Sound now)
    (hacc : c.Accepts .resume) (hfits : c.Fits now .resume) (hkeeps : c.Keeps now .resume) :
    (c.next now .resume).Steady now := by
  have hstatus : c.status = .paused := hacc
  obtain ⟨s, e, p, hstart, hend, hpaused, hsp, hle, hlow, hhigh⟩ := h.paused hstatus
  have hend' := resumedEnd_eq hend hpaused (by omega) hfits
  obtain ⟨hdriftLow, hdriftHigh⟩ := hkeeps
  rw [drift_of_times hstart hend, pausedFor_of_paused hpaused] at hdriftLow hdriftHigh
  have hsec : (e * second + (now - p * second)) / second = e + (now / second - p) := by
    unfold second
    omega
  refine ⟨hsound, fun hs => Status.noConfusion hs, fun _ => ?_, fun hs => Status.noConfusion hs,
    fun _ => h.short (by simp [hstatus])⟩
  refine ⟨s, _, hstart, hend', ?_, ?_⟩
  · unfold second at *
    omega
  · rw [hsec]
    show -1 ≤ e + (now / second - p) - s - c.durationSeconds
      ∧ e + (now / second - p) - s - c.durationSeconds ≤ 2
    omega

/-- The end moves from where it is, or from now. -/
lemma Times.Steady.extend {minutes : ℤ} (h : c.Steady t) (ht : t ≤ now)
    (hsound : (c.next now (.extend minutes)).Sound now) (hacc : c.Accepts (.extend minutes))
    (hfits : c.Fits now (.extend minutes)) (hkeeps : c.Keeps now (.extend minutes)) :
    (c.next now (.extend minutes)).Steady now := by
  obtain ⟨hdrift, hshort⟩ := hkeeps
  have hduration := extendedDuration_eq h.sound.duration_pos hacc hfits
  have hstatus : (c.next now (.extend minutes)).status = c.status := if_neg h.notEnded
  have hlateSec (e : ℤ) : (max (e * second) now + minutes * 60 * second) / second
      = max e (now / second) + minutes * 60 := by
    unfold second
    omega
  refine ⟨hsound, by rw [hstatus]; exact h.notEnded, fun hs => ?_, fun hs => ?_, fun _ => ?_⟩
  · rw [hstatus] at hs
    obtain ⟨s, e, hstart, hend, hle, hlow, hhigh⟩ := h.running hs
    have hlate := hdrift (by simp [hs])
    rw [drift_of_times hstart hend, lateBy_of_end hend] at hlate
    refine ⟨s, _, hstart, extendedEnd_eq hend hfits, by omega, ?_⟩
    rw [hlateSec, hduration]
    omega
  · rw [hstatus] at hs
    obtain ⟨s, e, p, hstart, hend, hpaused, hsp, hle, hlow, hhigh⟩ := h.paused hs
    have hlate := hdrift (by simp [hs])
    rw [drift_of_times hstart hend, lateBy_of_end hend] at hlate
    have hminutes : 0 < minutes := hacc
    refine ⟨s, _, p, hstart, extendedEnd_eq hend hfits, hpaused, hsp, by omega, ?_⟩
    rw [hlateSec, hduration]
    omega
  · rw [hduration]
    exact hshort

/-- A new duration moves the end of a running contest only. -/
lemma Times.Steady.updateSettings {req : SettingsRequest} (h : c.Steady t) (ht : t ≤ now)
    (hsound : (c.next now (.updateSettings req)).Sound now) (hfits : c.Fits now (.updateSettings req))
    (hkeeps : c.Keeps now (.updateSettings req)) : (c.next now (.updateSettings req)).Steady now := by
  obtain ⟨hstatus, hstart', hpaused'⟩ := c.updateSettings_kept now req
  by_cases hpos : 0 < req.durationMinutes
  · obtain ⟨hshort, hdrift⟩ := hkeeps hpos
    have hduration := updatedDuration_eq hpos hfits
    refine ⟨hsound, by rw [hstatus]; exact h.notEnded, fun hs => ?_, fun hs => ?_, fun _ => ?_⟩
    · rw [hstatus] at hs
      obtain ⟨s, e, hstart, hend, hle, hlow, hhigh⟩ := h.running hs
      refine ⟨s, _, hstart'.trans hstart, updatedEnd_eq hs hend hpos hfits, by omega, ?_⟩
      rw [hduration, ← add_mul, Int.mul_ediv_cancel _ second_pos.ne']
      omega
    · rw [hstatus] at hs
      obtain ⟨s, e, p, hstart, hend, hpaused, hsp, hle, hlow, hhigh⟩ := h.paused hs
      obtain ⟨habs, hover⟩ := hdrift hs
      rw [drift_of_times hstart hend, abs_le] at habs
      rw [hpaused, hstart, Option.getD_some, Option.getD_some, ← sub_mul,
        Int.mul_ediv_cancel _ second_pos.ne'] at hover
      have hend' := (updateSettings_endTime now req (by simp [hs])).trans hend
      refine ⟨s, e, p, hstart'.trans hstart, hend', hpaused'.trans hpaused, hsp, by omega, ?_⟩
      rw [hduration]
      omega
    · rw [hduration]
      exact hshort
  · have hsame : c.next now (.updateSettings req) = c := if_neg hpos
    rw [hsame]
    exact h.mono ht

/-- An operation that fits and keeps the drift leads to such a state again. -/
lemma Times.Steady.next (h : c.Steady t) (ht : t ≤ now) (hop : op.Moves) (hacc : c.Accepts op)
    (hfits : c.Fits now op) (hkeeps : c.Keeps now op) : (c.next now op).Steady now := by
  have hsound := h.sound.next ht hacc hfits
  cases op with
  | start durationMinutes => exact .start hsound hfits hkeeps
  | pause checked => exact h.pause ht hsound hacc hfits hkeeps
  | resume => exact h.resume ht hsound hacc hfits hkeeps
  | extend minutes => exact h.extend ht hsound hacc hfits hkeeps
  | updateSettings req => exact h.updateSettings ht hsound hfits hkeeps
  | freeze | unfreeze | reset | endContest => cases hop

/-- Such a run stays in such states. -/
lemma steady_run (events : List (ℤ × Op)) (hhas : m.Has c) (hc : c.Steady t)
    (h : m.KeepsDrift t events) : ∃ c', (m.run events).Has c' ∧ c'.Steady (lastInstant t events) := by
  induction events generalizing m c t with
  | nil => exact ⟨c, hhas, hc⟩
  | cons e events ih =>
      obtain ⟨now, op⟩ := e
      obtain ⟨ht, hop, hstep, hrest⟩ := h
      rw [hhas.times] at hstep
      refine ih (hhas.step now op) ?_ hrest
      unfold Times.step
      split_ifs with hacc
      · obtain ⟨hfits, hkeeps⟩ := hstep hacc
        exact hc.next ht hop hacc hfits hkeeps
      · exact hc.mono ht

lemma steady_migrated (t : ℤ) : (parseSnapshot .migrated).toTimes.Steady t where
  sound := ⟨parseDuration_pos (some 7200), fun hne => absurd rfl hne, fun hp => Status.noConfusion hp⟩
  notEnded := by decide
  running hs := Status.noConfusion hs
  paused hs := Status.noConfusion hs
  short hne := absurd rfl hne

end Runs

/-- What `GetState` reports of a running or paused contest adds up to its duration. -/
def Manager.AddsUp (m : Manager) (now : ℤ) : Prop :=
  (m.snapshot.getState now).status = .running ∨ (m.snapshot.getState now).status = .paused →
    |(m.snapshot.getState now).elapsedSeconds + (m.snapshot.getState now).remainingSeconds
      - (m.snapshot.getState now).durationSeconds| ≤ 2

instance (m : Manager) (now : ℤ) : Decidable (m.AddsUp now) := inferInstanceAs (Decidable (_ → _))

/-- **Elapsed and remaining time add up**: after every run of operations that fit and keep the drift, at
every instant from the last of them on. -/
theorem times_add_up (t : ℤ) (events : List (ℤ × Op))
    (h : (Manager.load .migrated).KeepsDrift t events) (now : ℤ) (hnow : lastInstant t events ≤ now) :
    ((Manager.load .migrated).run events).AddsUp now := by
  obtain ⟨c, hhas, hsteady⟩ := steady_run events ⟨.migrated, rfl, rfl⟩ (steady_migrated t) h
  have hadds := hsteady.addsUp hnow
  rw [← hhas.times] at hadds
  exact hadds

/-- A contest that is started, paused and resumed within a second, and extended. -/
def briefPause : List (ℤ × Op) :=
  [(0, .start 120), (hour, .pause hour), (hour + 1, .resume), (hour + 2 * second, .extend 10)]

theorem times_add_up_brief : ((Manager.load .migrated).run briefPause).AddsUp (2 * hour) :=
  times_add_up 0 briefPause
    ⟨by decide, by decide, fun _ => by decide, by decide, by decide, fun _ => by decide, by decide,
      by decide, fun _ => by decide, by decide, by decide, fun _ => by decide, trivial⟩ (2 * hour)
    (by decide)

/-- After a pause of ten seconds an hour of the two has elapsed with ten seconds more, and an hour
remains. -/
theorem paused_adds_more :
    ¬ ∀ events now, lastInstant 0 events ≤ now → ((Manager.load .migrated).run events).AddsUp now := by
  intro h
  have hadds := h [(0, .start 120), (hour, .pause hour), (hour + 10 * second, .resume)]
    (hour + 10 * second) (by decide)
  revert hadds
  decide +kernel

end Clock

end Labyrithm
