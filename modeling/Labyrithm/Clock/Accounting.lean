import Mathlib.Algebra.Order.Group.Abs
import Labyrithm.Clock.Manager

/-!
# The time left when the duration changes

`Extend` and `UpdateSettings` change the stored duration, and should change the time the competitors
have left by as much.  While a contest is paused its end is not moved until it is resumed, so two of
the ways to change the duration go wrong there: `Extend` counts from now once the stored end has
passed, and `UpdateSettings` leaves the end as it is.

* `Times.Fits` — an operation neither overflows nor writes a year that cannot be read again.
* `Reachable` — the contests of the runs whose operations fit, at an instant of their clock.
* **`accounts_iff`** — the time left changes with the duration exactly under `Times.KeepsCount`.
* `extended_late` — the counterexample.
-/

namespace Labyrithm

namespace Clock

open Go

/-! ## Runs without overflow -/

/-- What an operation computes and writes can be represented. -/
def Times.Fits (c : Times) (now : ℤ) : Op → Prop
  | .start durationMinutes =>
      0 < c.startDuration durationMinutes ∧
        FitsInt64 (c.startDuration durationMinutes * second) ∧
        HasYear now ∧ HasYear (now + c.startDuration durationMinutes * second)
  | .pause _ => HasYear now
  | .resume =>
      (∀ endTime ∈ c.endTime, ∀ pausedAt ∈ c.pausedAt,
        FitsInt64 (now - pausedAt) ∧ HasYear (endTime + (now - pausedAt))) ∧
      (c.endTime = none ∨ c.pausedAt = none →
        FitsInt64 (c.durationSeconds * second) ∧ HasYear (now + c.durationSeconds * second))
  | .extend minutes =>
      FitsInt64 (minutes * 60 * second) ∧ FitsInt64 (c.durationSeconds + minutes * 60) ∧
        ∀ endTime ∈ c.endTime, HasYear (max endTime now + minutes * 60 * second)
  | .endContest => HasYear now
  | .updateSettings req =>
      0 < req.durationMinutes → FitsInt64 (req.durationMinutes * 60) ∧
        (c.status = .running → ∀ endTime ∈ c.endTime,
          FitsInt64 ((req.durationMinutes * 60 - c.durationSeconds) * second) ∧
          HasYear (endTime + (req.durationMinutes * 60 - c.durationSeconds) * second))
  | _ => True

instance (c : Times) (now : ℤ) : (op : Op) → Decidable (c.Fits now op)
  | .start _ => inferInstanceAs (Decidable (_ ∧ _))
  | .pause _ | .endContest => inferInstanceAs (Decidable (HasYear _))
  | .resume | .extend _ => inferInstanceAs (Decidable (_ ∧ _))
  | .updateSettings _ => inferInstanceAs (Decidable (_ → _))
  | .freeze | .unfreeze | .reset => inferInstanceAs (Decidable True)

/-- The end is not too far away for a duration, when `GetState` computes what is left. -/
def Times.Readable (c : Times) (now : ℤ) : Prop :=
  ∀ endTime ∈ c.endTime, endTime - now < 2 ^ 63 ∧
    ∀ pausedAt ∈ c.pausedAt, endTime - pausedAt < 2 ^ 63

instance (c : Times) (now : ℤ) : Decidable (c.Readable now) :=
  inferInstanceAs (Decidable (∀ _ ∈ _, _))

/-- The contests of the runs that fit, with an instant their operations are not after. -/
inductive Reachable : ℤ → Manager → Prop
  | migrated (t : ℤ) : Reachable t (Manager.load .migrated)
  | step {t now : ℤ} {m : Manager} (op : Op) : Reachable t m → t ≤ now →
      (m.snapshot.Accepts op → m.snapshot.Fits now op) → Reachable now (m.step now op)

/-- What holds of the times in such a run: a contest that was started or ended has an end, a paused
one its pause time, and both are whole seconds. -/
structure Times.Sound (c : Times) (t : ℤ) : Prop where
  duration_pos : 0 < c.durationSeconds
  hasEnd : c.status ≠ .notStarted → ∃ sec, c.endTime = some (sec * second)
  hasPause : c.status = .paused → ∃ sec, c.pausedAt = some (sec * second) ∧ sec * second ≤ t

lemma stamp_of_hasYear {t : ℤ} (h : HasYear t) : stamp t = some (t / second * second) :=
  parse_format_of_hasYear h

section Sound

variable {c : Times} {t now : ℤ}

/-- Where nothing overflows, the end after `Extend`. -/
lemma Times.extendedEnd_eq {minutes endTime : ℤ} (hend : c.endTime = some endTime)
    (hfits : c.Fits now (.extend minutes)) :
    (c.next now (.extend minutes)).endTime =
      some ((max endTime now + minutes * 60 * second) / second * second) := by
  obtain ⟨hdur, -, hyear⟩ := hfits
  have hmin : FitsInt64 (minutes * 60) := by
    unfold FitsInt64 second at *
    omega
  have hmax : (if now > endTime then now else endTime) = max endTime now := by
    split_ifs <;> omega
  simp only [next]
  rw [extendedEnd, hend, Option.bind_some, int64_of_fits hmin, duration_of_fits hdur, hmax,
    stamp_of_hasYear (hyear endTime hend)]

/-- And the duration. -/
lemma Times.extendedDuration_eq {minutes : ℤ} (hpos : 0 < c.durationSeconds) (hminutes : 0 < minutes)
    (hfits : c.Fits now (.extend minutes)) :
    (c.next now (.extend minutes)).durationSeconds = c.durationSeconds + minutes * 60 := by
  obtain ⟨hdur, hsum, -⟩ := hfits
  have hmin : FitsInt64 (minutes * 60) := by
    unfold FitsInt64 second at *
    omega
  simp only [next]
  rw [int64_of_fits hmin, int64_of_fits hsum, parseDuration_of_pos (by omega)]

/-- `UpdateSettings` writes only durations and the end. -/
lemma Times.updateSettings_kept (c : Times) (now : ℤ) (req : SettingsRequest) :
    (c.next now (.updateSettings req)).status = c.status ∧
      (c.next now (.updateSettings req)).startTime = c.startTime ∧
      (c.next now (.updateSettings req)).pausedAt = c.pausedAt := by
  simp only [next]
  split_ifs <;> exact ⟨rfl, rfl, rfl⟩

/-- The end of a contest that does not run is not moved. -/
lemma Times.updateSettings_endTime (now : ℤ) (req : SettingsRequest) (hstatus : c.status ≠ .running) :
    (c.next now (.updateSettings req)).endTime = c.endTime := by
  simp only [next]
  split_ifs <;> simp [updatedEnd, hstatus]

/-- Where nothing overflows, the end of a running contest after `UpdateSettings`. -/
lemma Times.updatedEnd_eq {req : SettingsRequest} {endTime : ℤ} (hrun : c.status = .running)
    (hend : c.endTime = some endTime) (hpos : 0 < req.durationMinutes)
    (hfits : c.Fits now (.updateSettings req)) :
    (c.next now (.updateSettings req)).endTime = some
      ((endTime + (req.durationMinutes * 60 - c.durationSeconds) * second) / second * second) := by
  obtain ⟨hmin, hfits⟩ := hfits hpos
  obtain ⟨hdiff, hyear⟩ := hfits hrun endTime hend
  have hsec : FitsInt64 (req.durationMinutes * 60 - c.durationSeconds) := by
    unfold FitsInt64 second at *
    omega
  simp only [next, updatedEnd, gt_iff_lt, hpos, hrun, hend, if_true]
  rw [int64_of_fits hmin, int64_of_fits hsec, duration_of_fits hdiff, stamp_of_hasYear hyear]

lemma Times.updatedDuration_eq {req : SettingsRequest} (hpos : 0 < req.durationMinutes)
    (hfits : c.Fits now (.updateSettings req)) :
    (c.next now (.updateSettings req)).durationSeconds = req.durationMinutes * 60 := by
  simp only [next, gt_iff_lt, hpos, if_true]
  rw [int64_of_fits (hfits hpos).1, parseDuration_of_pos (by omega)]

/-- Where nothing overflows, the end of a resumed contest. -/
lemma Times.resumedEnd_eq {endTime pausedAt : ℤ} (hend : c.endTime = some endTime)
    (hpaused : c.pausedAt = some pausedAt) (hle : pausedAt ≤ now) (hfits : c.Fits now .resume) :
    stamp (c.resumedEnd now) = some ((endTime + (now - pausedAt)) / second * second) := by
  obtain ⟨hsub, hyear⟩ := hfits.1 _ hend _ hpaused
  have hnonneg : ¬ now - pausedAt < 0 := by omega
  simp only [resumedEnd, hend, hpaused]
  rw [sub_of_fits hsub, if_neg hnonneg, stamp_of_hasYear hyear]

lemma Times.Sound.mono (h : c.Sound t) (ht : t ≤ now) : c.Sound now where
  duration_pos := h.duration_pos
  hasEnd := h.hasEnd
  hasPause hp := by
    obtain ⟨sec, hsec, hle⟩ := h.hasPause hp
    exact ⟨sec, hsec, by omega⟩

/-- An operation that fits leaves the times sound. -/
lemma Times.Sound.next (h : c.Sound t) (ht : t ≤ now) {op : Op} (hacc : c.Accepts op)
    (hfits : c.Fits now op) : (c.next now op).Sound now := by
  cases op with
  | start durationMinutes =>
      obtain ⟨-, hdur, -, hyear⟩ := hfits
      have hend := stamp_of_hasYear hyear
      rw [← duration_of_fits hdur] at hend
      exact ⟨parseDuration_pos (some (c.startDuration durationMinutes)), fun _ => ⟨_, hend⟩,
        fun hp => Status.noConfusion hp⟩
  | pause checked =>
      have hend := h.hasEnd (by simp [running_of_progress hacc])
      refine ⟨h.duration_pos, fun _ => hend, fun _ => ⟨_, stamp_of_hasYear hfits, ?_⟩⟩
      exact Int.ediv_mul_le now second_pos.ne'
  | resume =>
      have hstatus : c.status = .paused := hacc
      obtain ⟨endSec, hend⟩ := h.hasEnd (by simp [hstatus])
      obtain ⟨pauseSec, hpaused, hle⟩ := h.hasPause hstatus
      exact ⟨h.duration_pos, fun _ => ⟨_, resumedEnd_eq hend hpaused (by omega) hfits⟩,
        fun hp => Status.noConfusion hp⟩
  | extend minutes =>
      refine ⟨parseDuration_pos (some (int64 _)), fun hne => ?_, fun hp => ?_⟩
      · obtain ⟨endSec, hend⟩ := h.hasEnd fun hs => hne (by simp [Times.next, hs])
        exact ⟨_, extendedEnd_eq hend hfits⟩
      · have hstatus : c.status = .paused := by
          simp only [Times.next] at hp
          split_ifs at hp
          exact hp
        exact (h.mono ht).hasPause hstatus
  | freeze | unfreeze => exact h.mono ht
  | reset => exact ⟨h.duration_pos, fun hne => absurd rfl hne, fun hp => Status.noConfusion hp⟩
  | endContest =>
      exact ⟨h.duration_pos, fun _ => ⟨_, stamp_of_hasYear hfits⟩, fun hp => Status.noConfusion hp⟩
  | updateSettings req =>
      refine ⟨?_, fun hne => ?_, fun hp => ?_⟩
      · simp only [Times.next]
        split_ifs
        · exact parseDuration_pos (some (int64 _))
        · exact h.duration_pos
      · rw [(c.updateSettings_kept now req).1] at hne
        obtain ⟨endSec, hend⟩ := h.hasEnd hne
        by_cases hrun : c.status = .running ∧ 0 < req.durationMinutes
        · exact ⟨_, updatedEnd_eq hrun.1 hend hrun.2 hfits⟩
        · refine ⟨endSec, ?_⟩
          by_cases hpos : 0 < req.durationMinutes
          · rw [updateSettings_endTime now req fun hs => hrun ⟨hs, hpos⟩, hend]
          · simpa [Times.next, hpos] using hend
      · rw [(c.updateSettings_kept now req).1] at hp
        rw [(c.updateSettings_kept now req).2.2]
        exact (h.mono ht).hasPause hp

end Sound

/-- A contest of such a run has loaded its rows, and its times are sound. -/
lemma Reachable.sound {t : ℤ} {m : Manager} (h : Reachable t m) :
    ∃ c, m.Has c ∧ c.Sound t := by
  induction h with
  | migrated t =>
      exact ⟨_, ⟨_, rfl, rfl⟩, parseDuration_pos (some 7200), fun hne => absurd rfl hne,
        fun hp => Status.noConfusion hp⟩
  | step op _ ht hfits ih =>
      obtain ⟨c, hhas, hsound⟩ := ih
      refine ⟨_, hhas.step _ op, ?_⟩
      have hfits : c.Accepts op → c.Fits _ op := hhas.times ▸ hfits
      unfold Times.step
      split_ifs with hacc
      · exact hsound.next ht hacc (hfits hacc)
      · exact hsound.mono ht

/-! ## The time left -/

/-- The seconds remaining that `GetState` reports. -/
def Times.remaining (c : Times) (now : ℤ) : ℤ := (c.progress now).2.1

section Remaining

variable {c : Times} {now startTime endTime pausedAt : ℤ}

/-- Without a start it is the whole duration. -/
lemma Times.remaining_of_no_start (now : ℤ) (hstart : c.startTime = none)
    (hstatus : c.status = .running ∨ c.status = .paused) :
    c.remaining now = c.durationSeconds := by
  rcases hstatus with hstatus | hstatus <;> simp [remaining, progress, hstatus, hstart]

lemma Times.remaining_of_running (hstatus : c.status = .running)
    (hstart : c.startTime = some startTime) (hend : c.endTime = some endTime)
    (hfits : endTime - now < 2 ^ 63) : c.remaining now = seconds (max 0 (endTime - now)) := by
  simp only [remaining, progress, hstatus, hstart, hend]
  split_ifs with hlate
  · rw [max_eq_left (by omega), seconds_zero]
  · exact secondsBetween_eq hfits

lemma Times.remaining_of_paused (now : ℤ) (hstatus : c.status = .paused)
    (hstart : c.startTime = some startTime) (hend : c.endTime = some endTime)
    (hpaused : c.pausedAt = some pausedAt) (hfits : endTime - pausedAt < 2 ^ 63) :
    c.remaining now = seconds (max 0 (endTime - pausedAt)) := by
  simp only [remaining, progress, hstatus, hstart, hend, hpaused]
  exact secondsBetween_eq hfits

/-- A whole number of seconds, which is not rounded. -/
lemma seconds_whole {a b : ℤ} (hfits : a * second - b * second < 2 ^ 63) :
    seconds (max 0 (a * second - b * second)) = max 0 (a - b) := by
  have hmul : max 0 (a * second - b * second) = max 0 (a - b) * second := by
    unfold second
    omega
  rw [hmul, seconds_mul (le_max_left _ _)]
  rw [← hmul]
  omega

/-- Of a pause and an end at whole seconds. -/
lemma Times.remaining_of_paused_whole {endSec pauseSec : ℤ} (now : ℤ) (hstatus : c.status = .paused)
    (hstart : c.startTime = some startTime) (hend : c.endTime = some (endSec * second))
    (hpaused : c.pausedAt = some (pauseSec * second)) (hfits : endSec * second - pauseSec * second < 2 ^ 63) :
    c.remaining now = max 0 (endSec - pauseSec) :=
  (remaining_of_paused now hstatus hstart hend hpaused hfits).trans (seconds_whole hfits)

/-- Any number of seconds, which may be rounded. -/
lemma seconds_left {d : ℤ} (hfits : d < 2 ^ 63) :
    max 0 d / second ≤ seconds (max 0 d) ∧ seconds (max 0 d) ≤ (max 0 d + second - 1) / second :=
  seconds_bounds (le_max_left 0 d) (max_lt (by norm_num) hfits)

end Remaining

/-- The second number of seconds left is the first one with the change of the duration: up to a
second of rounding, and not below zero. -/
def ChangesBy (left left' change : ℤ) : Prop := |left' - max 0 (left + change)| ≤ 1

instance (left left' change : ℤ) : Decidable (ChangesBy left left' change) :=
  inferInstanceAs (Decidable (_ ≤ _))

/-- The time left follows the duration: at once, and when a paused contest is resumed later. -/
structure Times.Accounts (c c' : Times) (now : ℤ) : Prop where
  atOnce : ChangesBy (c.remaining now) (c'.remaining now) (c'.durationSeconds - c.durationSeconds)
  resumed : c.status = .paused → ∀ t, now ≤ t → c.Fits t .resume → c'.Fits t .resume →
    (c.next t .resume).Readable t → (c'.next t .resume).Readable t →
    ChangesBy ((c.next t .resume).remaining t) ((c'.next t .resume).remaining t)
      (c'.durationSeconds - c.durationSeconds)

/-- A contest with this end that was paused then can be resumed at `t`: nothing overflows, and the end that
is written is not too far away. -/
def CanResume (endTime pausedAt t : ℤ) : Prop :=
  FitsInt64 (t - pausedAt) ∧ HasYear (endTime + (t - pausedAt)) ∧ endTime - pausedAt - t % second < 2 ^ 63

/-- What a paused contest with all its times needs for this: an extension comes by the stored end (or the
pause), or at most one second later, and if there was time left then, no `Resume` comes at a fraction of a
second that is rounded up for the longer time and not for the shorter; new settings keep the duration, up to a
second, or shorten it where no more than a second is left. -/
def Times.KeepsCount (c : Times) (now : ℤ) : Op → Prop
  | .extend minutes =>
      c.status = .paused → c.startTime.isSome → ∀ endTime ∈ c.endTime, ∀ pausedAt ∈ c.pausedAt,
        now / second ≤ max endTime pausedAt / second ∨
          now / second = max endTime pausedAt / second + 1 ∧ (pausedAt < endTime →
            ∀ t, now ≤ t → CanResume endTime pausedAt t →
              CanResume (endTime + (minutes * 60 + 1) * second) pausedAt t →
              RoundsUp (endTime - pausedAt - t % second + (minutes * 60 + 1) * second) →
                RoundsUp (endTime - pausedAt - t % second))
  | .updateSettings req =>
      c.status = .paused → c.startTime.isSome → ∀ endTime ∈ c.endTime, ∀ pausedAt ∈ c.pausedAt,
        |req.durationMinutes * 60 - c.durationSeconds| ≤ 1 ∨
          (req.durationMinutes * 60 < c.durationSeconds ∧ (endTime - pausedAt) / second ≤ 1)
  | _ => True

/-- `Extend`, and `UpdateSettings` with a duration. -/
def Op.ChangesDuration : Op → Prop
  | .extend _ => True
  | .updateSettings req => 0 < req.durationMinutes
  | _ => False

/-- Nothing is wrong with a contest without a start: what is left is the duration. -/
lemma Times.accounts_of_no_start {c c' : Times} (now : ℤ) (hstart : c.startTime = none)
    (hstart' : c'.startTime = none) (hstatus : c.status = .running ∨ c.status = .paused)
    (hstatus' : c'.status = c.status) (hpos : 0 < c'.durationSeconds) : c.Accounts c' now := by
  have hchange : ∀ d d' : ℤ, 0 < d' → ChangesBy d d' (d' - d) := by
    intro d d' hd'
    rw [ChangesBy, abs_le]
    omega
  constructor
  · rw [remaining_of_no_start _ hstart hstatus, remaining_of_no_start _ hstart' (hstatus' ▸ hstatus)]
    exact hchange _ _ hpos
  · intro _ t _ _ _ _ _
    rw [remaining_of_no_start (c := c.next t .resume) _ hstart (.inl rfl),
      remaining_of_no_start (c := c'.next t .resume) _ hstart' (.inl rfl)]
    exact hchange _ _ hpos

section Extend

variable {c : Times} {t now minutes startTime : ℤ}

lemma Times.extend_running_accounts (hsound : c.Sound t) (hminutes : 0 < minutes)
    (hfits : c.Fits now (.extend minutes)) (hread : c.Readable now)
    (hread' : (c.next now (.extend minutes)).Readable now) (hstatus : c.status = .running)
    (hstart : c.startTime = some startTime) (hleft : (c.progress now).1 = .running) :
    c.Accounts (c.next now (.extend minutes)) now := by
  obtain ⟨endSec, hend⟩ := hsound.hasEnd (by simp [hstatus])
  have hend' := extendedEnd_eq hend hfits
  have hstatus' : (c.next now (.extend minutes)).status = .running := by simp [next, hstatus]
  have hnow : now ≤ endSec * second := by
    by_contra hlate
    simp [progress, hstatus, hstart, hend, lt_of_not_ge hlate] at hleft
  have hleft' := seconds_left (hread _ hend).1
  have hleft'' := seconds_left (hread' _ hend').1
  constructor
  · rw [remaining_of_running hstatus hstart hend (hread _ hend).1,
      remaining_of_running hstatus' hstart hend' (hread' _ hend').1,
      extendedDuration_eq hsound.duration_pos hminutes hfits, ChangesBy, abs_le]
    unfold second at *
    omega
  · intro hpaused
    simp [hstatus] at hpaused

/-- What is left right after a contest that was paused at a whole second is resumed. -/
lemma resumedEnd_sub (endTime pauseSec u : ℤ) (hend : IsWhole endTime) :
    (endTime + (u - pauseSec * second)) / second * second - u = endTime - pauseSec * second - u % second := by
  obtain ⟨endSec, rfl⟩ := hend
  unfold second
  omega

/-- Whether it can be, and what is left of it then. -/
lemma Times.canResume_iff {endTime pauseSec u : ℤ} (hend : c.endTime = some endTime)
    (hwhole : IsWhole endTime) (hpaused : c.pausedAt = some (pauseSec * second)) (hle : pauseSec * second ≤ u) :
    CanResume endTime (pauseSec * second) u ↔ c.Fits u .resume ∧ (c.next u .resume).Readable u := by
  have hfits : c.Fits u .resume ↔
      FitsInt64 (u - pauseSec * second) ∧ HasYear (endTime + (u - pauseSec * second)) := by
    simp [Fits, hend, hpaused]
  rw [hfits, CanResume, ← and_assoc]
  refine and_congr_right fun hf => ?_
  have hendR := resumedEnd_eq hend hpaused hle (hfits.mpr hf)
  have hread : (c.next u .resume).Readable u ↔
      (endTime + (u - pauseSec * second)) / second * second - u < 2 ^ 63 := by
    simp [Readable, next, hendR]
  rw [hread, resumedEnd_sub endTime pauseSec u hwhole]

lemma Times.resumed_remaining {endTime pauseSec u : ℤ} (hstart : c.startTime = some startTime)
    (hend : c.endTime = some endTime) (hwhole : IsWhole endTime)
    (hpaused : c.pausedAt = some (pauseSec * second)) (hle : pauseSec * second ≤ u)
    (hcan : CanResume endTime (pauseSec * second) u) :
    (c.next u .resume).remaining u = seconds (max 0 (endTime - pauseSec * second - u % second)) := by
  have hendR := resumedEnd_eq hend hpaused hle ((canResume_iff hend hwhole hpaused hle).mp hcan).1
  have hfitsR := hcan.2.2
  rw [← resumedEnd_sub endTime pauseSec u hwhole] at hfitsR ⊢
  exact remaining_of_running (c := c.next u .resume) rfl hstart hendR hfitsR

/-- An end that is extended in the second after it, with time left, is moved by a second more. -/
lemma extendedEnd_late {endSec pauseSec : ℤ}
    (hlate : now / second = max (endSec * second) (pauseSec * second) / second + 1)
    (hleft : pauseSec * second < endSec * second) :
    (max (endSec * second) now + minutes * 60 * second) / second * second =
      endSec * second + (minutes * 60 + 1) * second := by
  unfold second at *
  omega

/-- There was time left, so there is still some when the contest is resumed. -/
lemma left_nonneg {endSec pauseSec : ℤ} (hleft : pauseSec * second < endSec * second) (u : ℤ) :
    0 ≤ endSec * second - pauseSec * second - u % second := by
  unfold second at *
  omega

/-- A second more is within the rounding, unless the longer time alone is rounded up. -/
lemma changesBy_late_iff {x : ℤ} (hminutes : 0 < minutes) (hx : 0 ≤ x)
    (hfits : x + (minutes * 60 + 1) * second < 2 ^ 63) :
    ChangesBy (seconds (max 0 x)) (seconds (max 0 (x + (minutes * 60 + 1) * second))) (minutes * 60) ↔
      (RoundsUp (x + (minutes * 60 + 1) * second) → RoundsUp x) := by
  have hmore : 0 < (minutes * 60 + 1) * second := mul_pos (by omega) (by decide)
  have hseconds : (x + (minutes * 60 + 1) * second) / second = x / second + (minutes * 60 + 1) :=
    Int.add_mul_ediv_right _ _ (by decide)
  have hnonneg : 0 ≤ x / second := Int.ediv_nonneg hx (by decide)
  have hleft : 0 ≤ seconds x + minutes * 60 := by
    rw [seconds_eq hx (by omega)]
    split_ifs <;> omega
  rw [max_eq_right hx, max_eq_right (by omega), ChangesBy, max_eq_right hleft, abs_le,
    seconds_eq hx (by omega), seconds_eq (by omega) hfits, hseconds]
  split_ifs with hup hdown hdown
  · exact iff_of_true (by omega) fun _ => hdown
  · exact iff_of_false (by omega) fun h => hdown (h hup)
  · exact iff_of_true (by omega) fun h => absurd h hup
  · exact iff_of_true (by omega) fun h => absurd h hup

lemma Times.extend_paused_accounts_iff (hsound : c.Sound t) (ht : t ≤ now) (hminutes : 0 < minutes)
    (hfits : c.Fits now (.extend minutes)) (hread : c.Readable now)
    (hread' : (c.next now (.extend minutes)).Readable now) (hstatus : c.status = .paused)
    (hstart : c.startTime = some startTime) :
    c.Accounts (c.next now (.extend minutes)) now ↔ c.KeepsCount now (.extend minutes) := by
  obtain ⟨endSec, hend⟩ := hsound.hasEnd (by simp [hstatus])
  obtain ⟨pauseSec, hpaused, hle⟩ := hsound.hasPause hstatus
  have hwhole : IsWhole (endSec * second) := Int.dvd_mul_left _ _
  have hend' := extendedEnd_eq hend hfits
  have hstatus' : (c.next now (.extend minutes)).status = .paused := by simp [next, hstatus]
  have hleft := remaining_of_paused_whole now hstatus hstart hend hpaused ((hread _ hend).2 _ hpaused)
  have hleft' := remaining_of_paused_whole now hstatus' hstart hend' hpaused ((hread' _ hend').2 _ hpaused)
  have hchange := extendedDuration_eq hsound.duration_pos hminutes hfits
  have hlonger (u : ℤ) : endSec * second + (minutes * 60 + 1) * second - pauseSec * second - u % second =
      endSec * second - pauseSec * second - u % second + (minutes * 60 + 1) * second := by ring
  constructor
  · intro h _ _ endTime he pausedAt hp
    obtain rfl := Option.some.inj (hend.symm.trans he)
    obtain rfl := Option.some.inj (hpaused.symm.trans hp)
    have hnow := h.atOnce
    rw [hleft, hleft', hchange, ChangesBy, abs_le] at hnow
    rw [or_iff_not_imp_left]
    intro hlate
    have hone : now / second = max (endSec * second) (pauseSec * second) / second + 1 := by
      unfold second at *
      omega
    refine ⟨hone, fun htime u hu hcan hcan' => ?_⟩
    have hleu : pauseSec * second ≤ u := by omega
    rw [extendedEnd_late hone htime] at hend'
    have hwhole' : IsWhole (endSec * second + (minutes * 60 + 1) * second) :=
      dvd_add (Int.dvd_mul_left _ _) (Int.dvd_mul_left _ _)
    obtain ⟨hfitsR, hreadR⟩ := (canResume_iff hend hwhole hpaused hleu).mp hcan
    obtain ⟨hfitsR', hreadR'⟩ :=
      (canResume_iff (c := c.next now (.extend minutes)) hend' hwhole' hpaused hleu).mp hcan'
    have hthen := h.resumed hstatus u hu hfitsR hfitsR' hreadR hreadR'
    rw [resumed_remaining hstart hend hwhole hpaused hleu hcan,
      resumed_remaining (c := c.next now (.extend minutes)) hstart hend' hwhole' hpaused hleu hcan',
      hchange, add_sub_cancel_left, hlonger u] at hthen
    exact (changesBy_late_iff hminutes (left_nonneg htime u) (hlonger u ▸ hcan'.2.2)).mp hthen
  · intro h
    have hkeeps := h hstatus (by simp [hstart]) _ hend _ hpaused
    constructor
    · rw [hleft, hleft', hchange, ChangesBy, abs_le]
      unfold second at *
      omega
    · intro _ u hu hfitsR hfitsR' hreadR hreadR'
      have hleu : pauseSec * second ≤ u := by omega
      have hcan := (canResume_iff hend hwhole hpaused hleu).mpr ⟨hfitsR, hreadR⟩
      have hcan' := (canResume_iff (c := c.next now (.extend minutes)) hend' (Int.dvd_mul_left _ _) hpaused
        hleu).mpr ⟨hfitsR', hreadR'⟩
      rw [resumed_remaining hstart hend hwhole hpaused hleu hcan,
        resumed_remaining (c := c.next now (.extend minutes)) hstart hend' (Int.dvd_mul_left _ _) hpaused hleu
          hcan', hchange, add_sub_cancel_left]
      by_cases htime : pauseSec * second < endSec * second ∧
          ¬ now / second ≤ max (endSec * second) (pauseSec * second) / second
      · obtain ⟨hone, hround⟩ := hkeeps.resolve_left htime.2
        rw [extendedEnd_late hone htime.1] at hcan' ⊢
        rw [hlonger u]
        exact (changesBy_late_iff hminutes (left_nonneg htime.1 u) (hlonger u ▸ hcan'.2.2)).mpr
          (hround htime.1 u hu hcan hcan')
      · have hbounds := seconds_left hcan.2.2
        have hbounds' := seconds_left hcan'.2.2
        rw [ChangesBy, abs_le]
        unfold second at *
        omega

end Extend

section UpdateSettings

variable {c : Times} {t now startTime : ℤ} {req : SettingsRequest}

lemma Times.updateSettings_running_accounts (hsound : c.Sound t) (hpos : 0 < req.durationMinutes)
    (hfits : c.Fits now (.updateSettings req)) (hread : c.Readable now)
    (hread' : (c.next now (.updateSettings req)).Readable now) (hstatus : c.status = .running)
    (hstart : c.startTime = some startTime) (hleft : (c.progress now).1 = .running) :
    c.Accounts (c.next now (.updateSettings req)) now := by
  obtain ⟨endSec, hend⟩ := hsound.hasEnd (by simp [hstatus])
  obtain ⟨hstatus', hstart', -⟩ := c.updateSettings_kept now req
  have hend' := updatedEnd_eq hstatus hend hpos hfits
  have hnow : now ≤ endSec * second := by
    by_contra hlate
    simp [progress, hstatus, hstart, hend, lt_of_not_ge hlate] at hleft
  have hleft' := seconds_left (hread _ hend).1
  have hleft'' := seconds_left (hread' _ hend').1
  constructor
  · rw [remaining_of_running hstatus hstart hend (hread _ hend).1,
      remaining_of_running (hstatus'.trans hstatus) (hstart'.trans hstart) hend' (hread' _ hend').1,
      updatedDuration_eq hpos hfits, ChangesBy, abs_le]
    unfold second at *
    omega
  · intro hpaused
    simp [hstatus] at hpaused

lemma Times.updateSettings_paused_accounts_iff (hsound : c.Sound t) (ht : t ≤ now)
    (hpos : 0 < req.durationMinutes) (hfits : c.Fits now (.updateSettings req))
    (hread : c.Readable now) (hstatus : c.status = .paused) (hstart : c.startTime = some startTime) :
    c.Accounts (c.next now (.updateSettings req)) now ↔
      c.KeepsCount now (.updateSettings req) := by
  obtain ⟨endSec, hend⟩ := hsound.hasEnd (by simp [hstatus])
  obtain ⟨pauseSec, hpaused, hle⟩ := hsound.hasPause hstatus
  have hend' := (updateSettings_endTime now req (by simp [hstatus])).trans hend
  obtain ⟨hstatus', hstart', hpaused'⟩ := c.updateSettings_kept now req
  rw [hstatus] at hstatus'
  rw [hstart] at hstart'
  rw [hpaused] at hpaused'
  have hleft := remaining_of_paused_whole now hstatus hstart hend hpaused ((hread _ hend).2 _ hpaused)
  have hleft' := remaining_of_paused_whole now hstatus' hstart' hend' hpaused' ((hread _ hend).2 _ hpaused)
  have hchange := updatedDuration_eq hpos hfits
  constructor
  · intro h _ _ endTime he pausedAt hp
    obtain rfl := Option.some.inj (hend.symm.trans he)
    obtain rfl := Option.some.inj (hpaused.symm.trans hp)
    have hnow := h.atOnce
    rw [hleft, hleft', hchange, ChangesBy, abs_le] at hnow
    rw [abs_le]
    unfold second at *
    omega
  · intro h
    have hkeeps := h hstatus (by simp [hstart]) _ hend _ hpaused
    rw [abs_le] at hkeeps
    constructor
    · rw [hleft, hleft', hchange, ChangesBy, abs_le]
      unfold second at *
      omega
    · intro _ u hu hfitsR hfitsR' hreadR hreadR'
      have hendR := resumedEnd_eq hend hpaused (by omega) hfitsR
      have hleftR := seconds_left (hreadR _ hendR).1
      have hendR' := resumedEnd_eq hend' hpaused' (by omega) hfitsR'
      rw [remaining_of_running (c := c.next u .resume) rfl hstart hendR (hreadR _ hendR).1,
        remaining_of_running (c := (c.next now (.updateSettings req)).next u .resume) rfl hstart'
          hendR' (hreadR' _ hendR').1, hchange, ChangesBy, abs_le]
      unfold second at *
      omega

end UpdateSettings

/-- The operations that change the duration do not pause a contest, and do not start it. -/
lemma Times.next_of_changesDuration (c : Times) (now : ℤ) {op : Op} (hop : op.ChangesDuration) :
    (c.status ≠ .ended → (c.next now op).status = c.status) ∧
      (c.next now op).startTime = c.startTime := by
  cases op with
  | extend minutes => exact ⟨fun hne => by simp [next, hne], rfl⟩
  | updateSettings req =>
      obtain ⟨hstatus, hstart, -⟩ := c.updateSettings_kept now req
      exact ⟨fun _ => hstatus, hstart⟩
  | _ => exact hop.elim

/-- The operation is correct exactly under its condition, by its times. -/
theorem Times.accounts_iff_keepsCount {c : Times} {t now : ℤ} {op : Op} (hsound : c.Sound t) (ht : t ≤ now)
    (hop : op.ChangesDuration) (hacc : c.Accepts op) (hfits : c.Fits now op)
    (hread : c.Readable now) (hread' : (c.next now op).Readable now)
    (hleft : (c.progress now).1 = .running ∨ (c.progress now).1 = .paused) :
    c.Accounts (c.next now op) now ↔ c.KeepsCount now op := by
  have hstatus : c.status = .running ∨ c.status = .paused :=
    hleft.imp running_of_progress paused_of_progress
  obtain ⟨hstatus', hstart'⟩ := c.next_of_changesDuration now hop
  cases hstart : c.startTime with
  | none =>
      have hnext := hstatus' (by rcases hstatus with hs | hs <;> simp [hs])
      have hpos := (hsound.next ht hacc hfits).duration_pos
      refine iff_of_true (accounts_of_no_start now hstart (hstart'.trans hstart) hstatus hnext hpos) ?_
      cases op with
      | extend minutes | updateSettings req => simp [KeepsCount, hstart]
      | _ => exact hop.elim
  | some startTime =>
      rcases hleft with hleft | hleft
      · have hrun := running_of_progress hleft
        refine iff_of_true ?_ ?_
        · cases op with
          | extend minutes =>
              exact extend_running_accounts hsound hacc hfits hread hread' hrun hstart hleft
          | updateSettings req =>
              exact updateSettings_running_accounts hsound hop hfits hread hread' hrun hstart hleft
          | _ => exact hop.elim
        · cases op with
          | extend minutes | updateSettings req => simp [KeepsCount, hrun]
          | _ => exact hop.elim
      · have hpaused := paused_of_progress hleft
        cases op with
        | extend minutes =>
            exact extend_paused_accounts_iff hsound ht hacc hfits hread hread' hpaused hstart
        | updateSettings req =>
            exact updateSettings_paused_accounts_iff hsound ht hop hfits hread hpaused hstart
        | _ => exact hop.elim

/-! ## The contest -/

/-- The time left follows the duration: what `GetState` reports at once, and what it reports right
after a paused contest is resumed later. -/
structure Manager.Accounts (m m' : Manager) (now : ℤ) : Prop where
  atOnce : ChangesBy (m.snapshot.getState now).remainingSeconds
    (m'.snapshot.getState now).remainingSeconds
    (m'.snapshot.durationSeconds - m.snapshot.durationSeconds)
  resumed : m.snapshot.status = .paused → ∀ t, now ≤ t →
    m.snapshot.Fits t .resume → m'.snapshot.Fits t .resume →
    (m.step t .resume).snapshot.Readable t → (m'.step t .resume).snapshot.Readable t →
    ChangesBy ((m.step t .resume).snapshot.getState t).remainingSeconds
      ((m'.step t .resume).snapshot.getState t).remainingSeconds
      (m'.snapshot.durationSeconds - m.snapshot.durationSeconds)

lemma Manager.accounts_iff_times {m m' : Manager} {c c' : Times} (h : m.Has c) (h' : m'.Has c')
    (hpaused : c.status = .paused → c'.status = .paused) (now : ℤ) :
    m.Accounts m' now ↔ c.Accounts c' now := by
  have hresume : ∀ {m : Manager} {c : Times}, m.Has c → c.Accepts .resume → ∀ t,
      (m.step t .resume).snapshot.toTimes = c.next t .resume := fun h hp t =>
    (h.step_of_accepts t hp).times
  obtain rfl := h.times
  obtain rfl := h'.times
  constructor
  · intro ha
    refine ⟨ha.atOnce, fun hp t ht hfits hfits' hread hread' => ?_⟩
    have hr := ha.resumed hp t ht hfits hfits'
    rw [hresume h hp, hresume h' (hpaused hp)] at hr
    have hleft := hr hread hread'
    simp only [Snapshot.getState] at hleft
    rwa [hresume h hp, hresume h' (hpaused hp)] at hleft
  · intro ha
    refine ⟨ha.atOnce, fun hp t ht hfits hfits' hread hread' => ?_⟩
    rw [hresume h hp] at hread
    rw [hresume h' (hpaused hp)] at hread'
    simp only [Snapshot.getState]
    rw [hresume h hp, hresume h' (hpaused hp)]
    exact ha.resumed hp t ht hfits hfits' hread hread'

/-- **The time left changes with the duration exactly under `KeepsCount`**, in every contest that
is paused or running with time left. -/
theorem accounts_iff {m : Manager} {t now : ℤ} {op : Op} (hreach : Reachable t m) (ht : t ≤ now)
    (hop : op.ChangesDuration) (hacc : m.snapshot.Accepts op) (hfits : m.snapshot.Fits now op)
    (hread : m.snapshot.Readable now) (hread' : (m.step now op).snapshot.Readable now)
    (hleft : (m.snapshot.getState now).status = .running ∨
      (m.snapshot.getState now).status = .paused) :
    m.Accounts (m.step now op) now ↔ m.snapshot.KeepsCount now op := by
  obtain ⟨c, hhas, hsound⟩ := hreach.sound
  obtain rfl := hhas.times
  have hhas' := hhas.step_of_accepts now hacc
  rw [hhas'.times] at hread'
  have hpaused : m.snapshot.status = .paused → (m.snapshot.next now op).status = .paused := by
    intro hp
    rw [(Times.next_of_changesDuration _ _ hop).1 (by simp [hp]), hp]
  rw [Manager.accounts_iff_times hhas hhas' hpaused]
  exact Times.accounts_iff_keepsCount hsound ht hop hacc hfits hread hread' hleft

/-! ## A contest of two hours, paused after one -/

def hour : ℤ := 3600 * second

/-- Started at 0, paused after an hour. -/
def pausedAfterHour : Manager :=
  ((Manager.load .migrated).step 0 (.start 0)).step hour (.pause hour)

lemma reachable_pausedAfterHour : Reachable hour pausedAfterHour := by
  have hstart : Reachable 0 ((Manager.load .migrated).step 0 (.start 0)) :=
    .step _ (.migrated 0) le_rfl fun _ => by decide
  exact .step _ hstart (by decide) fun _ => by decide

/-- Extended by ten minutes within the two hours, it gets ten minutes more. -/
theorem accounts_iff_sample :
    pausedAfterHour.Accounts (pausedAfterHour.step (hour + 5 * second) (.extend 10))
        (hour + 5 * second) ↔
      pausedAfterHour.snapshot.KeepsCount (hour + 5 * second) (.extend 10) :=
  accounts_iff reachable_pausedAfterHour (by decide) trivial (by decide) (by decide) (by decide)
    (by decide) (.inr (by decide))

/-- Extended an hour after the stored end, it gets that hour too. -/
theorem extended_late :
    ¬ ∀ m t now op, Reachable t m → t ≤ now → Op.ChangesDuration op → m.snapshot.Accepts op →
      m.snapshot.Fits now op → m.snapshot.Readable now → (m.step now op).snapshot.Readable now →
      ((m.snapshot.getState now).status = .running ∨ (m.snapshot.getState now).status = .paused) →
      m.Accounts (m.step now op) now := by
  intro h
  have hleft := (h pausedAfterHour hour (3 * hour) (.extend 10) reachable_pausedAfterHour (by decide)
    trivial (by decide) (by decide) (by decide) (by decide) (.inr (by decide))).atOnce
  revert hleft
  decide +kernel

end Clock

end Labyrithm
