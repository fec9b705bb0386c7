import Labyrithm.Clock.WellFormed

/-!
# The arithmetic of the clock

`Start`, `Extend` and `UpdateSettings` multiply the minutes they are given into seconds and nanoseconds of
64 bits, add them to an instant, and write that with a year of four digits.  The handlers take every `int`.

* `Times.arithmetic` — the results of the multiplications and additions before they are reduced, and the
  end that is written; `next_endTime` says that it is the one of the model.
* `Times.Exact` — nothing is reduced, no end is before the instant it was computed from, and it is read as
  it was written.
* `Times.InRange` — the arguments that are not too large.
* **`exact_iff`** — the runs in which the arithmetic is exact.
-/

namespace Labyrithm

namespace Clock

open Go

/-- What an operation computes: the results of its integer operations before they are reduced to 64 bits,
the instant that its duration is added to, and the end that it writes. -/
structure Arithmetic where
  results : List ℤ
  base : Option ℤ
  written : Option ℤ
  deriving DecidableEq, Repr

/-- The instant that `Extend` adds to. -/
def Times.currentEnd (endTime now : ℤ) : ℤ := if now > endTime then now else endTime

/-- `Start`, `Extend` and `UpdateSettings`; the others are left out. -/
def Times.arithmetic (c : Times) (now : ℤ) : Op → Arithmetic
  | .start durationMinutes =>
      let durSec := c.startDuration durationMinutes
      { results := (if durationMinutes > 0 then [durationMinutes * 60] else []) ++ [durSec * second]
        base := some now
        written := some (now + duration durSec second) }
  | .extend minutes =>
      let additionalSec := int64 (minutes * 60)
      { results := [minutes * 60, c.durationSeconds + additionalSec] ++
          if c.endTime.isSome then [additionalSec * second] else []
        base := c.endTime.map fun endTime => currentEnd endTime now
        written := c.endTime.map fun endTime => currentEnd endTime now + duration additionalSec second }
  | .updateSettings req =>
      if req.durationMinutes > 0 then
        let durSec := int64 (req.durationMinutes * 60)
        if c.status = .running then
          match c.endTime, c.startTime with
          | some endTime, _ =>
              let diffSec := int64 (durSec - c.durationSeconds)
              { results := [req.durationMinutes * 60, durSec - c.durationSeconds, diffSec * second]
                base := none
                written := some (endTime + duration diffSec second) }
          | none, some startTime =>
              { results := [req.durationMinutes * 60, durSec * second]
                base := none
                written := some (startTime + duration durSec second) }
          | none, none => ⟨[req.durationMinutes * 60], none, none⟩
        else ⟨[req.durationMinutes * 60], none, none⟩
      else ⟨[], none, none⟩
  | _ => ⟨[], none, none⟩

/-- `Start`, `Extend` and `UpdateSettings`. -/
def Op.Computes : Op → Prop
  | .start _ | .extend _ | .updateSettings _ => True
  | _ => False

/-- Nothing overflows. -/
structure Times.Exact (c : Times) (now : ℤ) (op : Op) : Prop where
  results : ∀ n ∈ (c.arithmetic now op).results, int64 n = n
  notEarlier : ∀ base ∈ (c.arithmetic now op).base, ∀ written ∈ (c.arithmetic now op).written, base ≤ written
  readBack : ∀ written ∈ (c.arithmetic now op).written, stamp written = some (wholeSecond written)

/-- The seconds that `Start` is asked for. -/
def Times.requested (c : Times) (durationMinutes : ℤ) : ℤ :=
  if durationMinutes > 0 then durationMinutes * 60 else c.durationSeconds

/-- The arguments are not too large. -/
def Times.InRange (c : Times) (now : ℤ) : Op → Prop
  | .start durationMinutes =>
      c.requested durationMinutes * second < 2 ^ 63 ∧ HasYear (now + c.requested durationMinutes * second)
  | .extend minutes =>
      minutes * 60 < 2 ^ 63 ∧ c.durationSeconds + minutes * 60 < 2 ^ 63 ∧
        ∀ endTime ∈ c.endTime, minutes * 60 * second < 2 ^ 63 ∧
          HasYear (currentEnd endTime now + minutes * 60 * second)
  | .updateSettings req =>
      0 < req.durationMinutes → req.durationMinutes * 60 < 2 ^ 63 ∧
        (c.status = .running →
          (∀ endTime ∈ c.endTime,
            FitsInt64 ((req.durationMinutes * 60 - c.durationSeconds) * second) ∧
              HasYear (endTime + (req.durationMinutes * 60 - c.durationSeconds) * second)) ∧
          (c.endTime = none → ∀ startTime ∈ c.startTime, req.durationMinutes * 60 * second < 2 ^ 63 ∧
            HasYear (startTime + req.durationMinutes * 60 * second)))
  | _ => True

/-- The duration is positive and fits, as it is in every run. -/
def Times.Sized (c : Times) : Prop := 0 < c.durationSeconds ∧ c.durationSeconds < 2 ^ 63

section One

variable {c : Times} {now : ℤ} {op : Op}

/-- The end that is written is the one that the model has after the operation. -/
theorem Times.next_endTime (c : Times) (now : ℤ) (hop : op.Computes) :
    (c.next now op).endTime = match (c.arithmetic now op).written with
      | some written => stamp written
      | none => c.endTime := by
  cases op with
  | start durationMinutes => rfl
  | extend minutes =>
      cases hend : c.endTime with
      | none => simp [next, arithmetic, extendedEnd, hend]
      | some endTime => simp [next, arithmetic, extendedEnd, currentEnd, hend]
  | updateSettings req =>
      by_cases hpos : 0 < req.durationMinutes
      · by_cases hrun : c.status = .running
        · cases hend : c.endTime with
          | some endTime => simp [next, arithmetic, updatedEnd, hpos, hrun, hend]
          | none =>
              cases hstart : c.startTime with
              | none => simp [next, arithmetic, updatedEnd, hpos, hrun, hend, hstart]
              | some startTime => simp [next, arithmetic, updatedEnd, hpos, hrun, hend, hstart]
        · simp [next, arithmetic, updatedEnd, hpos, hrun]
      · simp [next, arithmetic, hpos]
  | pause _ | resume | freeze | unfreeze | reset | endContest => exact hop.elim

/-- An instant is read back if its year has four digits. -/
lemma stamp_eq_wholeSecond_iff {t : ℤ} : stamp t = some (wholeSecond t) ↔ HasYear t := by
  rw [stamp, parse_format]
  split_ifs with h <;> simp [h]

/-- Seconds that are not negative, and whose nanoseconds fit, fit. -/
lemma fits_of_nanoseconds {n : ℤ} (hn : 0 ≤ n) (h : n * second < 2 ^ 63) :
    FitsInt64 n ∧ FitsInt64 (n * second) := by
  unfold FitsInt64 second at *
  omega

lemma Times.requested_nonneg (hsized : c.Sized) (durationMinutes : ℤ) : 0 ≤ c.requested durationMinutes := by
  unfold requested
  split_ifs
  · omega
  · exact hsized.1.le

/-- Without overflow `Start` takes the seconds it is asked for. -/
lemma Times.startDuration_eq {durationMinutes : ℤ} (h : FitsInt64 (c.requested durationMinutes)) :
    c.startDuration durationMinutes = c.requested durationMinutes := by
  unfold startDuration requested at *
  split_ifs with hpos
  · rw [if_pos hpos] at h
    exact int64_of_fits h
  · rfl

lemma Times.start_exact_iff (hsized : c.Sized) (durationMinutes : ℤ) :
    c.Exact now (.start durationMinutes) ↔ c.InRange now (.start durationMinutes) := by
  have hnonneg := requested_nonneg hsized durationMinutes
  constructor
  · intro h
    have hsec : FitsInt64 (c.requested durationMinutes) := by
      unfold requested
      split_ifs with hpos
      · exact int64_eq_self_iff.mp (h.results _ (by simp [arithmetic, hpos]))
      · exact ⟨by have := hsized.1; omega, hsized.2⟩
    have hnano := int64_eq_self_iff.mp
      (h.results (c.startDuration durationMinutes * second) (by simp [arithmetic]))
    rw [startDuration_eq hsec] at hnano
    refine ⟨hnano.2, ?_⟩
    have hread := h.readBack _ rfl
    rw [startDuration_eq hsec, duration_of_fits hnano] at hread
    exact stamp_eq_wholeSecond_iff.mp hread
  · rintro ⟨hlt, hyear⟩
    obtain ⟨hsec, hnano⟩ := fits_of_nanoseconds hnonneg hlt
    have hend : duration (c.startDuration durationMinutes) second = c.requested durationMinutes * second := by
      rw [startDuration_eq hsec, duration_of_fits hnano]
    refine ⟨fun n hn => ?_, fun base hbase written hwritten => ?_, fun written hwritten => ?_⟩
    · simp only [arithmetic, List.mem_append, List.mem_singleton] at hn
      rcases hn with hn | rfl
      · split_ifs at hn with hpos
        · obtain rfl := List.mem_singleton.mp hn
          rw [requested, if_pos hpos] at hsec
          exact int64_of_fits hsec
        · cases hn
      · rw [startDuration_eq hsec]
        exact int64_of_fits hnano
    · obtain rfl := Option.some.inj hbase
      obtain rfl := Option.some.inj hwritten
      rw [hend]
      have hadd : 0 ≤ c.requested durationMinutes * second := Int.mul_nonneg hnonneg second_pos.le
      omega
    · obtain rfl := Option.some.inj hwritten
      rw [hend]
      exact stamp_eq_wholeSecond_iff.mpr hyear

lemma Times.inRange_of_exact_extend {minutes : ℤ} (h : c.Exact now (.extend minutes)) :
    c.InRange now (.extend minutes) := by
  have hsec : FitsInt64 (minutes * 60) :=
    int64_eq_self_iff.mp (h.results _ (by simp [arithmetic]))
  have hadd : int64 (minutes * 60) = minutes * 60 := int64_of_fits hsec
  have hsum := int64_eq_self_iff.mp
    (h.results (c.durationSeconds + int64 (minutes * 60)) (by simp [arithmetic]))
  rw [hadd] at hsum
  refine ⟨hsec.2, hsum.2, fun endTime hend => ?_⟩
  have hend : c.endTime = some endTime := hend
  have hnano := int64_eq_self_iff.mp
    (h.results (int64 (minutes * 60) * second) (by simp [arithmetic, hend]))
  have hread := h.readBack (currentEnd endTime now + duration (int64 (minutes * 60)) second)
    (by simp [arithmetic, hend])
  rw [hadd] at hnano hread
  rw [duration_of_fits hnano] at hread
  exact ⟨hnano.2, stamp_eq_wholeSecond_iff.mp hread⟩

lemma Times.exact_extend_of_inRange (hsized : c.Sized) {minutes : ℤ} (hminutes : 0 < minutes)
    (h : c.InRange now (.extend minutes)) : c.Exact now (.extend minutes) := by
  have hpos := hsized.1
  obtain ⟨hmin, hsum, hrange⟩ := h
  have hsec : FitsInt64 (minutes * 60) := ⟨by omega, hmin⟩
  have hadd : int64 (minutes * 60) = minutes * 60 := int64_of_fits hsec
  have hfits : FitsInt64 (c.durationSeconds + minutes * 60) := ⟨by omega, hsum⟩
  refine ⟨fun n hn => ?_, fun base hbase written hwritten => ?_, fun written hwritten => ?_⟩
  · simp only [arithmetic, hadd, List.cons_append, List.nil_append, List.mem_cons] at hn
    rcases hn with rfl | rfl | hn
    · exact hadd
    · exact int64_of_fits hfits
    · cases hend : c.endTime with
      | none => simp [hend] at hn
      | some endTime =>
          rw [hend] at hn
          obtain rfl := List.mem_singleton.mp hn
          exact int64_of_fits (fits_of_nanoseconds (by omega) (hrange endTime hend).1).2
  · obtain ⟨endTime, hend, rfl⟩ := Option.map_eq_some_iff.mp hbase
    obtain ⟨endTime', hend', rfl⟩ := Option.map_eq_some_iff.mp hwritten
    obtain rfl := Option.some.inj (hend.symm.trans hend')
    have hnano := (fits_of_nanoseconds (n := minutes * 60) (by omega) (hrange endTime hend).1).2
    have hnonneg : 0 ≤ minutes * 60 * second := Int.mul_nonneg (by omega) second_pos.le
    rw [hadd, duration_of_fits hnano]
    omega
  · obtain ⟨endTime, hend, rfl⟩ := Option.map_eq_some_iff.mp hwritten
    obtain ⟨hlt, hyear⟩ := hrange endTime hend
    have hnano := (fits_of_nanoseconds (n := minutes * 60) (by omega) hlt).2
    rw [hadd, duration_of_fits hnano]
    exact stamp_eq_wholeSecond_iff.mpr hyear

lemma Times.extend_exact_iff (hsized : c.Sized) {minutes : ℤ} (hminutes : 0 < minutes) :
    c.Exact now (.extend minutes) ↔ c.InRange now (.extend minutes) :=
  ⟨Times.inRange_of_exact_extend, Times.exact_extend_of_inRange hsized hminutes⟩

lemma Times.exact_iff_written {results : List ℤ} {written : ℤ}
    (h : c.arithmetic now op = ⟨results, none, some written⟩) :
    c.Exact now op ↔ (∀ n ∈ results, FitsInt64 n) ∧ HasYear written := by
  constructor
  · intro hexact
    refine ⟨fun n hn => int64_eq_self_iff.mp (hexact.results n (by rw [h]; exact hn)), ?_⟩
    exact stamp_eq_wholeSecond_iff.mp (hexact.readBack written (by rw [h]; rfl))
  · rintro ⟨hresults, hyear⟩
    refine ⟨?_, ?_, ?_⟩
    · rw [h]
      exact fun n hn => int64_of_fits (hresults n hn)
    · rw [h]
      intro base hbase
      cases hbase
    · rw [h]
      intro w hw
      obtain rfl := Option.some.inj hw
      exact stamp_eq_wholeSecond_iff.mpr hyear

lemma Times.exact_iff_unwritten {results : List ℤ} (h : c.arithmetic now op = ⟨results, none, none⟩) :
    c.Exact now op ↔ ∀ n ∈ results, FitsInt64 n := by
  constructor
  · intro hexact n hn
    exact int64_eq_self_iff.mp (hexact.results n (by rw [h]; exact hn))
  · intro hresults
    refine ⟨?_, ?_, ?_⟩
    · rw [h]
      exact fun n hn => int64_of_fits (hresults n hn)
    · rw [h]
      intro base hbase
      cases hbase
    · rw [h]
      intro w hw
      cases hw

section UpdateSettings

variable {req : SettingsRequest} {startTime endTime : ℤ}

/-- `UpdateSettings` with a duration that does not fit in seconds. -/
lemma Times.not_exact_of_seconds (hpos : 0 < req.durationMinutes)
    (hsec : ¬FitsInt64 (req.durationMinutes * 60)) :
    ¬c.Exact now (.updateSettings req) ∧ ¬c.InRange now (.updateSettings req) := by
  constructor
  · intro h
    refine hsec (int64_eq_self_iff.mp (h.results (req.durationMinutes * 60) ?_))
    by_cases hrun : c.status = .running
    · cases hend : c.endTime with
      | some endTime => simp [arithmetic, hpos, hrun, hend]
      | none =>
          cases hstart : c.startTime with
          | some startTime => simp [arithmetic, hpos, hrun, hend, hstart]
          | none => simp [arithmetic, hpos, hrun, hend, hstart]
    · simp [arithmetic, hpos, hrun]
  · intro h
    exact hsec ⟨by omega, (h hpos).1⟩

/-- A running contest with an end, which moves by the difference of the durations. -/
lemma Times.updateSettings_exact_of_end (hsized : c.Sized) (hpos : 0 < req.durationMinutes)
    (hsec : FitsInt64 (req.durationMinutes * 60)) (hrun : c.status = .running)
    (hend : c.endTime = some endTime) :
    c.Exact now (.updateSettings req) ↔ c.InRange now (.updateSettings req) := by
  have hdiff : FitsInt64 (req.durationMinutes * 60 - c.durationSeconds) := by
    have hlow := hsized.1
    have hhigh := hsized.2
    exact ⟨by omega, by have := hsec.2; omega⟩
  have harith : c.arithmetic now (.updateSettings req) =
      ⟨[req.durationMinutes * 60, req.durationMinutes * 60 - c.durationSeconds,
        (req.durationMinutes * 60 - c.durationSeconds) * second], none,
        some (endTime + duration (req.durationMinutes * 60 - c.durationSeconds) second)⟩ := by
    simp [arithmetic, hpos, hrun, hend, int64_of_fits hsec, int64_of_fits hdiff]
  rw [exact_iff_written harith]
  constructor
  · rintro ⟨hresults, hyear⟩ _
    have hnano := hresults ((req.durationMinutes * 60 - c.durationSeconds) * second) (by simp)
    rw [duration_of_fits hnano] at hyear
    refine ⟨hsec.2, fun _ => ⟨fun e he => ?_, fun hnone => ?_⟩⟩
    · obtain rfl := Option.some.inj (hend.symm.trans he)
      exact ⟨hnano, hyear⟩
    · rw [hend] at hnone
      cases hnone
  · intro h
    obtain ⟨hnano, hyear⟩ := ((h hpos).2 hrun).1 endTime hend
    rw [duration_of_fits hnano]
    refine ⟨fun n hn => ?_, hyear⟩
    simp only [List.mem_cons, List.not_mem_nil, or_false] at hn
    rcases hn with rfl | rfl | rfl
    · exact hsec
    · exact hdiff
    · exact hnano

/-- A running contest without an end, which gets one. -/
lemma Times.updateSettings_exact_of_start (hpos : 0 < req.durationMinutes)
    (hsec : FitsInt64 (req.durationMinutes * 60)) (hrun : c.status = .running) (hend : c.endTime = none)
    (hstart : c.startTime = some startTime) :
    c.Exact now (.updateSettings req) ↔ c.InRange now (.updateSettings req) := by
  have harith : c.arithmetic now (.updateSettings req) =
      ⟨[req.durationMinutes * 60, req.durationMinutes * 60 * second], none,
        some (startTime + duration (req.durationMinutes * 60) second)⟩ := by
    simp [arithmetic, hpos, hrun, hend, hstart, int64_of_fits hsec]
  rw [exact_iff_written harith]
  constructor
  · rintro ⟨hresults, hyear⟩ _
    have hnano := hresults (req.durationMinutes * 60 * second) (by simp)
    rw [duration_of_fits hnano] at hyear
    refine ⟨hsec.2, fun _ => ⟨fun e he => ?_, fun _ st hst => ?_⟩⟩
    · rw [hend] at he
      cases he
    · obtain rfl := Option.some.inj (hstart.symm.trans hst)
      exact ⟨hnano.2, hyear⟩
  · intro h
    obtain ⟨hlt, hyear⟩ := ((h hpos).2 hrun).2 hend startTime hstart
    have hnano := (fits_of_nanoseconds (n := req.durationMinutes * 60) (by omega) hlt).2
    rw [duration_of_fits hnano]
    refine ⟨fun n hn => ?_, hyear⟩
    simp only [List.mem_cons, List.not_mem_nil, or_false] at hn
    rcases hn with rfl | rfl
    · exact hsec
    · exact hnano

lemma Times.updateSettings_exact_iff (hsized : c.Sized) (req : SettingsRequest) :
    c.Exact now (.updateSettings req) ↔ c.InRange now (.updateSettings req) := by
  by_cases hpos : 0 < req.durationMinutes
  · by_cases hsec : FitsInt64 (req.durationMinutes * 60)
    · by_cases hrun : c.status = .running
      · cases hend : c.endTime with
        | some endTime => exact updateSettings_exact_of_end hsized hpos hsec hrun hend
        | none =>
            cases hstart : c.startTime with
            | some startTime => exact updateSettings_exact_of_start hpos hsec hrun hend hstart
            | none =>
                have harith : c.arithmetic now (.updateSettings req) =
                    ⟨[req.durationMinutes * 60], none, none⟩ := by
                  simp [arithmetic, hpos, hrun, hend, hstart]
                rw [exact_iff_unwritten harith]
                simpa [InRange, hpos, hend, hstart, hsec] using hsec.2
      · have harith : c.arithmetic now (.updateSettings req) = ⟨[req.durationMinutes * 60], none, none⟩ := by
          simp [arithmetic, hpos, hrun]
        rw [exact_iff_unwritten harith]
        simpa [InRange, hpos, hrun, hsec] using hsec.2
    · have hneither : ¬c.Exact now (.updateSettings req) ∧ ¬c.InRange now (.updateSettings req) :=
        not_exact_of_seconds hpos hsec
      exact iff_of_false hneither.1 hneither.2
  · have harith : c.arithmetic now (.updateSettings req) = ⟨[], none, none⟩ := by
      simp [arithmetic, hpos]
    rw [exact_iff_unwritten harith]
    simp [InRange, hpos]

end UpdateSettings

/-- **Where an operation is accepted, its arithmetic is exact exactly if its arguments are in range.** -/
theorem Times.exact_iff_inRange (hsized : c.Sized) (hop : op.Computes) (hacc : c.Accepts op) (now : ℤ) :
    c.Exact now op ↔ c.InRange now op := by
  cases op with
  | start durationMinutes => exact start_exact_iff hsized durationMinutes
  | extend minutes => exact extend_exact_iff hsized hacc
  | updateSettings req => exact updateSettings_exact_iff hsized req
  | pause _ | resume | freeze | unfreeze | reset | endContest => exact hop.elim

end One

/-! ## Runs -/

lemma sized_parseDuration (n : ℤ) : 0 < parseDuration (some (int64 n)) ∧ parseDuration (some (int64 n)) < 2 ^ 63 := by
  refine ⟨parseDuration_pos _, ?_⟩
  unfold parseDuration
  dsimp only
  split_ifs
  · exact (fitsInt64_int64 n).2
  · decide

/-- Every operation leaves a duration that fits. -/
lemma Times.Sized.next {c : Times} (h : c.Sized) (now : ℤ) (op : Op) : (c.next now op).Sized := by
  cases op with
  | start durationMinutes =>
      by_cases hpos : durationMinutes > 0
      · have hstart : c.startDuration durationMinutes = int64 (durationMinutes * 60) := if_pos hpos
        unfold Sized
        rw [Times.next, hstart]
        exact sized_parseDuration (durationMinutes * 60)
      · have hstart : c.startDuration durationMinutes = c.durationSeconds := if_neg hpos
        unfold Sized
        rw [Times.next, hstart, parseDuration_of_pos h.1]
        exact h
  | extend minutes => exact sized_parseDuration _
  | updateSettings req =>
      by_cases hpos : req.durationMinutes > 0
      · have hnext : (c.next now (.updateSettings req)).durationSeconds
            = parseDuration (some (int64 (req.durationMinutes * 60))) := by
          simp only [Times.next, if_pos hpos]
        unfold Sized
        rw [hnext]
        exact sized_parseDuration _
      · have hnext : c.next now (.updateSettings req) = c := if_neg hpos
        rw [hnext]
        exact h
  | pause _ | resume | freeze | unfreeze | reset | endContest => exact h

lemma Times.Sized.run {c : Times} (h : c.Sized) (events : List (ℤ × Op)) : (c.run events).Sized := by
  induction events generalizing c with
  | nil => exact h
  | cons e events ih =>
      refine ih (c := c.step e.1 e.2) ?_
      unfold Times.step
      split_ifs
      · exact h.next e.1 e.2
      · exact h

/-- **In a run, every `Start`, `Extend` and `UpdateSettings` that is accepted computes without overflow,
produces no end before the instant that it starts from, and writes an end that is read back, if and only if
the arguments of all of them are in range.** -/
theorem exact_iff (events : List (ℤ × Op)) :
    (∀ n now op, events[n]? = some (now, op) → op.Computes → (after (events.take n)).snapshot.Accepts op →
        (after (events.take n)).snapshot.Exact now op) ↔
      ∀ n now op, events[n]? = some (now, op) → op.Computes →
        (after (events.take n)).snapshot.Accepts op → (after (events.take n)).snapshot.InRange now op := by
  have hiff : ∀ n now op, op.Computes → (after (events.take n)).snapshot.Accepts op →
      ((after (events.take n)).snapshot.Exact now op ↔ (after (events.take n)).snapshot.InRange now op) := by
    intro n now op hop hacc
    refine Times.exact_iff_inRange ?_ hop hacc now
    rw [after_times]
    exact Times.Sized.run ⟨by decide, by decide⟩ (events.take n)
  constructor
  · intro h n now op hat hop hacc
    exact (hiff n now op hop hacc).mp (h n now op hat hop hacc)
  · intro h n now op hat hop hacc
    exact (hiff n now op hop hacc).mpr (h n now op hat hop hacc)

/-- A contest of two hours that has run for one is extended, and its end is long before the start. -/
theorem extension_overflows :
    let events : List (ℤ × Op) := [(0, .start 120), (60 * minute, .extend 200000000)]
    (after (events.take 1)).snapshot.Accepts (.extend 200000000) ∧
      ¬(after (events.take 1)).snapshot.Exact (60 * minute) (.extend 200000000) ∧
      (after events).snapshot.startTime = some 0 ∧ ∃ endTime ∈ (after events).snapshot.endTime, endTime < 0 := by
  refine ⟨by decide +kernel, ?_, by decide +kernel, by decide +kernel⟩
  intro h
  have hnano := h.results (200000000 * 60 * second) (by decide +kernel)
  revert hnano
  decide +kernel

end Clock

end Labyrithm
