import Labyrithm.Clock.Accounting

/-!
# Pauses

A contest that is started once and then paused and resumed any number of times.  `Resume` puts the end
off by the pause, so the end is the start, the duration and all pauses together, in whole seconds, and
a pause of any length costs at most the second that the pause time was rounded by.

* `Cycle` — a pause and the resume after it; `Manager.cycles` — several of them.
* `Manager.Conserved` — the end accounts for all pauses.
* **`pauses_conserve`** — this holds throughout every run in which nothing overflows, and the time left
  is the same before and after a resume.
* `overflow_shortens` — a duration whose nanoseconds overflow: a contest of 26 seconds.
-/

namespace Labyrithm

namespace Clock

open Go

/-! ## Runs of pauses -/

/-- The instants of a pause, of the look at the clock before it, and of the resume. -/
structure Cycle where
  checked : ℤ
  pausedAt : ℤ
  resumedAt : ℤ

def Manager.paused (m : Manager) (cy : Cycle) : Manager := m.step cy.pausedAt (.pause cy.checked)

def Manager.resumed (m : Manager) (cy : Cycle) : Manager := (m.paused cy).step cy.resumedAt .resume

def Manager.cycles (m : Manager) (cs : List Cycle) : Manager := cs.foldl Manager.resumed m

/-- How long a pause lasted, from the stored pause time to the second of the resume. -/
def Manager.pausedFor (m : Manager) (cy : Cycle) : ℤ :=
  wholeSecond cy.resumedAt - (m.paused cy).snapshot.pausedAt.getD 0

/-- The sum over all pauses. -/
def Manager.pausedTotal (m : Manager) : List Cycle → ℤ
  | [] => 0
  | cy :: cs => m.pausedFor cy + (m.resumed cy).pausedTotal cs

/-- The pauses are accepted, one after the other. -/
def Manager.Plays (m : Manager) (t : ℤ) : List Cycle → Prop
  | [] => True
  | cy :: cs => t ≤ cy.pausedAt ∧ cy.pausedAt ≤ cy.resumedAt ∧
      m.snapshot.Accepts (.pause cy.checked) ∧ (m.resumed cy).Plays cy.resumedAt cs

/-- Nothing overflows in them. -/
def Manager.FitsCycles (m : Manager) : List Cycle → Prop
  | [] => True
  | cy :: cs => m.snapshot.Fits cy.pausedAt (.pause cy.checked) ∧
      (m.paused cy).snapshot.Fits cy.resumedAt .resume ∧ (m.resumed cy).FitsCycles cs

/-- The stored end is the stored start with the duration and what was paused. -/
def Manager.Conserved (m : Manager) (total : ℤ) : Prop :=
  ∃ startTime, m.snapshot.startTime = some startTime ∧
    m.snapshot.endTime = some (startTime + m.snapshot.durationSeconds * second + total)

/-- At the resume, and for the rest of its second, as much time is left as during the pause. -/
def Manager.KeepsTimeLeft (m : Manager) (cy : Cycle) : Prop :=
  ∀ during after, cy.resumedAt ≤ after → after / second = cy.resumedAt / second →
    |((m.resumed cy).snapshot.getState after).remainingSeconds -
      ((m.paused cy).snapshot.getState during).remainingSeconds| ≤ 1

/-! ## One pause -/

/-- The times of a running contest: the end lies at most its duration after the second of `t`. -/
structure Times.RunningFrom (c : Times) (t startSec endSec : ℤ) : Prop where
  status : c.status = .running
  startTime : c.startTime = some (startSec * second)
  endTime : c.endTime = some (endSec * second)
  duration : FitsInt64 (c.durationSeconds * second)
  left : endSec - t / second ≤ c.durationSeconds

section Cycle

variable {c : Times} {t startSec endSec : ℤ}

/-- Started contests. -/
lemma Times.RunningFrom.start {d : ℤ} (hfits : c.Fits t (.start d)) :
    (c.next t (.start d)).RunningFrom t (t / second)
      (t / second + (c.next t (.start d)).durationSeconds) := by
  obtain ⟨hpos, hdur, hyear, hyearEnd⟩ := hfits
  have hsame : (c.next t (.start d)).durationSeconds = c.startDuration d := parseDuration_of_pos hpos
  have hend := stamp_of_hasYear hyearEnd
  rw [← duration_of_fits hdur] at hend
  refine ⟨rfl, stamp_of_hasYear hyear, ?_, ?_, by omega⟩
  · rw [hsame]
    refine hend.trans (congrArg some ?_)
    rw [duration_of_fits hdur]
    unfold second
    omega
  · rwa [hsame]

/-- A contest that is paused and resumed. -/
lemma Times.RunningFrom.cycle (h : c.RunningFrom t startSec endSec) {cy : Cycle}
    (hpause : t ≤ cy.pausedAt) (hresume : cy.pausedAt ≤ cy.resumedAt)
    (hfits : c.Fits cy.pausedAt (.pause cy.checked))
    (hfits' : (c.next cy.pausedAt (.pause cy.checked)).Fits cy.resumedAt .resume) :
    ((c.next cy.pausedAt (.pause cy.checked)).next cy.resumedAt .resume).RunningFrom cy.resumedAt
      startSec (endSec + (cy.resumedAt / second - cy.pausedAt / second)) := by
  have hpaused : (c.next cy.pausedAt (.pause cy.checked)).pausedAt =
      some (cy.pausedAt / second * second) := stamp_of_hasYear hfits
  have hend := resumedEnd_eq (c := c.next cy.pausedAt (.pause cy.checked)) h.endTime hpaused
    (by unfold second; omega) hfits'
  have hleft := h.left
  refine ⟨rfl, h.startTime, hend.trans (congrArg some ?_), h.duration, ?_⟩
  · unfold second
    omega
  · show endSec + (cy.resumedAt / second - cy.pausedAt / second) - cy.resumedAt / second ≤
      c.durationSeconds
    unfold second at *
    omega

/-- As much time is left at the resume as during the pause. -/
lemma Times.RunningFrom.keepsTimeLeft (h : c.RunningFrom t startSec endSec) {cy : Cycle}
    (hpause : t ≤ cy.pausedAt) (hresume : cy.pausedAt ≤ cy.resumedAt)
    (hfits : c.Fits cy.pausedAt (.pause cy.checked))
    (hfits' : (c.next cy.pausedAt (.pause cy.checked)).Fits cy.resumedAt .resume)
    (during : ℤ) {after : ℤ} (hsecond : after / second = cy.resumedAt / second) :
    |((c.next cy.pausedAt (.pause cy.checked)).next cy.resumedAt .resume).remaining after -
      (c.next cy.pausedAt (.pause cy.checked)).remaining during| ≤ 1 := by
  have hpaused : (c.next cy.pausedAt (.pause cy.checked)).pausedAt =
      some (cy.pausedAt / second * second) := stamp_of_hasYear hfits
  have hcycle := h.cycle hpause hresume hfits hfits'
  have hleft := h.left
  have hduration := h.duration
  have hfitsLeft : endSec * second - cy.pausedAt / second * second < 2 ^ 63 := by
    unfold FitsInt64 second at *
    omega
  have hfitsAfter : (endSec + (cy.resumedAt / second - cy.pausedAt / second)) * second - after
      < 2 ^ 63 := by
    unfold FitsInt64 second at *
    omega
  have hleftAfter := seconds_left hfitsAfter
  rw [remaining_of_running hcycle.status hcycle.startTime hcycle.endTime hfitsAfter,
    remaining_of_paused_whole (c := c.next cy.pausedAt (.pause cy.checked)) _ rfl h.startTime h.endTime
      hpaused hfitsLeft, abs_le]
  unfold second at *
  omega

end Cycle

/-! ## Runs -/

section Run

variable {m : Manager} {c : Times} {t startSec endSec : ℤ}

/-- A running contest of the run, with the pauses there were. -/
structure Manager.Runs (m : Manager) (t startSec total : ℤ) : Prop where
  loaded : m.Has m.snapshot.toTimes
  running : m.snapshot.RunningFrom t startSec (startSec + m.snapshot.durationSeconds + total / second)
  whole : IsWhole total

lemma Manager.Runs.conserved {total : ℤ} (h : m.Runs t startSec total) : m.Conserved total := by
  refine ⟨_, h.running.startTime, h.running.endTime.trans (congrArg some ?_)⟩
  rw [Int.add_mul, Int.add_mul, Int.ediv_mul_cancel h.whole]

section Cycle

variable {total : ℤ} {cy : Cycle} (h : m.Runs t startSec total)
  (hacc : m.snapshot.Accepts (.pause cy.checked))

include h hacc

lemma Manager.Runs.paused_has :
    (m.paused cy).Has (m.snapshot.next cy.pausedAt (.pause cy.checked)) :=
  h.loaded.step_of_accepts _ hacc

lemma Manager.Runs.resumed_has :
    (m.resumed cy).Has
      ((m.snapshot.next cy.pausedAt (.pause cy.checked)).next cy.resumedAt .resume) :=
  (h.paused_has hacc).step_of_accepts _ rfl

variable (hpause : t ≤ cy.pausedAt) (hresume : cy.pausedAt ≤ cy.resumedAt)
  (hfits : m.snapshot.Fits cy.pausedAt (.pause cy.checked))
  (hfits' : (m.paused cy).snapshot.Fits cy.resumedAt .resume)

/-- While it is paused, its end is not moved. -/
lemma Manager.Runs.paused_conserved : (m.paused cy).Conserved total := by
  obtain ⟨startTime, hstart, hend⟩ := h.conserved
  refine ⟨startTime, ?_, ?_⟩
  · rw [(h.paused_has hacc).times]
    exact hstart
  · rw [(h.paused_has hacc).times]
    exact hend

include hfits

lemma Manager.Runs.pausedFor_eq :
    m.pausedFor cy = wholeSecond cy.resumedAt - wholeSecond cy.pausedAt := by
  have hpaused : (m.paused cy).snapshot.pausedAt = some (wholeSecond cy.pausedAt) := by
    rw [(h.paused_has hacc).times]
    exact stamp_of_hasYear hfits
  rw [pausedFor, hpaused, Option.getD_some]

include hpause hresume hfits'

lemma Manager.Runs.keepsTimeLeft : m.KeepsTimeLeft cy := by
  intro during after _ hsecond
  rw [(h.paused_has hacc).times] at hfits'
  have hleft := h.running.keepsTimeLeft hpause hresume hfits hfits' during hsecond
  simp only [Snapshot.getState]
  rw [(h.paused_has hacc).times, (h.resumed_has hacc).times]
  exact hleft

/-- **One pause: the contest runs on, with an end that accounts for it.** -/
lemma Manager.Runs.resumed :
    (m.resumed cy).Runs cy.resumedAt startSec (total + m.pausedFor cy) := by
  rw [(h.paused_has hacc).times] at hfits'
  have hcycle := h.running.cycle hpause hresume hfits hfits'
  have htimes := (h.resumed_has hacc).times
  have hwhole : IsWhole (m.pausedFor cy) := by
    rw [h.pausedFor_eq hacc hfits]
    exact Int.dvd_sub (isWhole_wholeSecond _) (isWhole_wholeSecond _)
  refine ⟨htimes ▸ h.resumed_has hacc, ?_, Int.dvd_add h.whole hwhole⟩
  rw [htimes]
  convert hcycle using 1
  show startSec + m.snapshot.durationSeconds + (total + m.pausedFor cy) / second = _
  rw [h.pausedFor_eq hacc hfits, Int.add_ediv_of_dvd_left h.whole]
  unfold wholeSecond second
  omega

end Cycle

/-- What holds throughout a run of pauses. -/
def Manager.Conserves (m : Manager) (total : ℤ) (cs : List Cycle) : Prop :=
  ∀ pre, pre <+: cs → (m.cycles pre).Conserved (total + m.pausedTotal pre) ∧
    ∀ cy, pre ++ [cy] <+: cs →
      ((m.cycles pre).paused cy).Conserved (total + m.pausedTotal pre) ∧
      (m.cycles pre).KeepsTimeLeft cy

lemma Manager.Runs.conserves {total : ℤ} {cs : List Cycle} (h : m.Runs t startSec total)
    (hplays : m.Plays t cs) (hfits : m.FitsCycles cs) : m.Conserves total cs := by
  induction cs generalizing m t total with
  | nil =>
      intro pre hpre
      obtain rfl := List.prefix_nil.mp hpre
      refine ⟨by simpa [cycles, pausedTotal] using h.conserved, fun cy hcy => ?_⟩
      exact absurd (List.prefix_nil.mp hcy) (by simp)
  | cons cy cs ih =>
      obtain ⟨hpause, hresume, hacc, hplays⟩ := hplays
      obtain ⟨hfitsPause, hfitsResume, hfits⟩ := hfits
      have hrest := ih (h.resumed hacc hpause hresume hfitsPause hfitsResume) hplays hfits
      intro pre hpre
      cases pre with
      | nil =>
          refine ⟨by simpa [cycles, pausedTotal] using h.conserved, fun cy' hcy => ?_⟩
          obtain rfl : cy' = cy := (List.cons_prefix_cons.mp hcy).1
          exact ⟨by simpa [cycles, pausedTotal] using h.paused_conserved hacc,
            h.keepsTimeLeft hacc hpause hresume hfitsPause hfitsResume⟩
      | cons cy' pre =>
          obtain ⟨rfl, hrestPre⟩ := List.cons_prefix_cons.mp hpre
          obtain ⟨hconserved, hnext⟩ := hrest pre hrestPre
          simp only [pausedTotal, ← Int.add_assoc]
          exact ⟨hconserved, fun cy hcy => hnext cy (List.cons_prefix_cons.mp hcy).2⟩

/-- The contest right after `Start`. -/
lemma Manager.Has.runs_of_start {d : ℤ} (h : m.Has c) (hacc : c.Accepts (.start d))
    (hfits : c.Fits t (.start d)) : (m.step t (.start d)).Runs t (t / second) 0 := by
  have hstep := h.step_of_accepts t hacc
  refine ⟨hstep.times ▸ hstep, ?_, Int.dvd_zero _⟩
  rw [hstep.times]
  simpa using Times.RunningFrom.start hfits

end Run

/-- **Pauses are conserved**: started once, in every state of the run the stored end is the stored
start with the duration and the pauses, and a resume leaves as much time as there was during the
pause. -/
theorem pauses_conserve (stored : Settings) (t d : ℤ) (cs : List Cycle)
    (hacc : (parseSnapshot stored).Accepts (.start d))
    (hplays : ((Manager.load stored).step t (.start d)).Plays t cs)
    (hstart : (parseSnapshot stored).Fits t (.start d))
    (hcycles : ((Manager.load stored).step t (.start d)).FitsCycles cs) :
    ((Manager.load stored).step t (.start d)).Conserves 0 cs := by
  have hload : (Manager.load stored).Has (parseSnapshot stored).toTimes := ⟨stored, rfl, rfl⟩
  exact (hload.runs_of_start hacc hstart).conserves hplays hcycles

/-- A pause of three hours in a contest of two, past its end. -/
theorem pauses_conserve_sample :
    ((Manager.load .migrated).step 0 (.start 0)).Conserves 0 [⟨hour, hour, 4 * hour⟩] :=
  pauses_conserve .migrated 0 0 _ (by decide) ⟨by decide, by decide, by decide, trivial⟩ (by decide)
    ⟨by decide, by decide, trivial⟩

/-- 307445735 minutes are stored, but the contest ends after 26 seconds. -/
theorem overflow_shortens :
    ¬ ∀ stored t d cs, (parseSnapshot stored).Accepts (.start d) →
      ((Manager.load stored).step t (.start d)).Plays t cs →
      ((Manager.load stored).step t (.start d)).Conserves 0 cs := by
  intro h
  obtain ⟨startTime, hstart, hend⟩ :=
    (h .migrated 0 307445735 [] (by decide) trivial [] List.nil_prefix).1
  have hzero : ((Manager.load .migrated).step 0 (.start 307445735)).snapshot.startTime = some 0 := by
    decide
  obtain rfl := Option.some.inj (hzero.symm.trans hstart)
  revert hend
  decide

end Clock

end Labyrithm
