import Labyrithm.Clock.Snapshot

/-!
# The operations on the contest

`backend/internal/contest/manager.go`: every operation decides on the snapshot, saves the settings it
changes (`SaveSettings`), and reads all of them again (`Reload`).

`Manager` is one manager with the table behind it; an operation that is refused, or has nothing to
save, leaves both as they are.  `step` makes one operation at an instant, and a `Run` is a list of
operations with their instants.

* `Manager.apply` — an operation, with the errors it is refused with.
* `Times` — the part of a snapshot the times are computed from.
* **`apply_eq`** — what every operation makes of it.
-/

namespace Labyrithm

namespace Clock

open Go

/-! ## Saving settings -/

/-- One entry of a map of updates: a key and its value. -/
inductive Setting
  | title (value : List Char)
  | status (value : Status)
  | durationSeconds (value : ℤ)
  | freezeMinutes (value : ℤ)
  | startTime (value : Option RFC3339)
  | endTime (value : Option RFC3339)
  | pausedAt (value : Option RFC3339)
  | isFrozen (value : Bool)
  | freezeOverridden (value : Bool)
  | freezeStartTime (value : Option RFC3339)
  | requireFullscreen (value : Bool)
  | minClientVersion (value : List Char)
  | enforceBinaryHash (value : Bool)
  | authorizedBinaryHashes (value : List Char)
  | downloadEnabled (value : Bool)
  deriving DecidableEq, Repr

/-- `INSERT … ON CONFLICT (key) DO UPDATE`. -/
def Settings.save (stored : Settings) : Setting → Settings
  | .title value => { stored with title := some value }
  | .status value => { stored with status := some value }
  | .durationSeconds value => { stored with durationSeconds := some value }
  | .freezeMinutes value => { stored with freezeMinutes := some value }
  | .startTime value => { stored with startTime := value }
  | .endTime value => { stored with endTime := value }
  | .pausedAt value => { stored with pausedAt := value }
  | .isFrozen value => { stored with isFrozen := some value }
  | .freezeOverridden value => { stored with freezeOverridden := some value }
  | .freezeStartTime value => { stored with freezeStartTime := value }
  | .requireFullscreen value => { stored with requireFullscreen := some value }
  | .minClientVersion value => { stored with minClientVersion := some value }
  | .enforceBinaryHash value => { stored with enforceBinaryHash := some value }
  | .authorizedBinaryHashes value => { stored with authorizedBinaryHashes := some value }
  | .downloadEnabled value => { stored with downloadEnabled := some value }

/-- `SaveSettings`, one statement for each entry of the map. -/
def saveSettings (stored : Settings) (updates : List Setting) : Settings :=
  updates.foldl Settings.save stored

lemma saveSettings_append (stored : Settings) (first last : List Setting) :
    saveSettings stored (first ++ last) = saveSettings (saveSettings stored first) last :=
  List.foldl_append

/-! ## The manager -/

inductive Error
  | contestAlreadyRunning
  | contestPaused
  | contestNotRunning
  | contestNotPaused
  | minutesNotPositive
  deriving DecidableEq, Repr

/-- The text the handlers answer with. -/
def Error.message : Error → String
  | contestAlreadyRunning => "contest is already running"
  | contestPaused => "contest is currently paused; resume to continue"
  | contestNotRunning => "contest is not currently running"
  | contestNotPaused => "contest is not currently paused"
  | minutesNotPositive => "minutes to extend must be positive"

/-- A manager, and the rows behind its repository. -/
structure Manager where
  stored : Settings
  snapshot : Snapshot
  deriving DecidableEq, Repr

/-- A manager that has loaded the rows. -/
def Manager.load (stored : Settings) : Manager := ⟨stored, parseSnapshot stored⟩

/-- `SaveSettings` and `Reload`. -/
def Manager.save (m : Manager) (updates : List Setting) : Manager :=
  Manager.load (saveSettings m.stored updates)

/-- `Start`.  Zero or less minutes stand for the duration stored. -/
def Manager.start (m : Manager) (now durationMinutes : ℤ) : Except Error Manager :=
  let snap := m.snapshot
  if snap.status = .running then .error .contestAlreadyRunning
  else if snap.status = .paused then .error .contestPaused
  else
    let durSec := if durationMinutes > 0 then int64 (durationMinutes * 60) else snap.durationSeconds
    let endTime := now + duration durSec second
    .ok (m.save [.status .running, .durationSeconds durSec, .startTime (format now),
      .endTime (format endTime), .pausedAt none, .isFrozen false, .freezeOverridden false])

/-- `Pause`, which reads the clock twice: to see whether the contest is running, and to stop it. -/
def Manager.pause (m : Manager) (checked now : ℤ) : Except Error Manager :=
  if (m.snapshot.getState checked).status ≠ .running then .error .contestNotRunning
  else .ok (m.save [.status .paused, .pausedAt (format now)])

/-- The end a resumed contest gets.  The code treats a missing end or pause time in two branches that
compute the same. -/
def Times.resumedEnd (snap : Times) (now : ℤ) : ℤ :=
  match snap.endTime, snap.pausedAt with
  | some endTime, some pausedAt =>
      let pauseDuration := sub now pausedAt
      endTime + if pauseDuration < 0 then 0 else pauseDuration
  | _, _ => now + duration snap.durationSeconds second

/-- `Resume`. -/
def Manager.resume (m : Manager) (now : ℤ) : Except Error Manager :=
  let snap := m.snapshot
  if snap.status ≠ .paused then .error .contestNotPaused
  else .ok (m.save [.status .running, .endTime (format (snap.resumedEnd now)), .pausedAt none])

/-- `Extend`. -/
def Manager.extend (m : Manager) (now minutes : ℤ) : Except Error Manager :=
  if minutes ≤ 0 then .error .minutesNotPositive
  else
    let snap := m.snapshot
    let additionalSec := int64 (minutes * 60)
    let newDurSec := int64 (snap.durationSeconds + additionalSec)
    let newEnd := match snap.endTime with
      | some endTime =>
          let currentEnd := if now > endTime then now else endTime
          [Setting.endTime (format (currentEnd + duration additionalSec second))]
      | none => []
    let reopened := if snap.status = .ended then [Setting.status .running] else []
    .ok (m.save ([.durationSeconds newDurSec] ++ newEnd ++ reopened))

/-- `Freeze`. -/
def Manager.freeze (m : Manager) (now : ℤ) : Manager :=
  m.save [.isFrozen true, .freezeStartTime (format now), .freezeOverridden false]

/-- `Unfreeze`. -/
def Manager.unfreeze (m : Manager) : Manager :=
  m.save [.isFrozen false, .freezeStartTime none, .freezeOverridden true]

/-- `Reset`. -/
def Manager.reset (m : Manager) : Manager :=
  m.save [.status .notStarted, .startTime none, .endTime none, .pausedAt none, .isFrozen false,
    .freezeStartTime none, .freezeOverridden false]

/-- `End`. -/
def Manager.endContest (m : Manager) (now : ℤ) : Manager :=
  m.save [.status .ended, .endTime (format now), .pausedAt none]

/-- The arguments of `UpdateSettings`; `none` is a nil pointer. -/
structure SettingsRequest where
  title : List Char
  durationMinutes : ℤ
  freezeMinutes : ℤ
  requireFullscreen : Option Bool
  minClientVersion : Option (List Char)
  enforceBinaryHash : Option Bool
  authorizedBinaryHashes : Option (List Char)
  downloadEnabled : Option Bool
  deriving DecidableEq, Repr

/-- The part of the updates that concerns the duration. -/
def Times.durationUpdates (snap : Times) (durationMinutes : ℤ) : List Setting :=
  if durationMinutes > 0 then
    let durSec := int64 (durationMinutes * 60)
    let newEnd :=
      if snap.status = .running then
        match snap.endTime, snap.startTime with
        | some endTime, _ =>
            let diffSec := int64 (durSec - snap.durationSeconds)
            [Setting.endTime (format (endTime + duration diffSec second))]
        | none, some startTime => [Setting.endTime (format (startTime + duration durSec second))]
        | none, none => []
      else []
    [.durationSeconds durSec] ++ newEnd
  else []

/-- The rest of the updates. -/
def SettingsRequest.otherUpdates (req : SettingsRequest) : List Setting :=
  (if trimSpace req.title ≠ [] then [Setting.title (trimSpace req.title)] else []) ++
  (if req.freezeMinutes ≥ 0 then [Setting.freezeMinutes req.freezeMinutes] else []) ++
  (req.requireFullscreen.map Setting.requireFullscreen).toList ++
  ((req.minClientVersion.filter fun v => trimSpace v ≠ []).map fun v =>
    Setting.minClientVersion (trimSpace v)).toList ++
  (req.enforceBinaryHash.map Setting.enforceBinaryHash).toList ++
  (req.authorizedBinaryHashes.map fun v => Setting.authorizedBinaryHashes (trimSpace v)).toList ++
  (req.downloadEnabled.map Setting.downloadEnabled).toList

/-- `UpdateSettings`. -/
def Manager.updateSettings (m : Manager) (req : SettingsRequest) : Manager :=
  let updates := m.snapshot.durationUpdates req.durationMinutes ++ req.otherUpdates
  if updates = [] then m else m.save updates

/-! ## Runs -/

inductive Op
  | start (durationMinutes : ℤ)
  | pause (checked : ℤ)
  | resume
  | extend (minutes : ℤ)
  | freeze
  | unfreeze
  | reset
  | endContest
  | updateSettings (req : SettingsRequest)
  deriving DecidableEq, Repr

/-- The operation at an instant. -/
def Manager.apply (m : Manager) (now : ℤ) : Op → Except Error Manager
  | .start durationMinutes => m.start now durationMinutes
  | .pause checked => m.pause checked now
  | .resume => m.resume now
  | .extend minutes => m.extend now minutes
  | .freeze => .ok (m.freeze now)
  | .unfreeze => .ok m.unfreeze
  | .reset => .ok m.reset
  | .endContest => .ok (m.endContest now)
  | .updateSettings req => .ok (m.updateSettings req)

/-- The same, where a refusal leaves everything as it is. -/
def Manager.step (m : Manager) (now : ℤ) (op : Op) : Manager :=
  match m.apply now op with
  | .ok m' => m'
  | .error _ => m

/-- Operations one after the other, each at its instant. -/
def Manager.run (m : Manager) (events : List (ℤ × Op)) : Manager :=
  events.foldl (fun m e => m.step e.1 e.2) m

/-! ## What an operation does to the clock -/

/-- An instant, written and read again. -/
def stamp (t : ℤ) : Option ℤ := parse (format t)

/-- The duration `Start` uses. -/
def Times.startDuration (c : Times) (durationMinutes : ℤ) : ℤ :=
  if durationMinutes > 0 then int64 (durationMinutes * 60) else c.durationSeconds

/-- The end `Extend` gives a contest that has one. -/
def Times.extendedEnd (c : Times) (now minutes : ℤ) : Option ℤ :=
  c.endTime.bind fun endTime =>
    stamp ((if now > endTime then now else endTime) + duration (int64 (minutes * 60)) second)

/-- The end after `UpdateSettings` with a new duration. -/
def Times.updatedEnd (c : Times) (durationMinutes : ℤ) : Option ℤ :=
  let durSec := int64 (durationMinutes * 60)
  if c.status = .running then
    match c.endTime, c.startTime with
    | some endTime, _ =>
        stamp (endTime + duration (int64 (durSec - c.durationSeconds)) second)
    | none, some startTime => stamp (startTime + duration durSec second)
    | none, none => none
  else c.endTime

/-- The clock after an operation that is not refused. -/
def Times.next (c : Times) (now : ℤ) : Op → Times
  | .start durationMinutes =>
      { status := .running
        startTime := stamp now
        endTime := stamp (now + duration (c.startDuration durationMinutes) second)
        durationSeconds := parseDuration (some (c.startDuration durationMinutes))
        pausedAt := none }
  | .pause _ => { c with status := .paused, pausedAt := stamp now }
  | .resume => { c with status := .running, endTime := stamp (c.resumedEnd now), pausedAt := none }
  | .extend minutes =>
      { c with
        status := if c.status = .ended then .running else c.status
        endTime := c.extendedEnd now minutes
        durationSeconds := parseDuration (some (int64 (c.durationSeconds + int64 (minutes * 60)))) }
  | .freeze => c
  | .unfreeze => c
  | .reset =>
      { c with status := .notStarted, startTime := none, endTime := none, pausedAt := none }
  | .endContest => { c with status := .ended, endTime := stamp now, pausedAt := none }
  | .updateSettings req =>
      if req.durationMinutes > 0 then
        { c with
          endTime := c.updatedEnd req.durationMinutes
          durationSeconds := parseDuration (some (int64 (req.durationMinutes * 60))) }
      else c

/-- The operation is not refused. -/
def Times.Accepts (c : Times) : Op → Prop
  | .start _ => c.status ≠ .running ∧ c.status ≠ .paused
  | .pause checked => (c.progress checked).1 = .running
  | .resume => c.status = .paused
  | .extend minutes => 0 < minutes
  | _ => True

instance (c : Times) (op : Op) : Decidable (c.Accepts op) := by
  cases op <;> unfold Times.Accepts <;> infer_instance

/-- The settings the clock does not read. -/
def Setting.AsideFromTimes : Setting → Prop
  | .status _ | .startTime _ | .endTime _ | .durationSeconds _ | .pausedAt _ => False
  | _ => True

lemma times_save_aside {stored : Settings} {u : Setting} (h : u.AsideFromTimes) :
    (parseSnapshot (stored.save u)).toTimes = (parseSnapshot stored).toTimes := by
  cases u <;> first | exact h.elim | rfl

/-- Saving such settings leaves the clock alone. -/
lemma times_saveSettings_aside {updates : List Setting} (h : ∀ u ∈ updates, u.AsideFromTimes)
    (stored : Settings) :
    (parseSnapshot (saveSettings stored updates)).toTimes = (parseSnapshot stored).toTimes := by
  induction updates generalizing stored with
  | nil => rfl
  | cons u updates ih =>
      have hrest : ∀ u ∈ updates, u.AsideFromTimes := fun u hu => h u (List.mem_cons_of_mem _ hu)
      exact (ih hrest _).trans (times_save_aside (h u List.mem_cons_self))

lemma SettingsRequest.otherUpdates_aside (req : SettingsRequest) :
    ∀ u ∈ req.otherUpdates, u.AsideFromTimes := by
  intro u hu
  simp only [otherUpdates, List.mem_append, Option.mem_toList, Option.map_eq_some_iff,
    List.mem_ite_nil_right, List.mem_singleton] at hu
  rcases hu with (((((⟨-, rfl⟩ | ⟨-, rfl⟩) | ⟨v, -, rfl⟩) | ⟨v, -, rfl⟩) | ⟨v, -, rfl⟩) | ⟨v, -, rfl⟩) |
    ⟨v, -, rfl⟩ <;> trivial

/-- A manager that has loaded its rows, with the times they say. -/
def Manager.Has (m : Manager) (c : Times) : Prop :=
  ∃ stored, m = Manager.load stored ∧ (parseSnapshot stored).toTimes = c

lemma Manager.Has.times {m : Manager} {c : Times} (h : m.Has c) : m.snapshot.toTimes = c := by
  obtain ⟨stored, rfl, hc⟩ := h
  exact hc

lemma Manager.Has.save {stored : Settings} {updates : List Setting} {c : Times}
    (h : (parseSnapshot (saveSettings stored updates)).toTimes = c) :
    ((Manager.load stored).save updates).Has c :=
  ⟨_, rfl, h⟩

section Apply

variable {m : Manager} {c : Times}

lemma start_eq (h : m.Has c) (now durationMinutes : ℤ) (hacc : c.Accepts (.start durationMinutes)) :
    ∃ m', m.start now durationMinutes = .ok m' ∧ m'.Has (c.next now (.start durationMinutes)) := by
  obtain ⟨stored, rfl, rfl⟩ := h
  exact ⟨_, (if_neg hacc.1).trans (if_neg hacc.2), .save rfl⟩

lemma pause_eq (h : m.Has c) (now checked : ℤ) (hacc : c.Accepts (.pause checked)) :
    ∃ m', m.pause checked now = .ok m' ∧ m'.Has (c.next now (.pause checked)) := by
  obtain ⟨stored, rfl, rfl⟩ := h
  exact ⟨_, if_neg (not_not_intro hacc), .save rfl⟩

lemma resume_eq (h : m.Has c) (now : ℤ) (hacc : c.Accepts .resume) :
    ∃ m', m.resume now = .ok m' ∧ m'.Has (c.next now .resume) := by
  obtain ⟨stored, rfl, rfl⟩ := h
  exact ⟨_, if_neg (not_not_intro hacc), .save rfl⟩

lemma extend_eq (h : m.Has c) (now minutes : ℤ) (hacc : c.Accepts (.extend minutes)) :
    ∃ m', m.extend now minutes = .ok m' ∧ m'.Has (c.next now (.extend minutes)) := by
  obtain ⟨stored, rfl, rfl⟩ := h
  refine ⟨_, if_neg (not_le.mpr hacc), .save ?_⟩
  have hstored : (Manager.load stored).stored = stored := rfl
  cases hend : parseTime stored.endTime with
  | none =>
      by_cases hstatus : stored.status.getD .notStarted = .ended <;>
        simp [Manager.load, saveSettings, Settings.save, parseSnapshot, Times.next,
          Times.extendedEnd, hend, hstatus]
  | some endTime =>
      by_cases hstatus : stored.status.getD .notStarted = .ended <;>
        simp [Manager.load, saveSettings, Settings.save, parseSnapshot, Times.next,
          Times.extendedEnd, stamp, hend, hstatus]

/-- The updates of the duration, made to the times. -/
lemma durationUpdates_eq (stored : Settings) (now : ℤ) (req : SettingsRequest) :
    (parseSnapshot (saveSettings stored
      ((parseSnapshot stored).durationUpdates req.durationMinutes))).toTimes =
      (parseSnapshot stored).next now (.updateSettings req) := by
  by_cases hpos : req.durationMinutes > 0
  · by_cases hrun : stored.status.getD .notStarted = .running
    · cases hend : parseTime stored.endTime <;> cases hstart : parseTime stored.startTime <;>
        simp [saveSettings, Settings.save, parseSnapshot, Times.next, Times.updatedEnd,
          Times.durationUpdates, stamp, hpos, hrun, hend, hstart]
    · simp [saveSettings, Settings.save, parseSnapshot, Times.next, Times.updatedEnd,
        Times.durationUpdates, hpos, hrun]
  · simp [saveSettings, Times.next, Times.durationUpdates, hpos]

lemma updateSettings_eq (h : m.Has c) (now : ℤ) (req : SettingsRequest) :
    (m.updateSettings req).Has (c.next now (.updateSettings req)) := by
  obtain ⟨stored, rfl, rfl⟩ := h
  -- without updates the rows are those that were loaded
  have hsave : (Manager.load stored).updateSettings req = (Manager.load stored).save
      ((parseSnapshot stored).durationUpdates req.durationMinutes ++ req.otherUpdates) := by
    refine ite_eq_right_iff.mpr fun hnone => ?_
    rw [hnone]
    rfl
  rw [hsave]
  refine .save ?_
  rw [saveSettings_append, times_saveSettings_aside req.otherUpdates_aside]
  exact durationUpdates_eq stored now req

/-- **An operation that is not refused leads to the next times.** -/
theorem apply_eq (h : m.Has c) (now : ℤ) (op : Op) (hacc : c.Accepts op) :
    ∃ m', m.apply now op = .ok m' ∧ m'.Has (c.next now op) := by
  cases op with
  | start durationMinutes => exact start_eq h now durationMinutes hacc
  | pause checked => exact pause_eq h now checked hacc
  | resume => exact resume_eq h now hacc
  | extend minutes => exact extend_eq h now minutes hacc
  | updateSettings req => exact ⟨_, rfl, updateSettings_eq h now req⟩
  | freeze | unfreeze | reset | endContest =>
      obtain ⟨stored, rfl, rfl⟩ := h
      exact ⟨_, rfl, .save rfl⟩

/-- The others are refused. -/
theorem apply_error (h : m.Has c) (now : ℤ) (op : Op) (hacc : ¬ c.Accepts op) :
    ∃ err, m.apply now op = .error err := by
  obtain ⟨stored, rfl, rfl⟩ := h
  cases op with
  | start durationMinutes =>
      by_cases hrun : (Manager.load stored).snapshot.status = .running
      · exact ⟨_, if_pos hrun⟩
      · have hpaused : (Manager.load stored).snapshot.status = .paused :=
          not_not.mp fun hne => hacc ⟨hrun, hne⟩
        exact ⟨_, (if_neg hrun).trans (if_pos hpaused)⟩
  | pause checked => exact ⟨_, if_pos hacc⟩
  | resume => exact ⟨_, if_pos hacc⟩
  | extend minutes => exact ⟨_, if_pos (not_lt.mp hacc)⟩
  | freeze | unfreeze | reset | endContest | updateSettings _ => exact absurd trivial hacc

/-- The times after an operation, refused or not. -/
def Times.step (c : Times) (now : ℤ) (op : Op) : Times :=
  if c.Accepts op then c.next now op else c

lemma Manager.Has.step (h : m.Has c) (now : ℤ) (op : Op) : (m.step now op).Has (c.step now op) := by
  unfold Manager.step Times.step
  split_ifs with hacc
  · obtain ⟨m', hm', hhas⟩ := apply_eq h now op hacc
    rwa [hm']
  · obtain ⟨err, herr⟩ := apply_error h now op hacc
    rwa [herr]

lemma Manager.Has.step_of_accepts (h : m.Has c) (now : ℤ) {op : Op} (hacc : c.Accepts op) :
    (m.step now op).Has (c.next now op) := by
  have hstep := h.step now op
  rwa [Times.step, if_pos hacc] at hstep

/-- The times after a run. -/
def Times.run (c : Times) (events : List (ℤ × Op)) : Times :=
  events.foldl (fun c e => c.step e.1 e.2) c

/-- A manager keeps to the run of its times. -/
lemma Manager.Has.run (h : m.Has c) (events : List (ℤ × Op)) : (m.run events).Has (c.run events) := by
  induction events generalizing m c with
  | nil => exact h
  | cons e events ih => exact ih (h.step e.1 e.2)

end Apply

end Clock

end Labyrithm
