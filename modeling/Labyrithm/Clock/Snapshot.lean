import Labyrithm.Go.Seconds
import Labyrithm.Go.Strings

/-!
# The state of the contest

`backend/internal/contest/contest.go` and `Manager.GetState`: the rows of `contest_settings`, the
snapshot a manager makes of them, and what it tells the clients at an instant.

A row is its value, or `none` where there is none; the text of a number, a flag or an instant is what
`strconv` and `time` make of it, and the empty text of an instant counts as no row, as the code
reads it.

* `parseSnapshot` — the rows with the defaults of the code.
* `Snapshot.getState` — the effective status, the times left and elapsed, and the freeze.
* `secondsBetween` — the seconds between two instants.
-/

namespace Labyrithm

namespace Clock

open Go

inductive Status
  | notStarted
  | running
  | paused
  | ended
  deriving DecidableEq, Repr

def defaultTitle : List Char := "New Session".toList

def defaultDurationSeconds : ℤ := 7200

def defaultFreezeMinutes : ℤ := 30

/-! ## The rows -/

/-- The rows `GetSettings` reads, under the last part of their keys. -/
structure Settings where
  title : Option (List Char)
  status : Option Status
  durationSeconds : Option ℤ
  freezeMinutes : Option ℤ
  startTime : Option RFC3339
  endTime : Option RFC3339
  pausedAt : Option RFC3339
  isFrozen : Option Bool
  freezeOverridden : Option Bool
  freezeStartTime : Option RFC3339
  requireFullscreen : Option Bool
  minClientVersion : Option (List Char)
  enforceBinaryHash : Option Bool
  authorizedBinaryHashes : Option (List Char)
  downloadEnabled : Option Bool
  deriving DecidableEq, Repr

/-- The rows of the migrations 0012, 0018 and 0024. -/
def Settings.migrated : Settings where
  title := some defaultTitle
  status := some .notStarted
  durationSeconds := some 7200
  freezeMinutes := some 30
  startTime := none
  endTime := none
  pausedAt := none
  isFrozen := none
  freezeOverridden := none
  freezeStartTime := none
  requireFullscreen := none
  minClientVersion := some "0.2.0".toList
  enforceBinaryHash := some false
  authorizedBinaryHashes := some []
  downloadEnabled := some true

/-! ## The snapshot -/

/-- The fields of `stateSnapshot` that say how far the contest is. -/
structure Times where
  status : Status
  startTime : Option ℤ
  endTime : Option ℤ
  durationSeconds : ℤ
  pausedAt : Option ℤ
  deriving DecidableEq, Repr

/-- `stateSnapshot`. -/
structure Snapshot extends Times where
  title : List Char
  freezeMinutes : ℤ
  isFrozen : Bool
  freezeOverridden : Bool
  freezeStartTime : Option ℤ
  requireFullscreen : Bool
  minClientVersion : List Char
  enforceBinaryHash : Bool
  authorizedBinaryHashes : List Char
  downloadEnabled : Bool
  deriving DecidableEq, Repr

/-- A text that is not blank, trimmed, or the default. -/
def parseText (value : Option (List Char)) (default : List Char) : List Char :=
  match value with
  | some val => if trimSpace val ≠ [] then trimSpace val else default
  | none => default

def parseDuration (value : Option ℤ) : ℤ :=
  match value with
  | some parsed => if parsed > 0 then parsed else defaultDurationSeconds
  | none => defaultDurationSeconds

def parseFreezeMinutes (value : Option ℤ) : ℤ :=
  match value with
  | some parsed => if parsed ≥ 0 then parsed else defaultFreezeMinutes
  | none => defaultFreezeMinutes

def parseTime (value : Option RFC3339) : Option ℤ := value.bind parse

def parseFlag (value : Option Bool) : Bool := value.getD false

def parseSnapshot (values : Settings) : Snapshot where
  title := parseText values.title defaultTitle
  status := values.status.getD .notStarted
  startTime := parseTime values.startTime
  endTime := parseTime values.endTime
  durationSeconds := parseDuration values.durationSeconds
  freezeMinutes := parseFreezeMinutes values.freezeMinutes
  isFrozen := parseFlag values.isFrozen
  freezeOverridden := parseFlag values.freezeOverridden
  freezeStartTime := parseTime values.freezeStartTime
  pausedAt := parseTime values.pausedAt
  requireFullscreen := parseFlag values.requireFullscreen
  minClientVersion := parseText values.minClientVersion "0.2.0".toList
  enforceBinaryHash := parseFlag values.enforceBinaryHash
  authorizedBinaryHashes := trimSpace (values.authorizedBinaryHashes.getD [])
  downloadEnabled := parseFlag values.downloadEnabled

/-- A stored duration is used if it is positive, and the default is positive too. -/
lemma parseDuration_pos (value : Option ℤ) : 0 < parseDuration value := by
  unfold parseDuration
  cases value with
  | none => decide
  | some parsed =>
      dsimp only
      split_ifs with h
      · exact h
      · decide

@[simp] lemma parseDuration_of_pos {d : ℤ} (h : 0 < d) : parseDuration (some d) = d := if_pos h

@[simp] lemma parseTime_none : parseTime none = none := rfl

@[simp] lemma parseTime_some (text : RFC3339) : parseTime (some text) = parse text := rfl

/-! ## What the clients are told -/

/-- `ContestState`. -/
structure ContestState where
  title : List Char
  status : Status
  startTime : Option ℤ
  endTime : Option ℤ
  durationSeconds : ℤ
  freezeMinutes : ℤ
  freezeStartTime : Option ℤ
  pausedAt : Option ℤ
  remainingSeconds : ℤ
  elapsedSeconds : ℤ
  isFrozen : Bool
  requireFullscreen : Bool
  minClientVersion : List Char
  enforceBinaryHash : Bool
  authorizedBinaryHashes : List Char
  downloadEnabled : Bool
  serverTime : ℤ
  deriving DecidableEq, Repr

/-- The seconds from `u` to `t`, zero if there are none. -/
def secondsBetween (u t : ℤ) : ℤ :=
  let elapsed := sub t u
  seconds (if elapsed < 0 then 0 else elapsed)

/-- Where the difference of the instants is not too long for a duration. -/
lemma secondsBetween_eq {u t : ℤ} (h : t - u < 2 ^ 63) : secondsBetween u t = seconds (max 0 (t - u)) := by
  unfold secondsBetween sub
  dsimp only
  congr 1
  split_ifs <;> omega

/-- The effective status with the seconds remaining and elapsed. -/
def Times.progress (snap : Times) (now : ℤ) : Status × ℤ × ℤ :=
  match snap.status with
  | .notStarted => (.notStarted, snap.durationSeconds, 0)
  | .running =>
      match snap.startTime, snap.endTime with
      | some startTime, some endTime =>
          if now > endTime then (.ended, 0, snap.durationSeconds)
          else (.running, secondsBetween now endTime, secondsBetween startTime now)
      | _, _ => (.running, snap.durationSeconds, 0)
  | .paused =>
      match snap.startTime, snap.endTime, snap.pausedAt with
      | some startTime, some endTime, some pausedAt =>
          (.paused, secondsBetween pausedAt endTime, secondsBetween startTime pausedAt)
      | _, _, _ => (.paused, snap.durationSeconds, 0)
  | .ended => (.ended, 0, snap.durationSeconds)

/-- Only a running contest is reported as running. -/
lemma Times.running_of_progress {c : Times} {t : ℤ} (h : (c.progress t).1 = .running) :
    c.status = .running := by
  cases hstatus : c.status with
  | running => rfl
  | notStarted | ended => simp [progress, hstatus] at h
  | paused =>
      simp only [progress, hstatus] at h
      split at h <;> cases h

/-- Only a paused contest is reported as paused. -/
lemma Times.paused_of_progress {c : Times} {t : ℤ} (h : (c.progress t).1 = .paused) :
    c.status = .paused := by
  cases hstatus : c.status with
  | paused => rfl
  | notStarted | ended => simp [progress, hstatus] at h
  | running =>
      simp only [progress, hstatus] at h
      split at h
      · split_ifs at h
      · cases h

/-- The freeze, by hand or because the end is near. -/
def Snapshot.freeze (snap : Snapshot) (now : ℤ) : Bool × Option ℤ :=
  match snap.endTime with
  | some endTime =>
      if !snap.isFrozen && !snap.freezeOverridden && snap.status ≠ .notStarted &&
          snap.freezeMinutes > 0 then
        let autoFreezeThreshold := endTime + duration (-snap.freezeMinutes) minute
        let ref := if snap.status = .paused then snap.pausedAt.getD now else now
        if ref > autoFreezeThreshold then (true, some autoFreezeThreshold)
        else (snap.isFrozen, snap.freezeStartTime)
      else (snap.isFrozen, snap.freezeStartTime)
  | none => (snap.isFrozen, snap.freezeStartTime)

/-- `GetState` at an instant. -/
def Snapshot.getState (snap : Snapshot) (now : ℤ) : ContestState :=
  let (effectiveStatus, remainingSec, elapsedSec) := snap.progress now
  let (isFrozen, freezeStartTime) := snap.freeze now
  { title := snap.title
    status := effectiveStatus
    startTime := snap.startTime
    endTime := snap.endTime
    durationSeconds := snap.durationSeconds
    freezeMinutes := snap.freezeMinutes
    freezeStartTime := freezeStartTime
    pausedAt := snap.pausedAt
    remainingSeconds := remainingSec
    elapsedSeconds := elapsedSec
    isFrozen := isFrozen
    requireFullscreen := snap.requireFullscreen
    minClientVersion := snap.minClientVersion
    enforceBinaryHash := snap.enforceBinaryHash
    authorizedBinaryHashes := snap.authorizedBinaryHashes
    downloadEnabled := snap.downloadEnabled
    serverTime := now }

end Clock

end Labyrithm
