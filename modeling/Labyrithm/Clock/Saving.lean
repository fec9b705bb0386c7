import Mathlib.Data.List.TakeWhile
import Labyrithm.Clock.Manager
import Labyrithm.Sql.Upsert

/-!
# Saving the settings of an operation

`SaveSettings` in `backend/internal/contest/repository.go`: one statement for each entry of a map, in
whatever order the map is visited, until one of them fails.  What was written by then stays written, and
so it does where all are written and the rows cannot be read again.

* `Manager.updates` — the map that an operation saves, `apply_eq_save` that it is this map.
* `saveSettingsIn`, `Manager.applyIn` — the same over a store that fails.
* `applyIn_up` — with a store that does not fail, an operation does what it did.
* **`settings_unchanged_iff`** — when an operation that returns an error leaves the rows as they were.
* `start_half_saved` — a contest that is running, with the times of the one before.
-/

namespace Labyrithm

namespace Clock

open Go

/-! ## Keys -/

inductive Key
  | title
  | status
  | durationSeconds
  | freezeMinutes
  | startTime
  | endTime
  | pausedAt
  | isFrozen
  | freezeOverridden
  | freezeStartTime
  | requireFullscreen
  | minClientVersion
  | enforceBinaryHash
  | authorizedBinaryHashes
  | downloadEnabled
  deriving DecidableEq, Repr

def Key.text : Key → String
  | title => "contest.title"
  | status => "contest.status"
  | durationSeconds => "contest.duration_seconds"
  | freezeMinutes => "contest.freeze_minutes"
  | startTime => "contest.start_time"
  | endTime => "contest.end_time"
  | pausedAt => "contest.paused_at"
  | isFrozen => "contest.is_frozen"
  | freezeOverridden => "contest.freeze_overridden"
  | freezeStartTime => "contest.freeze_start_time"
  | requireFullscreen => "proctor.require_fullscreen"
  | minClientVersion => "proctor.min_client_version"
  | enforceBinaryHash => "proctor.enforce_binary_hash"
  | authorizedBinaryHashes => "proctor.authorized_binary_hashes"
  | downloadEnabled => "download.enabled"

def Setting.key : Setting → Key
  | title _ => .title
  | status _ => .status
  | durationSeconds _ => .durationSeconds
  | freezeMinutes _ => .freezeMinutes
  | startTime _ => .startTime
  | endTime _ => .endTime
  | pausedAt _ => .pausedAt
  | isFrozen _ => .isFrozen
  | freezeOverridden _ => .freezeOverridden
  | freezeStartTime _ => .freezeStartTime
  | requireFullscreen _ => .requireFullscreen
  | minClientVersion _ => .minClientVersion
  | enforceBinaryHash _ => .enforceBinaryHash
  | authorizedBinaryHashes _ => .authorizedBinaryHashes
  | downloadEnabled _ => .downloadEnabled

/-- The rows are written by their keys. -/
def settings : Sql.Upsert Settings Setting Key where
  key := Setting.key
  save := Settings.save
  comm {u v} h stored := by
    cases u <;> cases v <;> first | rfl | exact absurd rfl h
  last {u v} h stored := by
    cases u <;> cases v <;> first | (cases h; done) | rfl

/-- The row of an update has its value already. -/
def Settings.Has (stored : Settings) : Setting → Prop
  | .title value => stored.title = some value
  | .status value => stored.status = some value
  | .durationSeconds value => stored.durationSeconds = some value
  | .freezeMinutes value => stored.freezeMinutes = some value
  | .startTime value => stored.startTime = value
  | .endTime value => stored.endTime = value
  | .pausedAt value => stored.pausedAt = value
  | .isFrozen value => stored.isFrozen = some value
  | .freezeOverridden value => stored.freezeOverridden = some value
  | .freezeStartTime value => stored.freezeStartTime = value
  | .requireFullscreen value => stored.requireFullscreen = some value
  | .minClientVersion value => stored.minClientVersion = some value
  | .enforceBinaryHash value => stored.enforceBinaryHash = some value
  | .authorizedBinaryHashes value => stored.authorizedBinaryHashes = some value
  | .downloadEnabled value => stored.downloadEnabled = some value

instance (stored : Settings) (u : Setting) : Decidable (stored.Has u) := by
  cases u <;> unfold Settings.Has <;> infer_instance

lemma save_eq_self_iff {stored : Settings} {u : Setting} : stored.save u = stored ↔ stored.Has u := by
  obtain ⟨⟩ := stored
  cases u <;> simp [Settings.save, Settings.Has, eq_comm]

/-! ## What an operation saves -/

/-- The map of updates that an operation makes of the snapshot, at an instant. -/
def Snapshot.updates (snap : Snapshot) (now : ℤ) : Op → Except Error (List Setting)
  | .start durationMinutes =>
      if snap.status = .running then .error .contestAlreadyRunning
      else if snap.status = .paused then .error .contestPaused
      else
        let durSec := snap.startDuration durationMinutes
        .ok [.status .running, .durationSeconds durSec, .startTime (format now),
          .endTime (format (now + duration durSec second)), .pausedAt none, .isFrozen false,
          .freezeOverridden false]
  | .pause checked =>
      if (snap.getState checked).status ≠ .running then .error .contestNotRunning
      else .ok [.status .paused, .pausedAt (format now)]
  | .resume =>
      if snap.status ≠ .paused then .error .contestNotPaused
      else .ok [.status .running, .endTime (format (snap.resumedEnd now)), .pausedAt none]
  | .extend minutes =>
      if minutes ≤ 0 then .error .minutesNotPositive
      else
        let additionalSec := int64 (minutes * 60)
        let newEnd := (snap.endTime.map fun endTime =>
          let currentEnd := if now > endTime then now else endTime
          Setting.endTime (format (currentEnd + duration additionalSec second))).toList
        let reopened := if snap.status = .ended then [Setting.status .running] else []
        .ok ([.durationSeconds (int64 (snap.durationSeconds + additionalSec))] ++ newEnd ++ reopened)
  | .freeze => .ok [.isFrozen true, .freezeStartTime (format now), .freezeOverridden false]
  | .unfreeze => .ok [.isFrozen false, .freezeStartTime none, .freezeOverridden true]
  | .reset => .ok [.status .notStarted, .startTime none, .endTime none, .pausedAt none,
      .isFrozen false, .freezeStartTime none, .freezeOverridden false]
  | .endContest => .ok [.status .ended, .endTime (format now), .pausedAt none]
  | .updateSettings req => .ok (snap.durationUpdates req.durationMinutes ++ req.otherUpdates)

/-- `SaveSettings` and `Reload`; nothing is done where there is nothing to save. -/
def Manager.commit (m : Manager) (updates : List Setting) : Manager :=
  if updates = [] then m else m.save updates

lemma commit_of_ne_nil {m : Manager} {updates : List Setting} (h : updates ≠ []) :
    m.commit updates = m.save updates := if_neg h

/-- An operation saves its map of updates. -/
lemma apply_eq_commit (m : Manager) (now : ℤ) (op : Op) :
    m.apply now op = (m.snapshot.updates now op).map m.commit := by
  cases op with
  | start durationMinutes =>
      simp only [Manager.apply, Manager.start, Snapshot.updates]
      by_cases hrun : m.snapshot.status = .running
      · rw [if_pos hrun, if_pos hrun]
        rfl
      · by_cases hpaused : m.snapshot.status = .paused
        · rw [if_neg hrun, if_neg hrun, if_pos hpaused, if_pos hpaused]
          rfl
        · rw [if_neg hrun, if_neg hrun, if_neg hpaused, if_neg hpaused]
          rfl
  | pause checked =>
      simp only [Manager.apply, Manager.pause, Snapshot.updates]
      split_ifs <;> rfl
  | resume =>
      simp only [Manager.apply, Manager.resume, Snapshot.updates]
      split_ifs <;> rfl
  | extend minutes =>
      simp only [Manager.apply, Manager.extend, Snapshot.updates]
      by_cases hneg : minutes ≤ 0
      · rw [if_pos hneg, if_pos hneg]
        rfl
      · rw [if_neg hneg, if_neg hneg]
        cases hend : m.snapshot.endTime <;> exact congrArg Except.ok (commit_of_ne_nil (by simp)).symm
  | freeze | unfreeze | reset | endContest | updateSettings req => rfl

/-- The keys of the updates of `UpdateSettings`, where all are made. -/
def updateKeys : List Key :=
  ([Key.durationSeconds] ++ [Key.endTime]) ++ ([Key.title] ++ [Key.freezeMinutes] ++
    [Key.requireFullscreen] ++ [Key.minClientVersion] ++ [Key.enforceBinaryHash] ++
    [Key.authorizedBinaryHashes] ++ [Key.downloadEnabled])

lemma sublist_of_ite {p : Prop} [Decidable p] (u : Setting) :
    ((if p then [u] else []).map Setting.key).Sublist [u.key] := by
  split_ifs
  · exact .refl _
  · exact List.nil_sublist _

lemma sublist_of_option {β : Type} {k : Key} (o : Option β) {f : β → Setting}
    (hf : ∀ v, (f v).key = k) : ((o.map f).toList.map Setting.key).Sublist [k] := by
  cases o with
  | none => exact List.nil_sublist _
  | some v => simp [hf]

lemma durationUpdates_keys (snap : Times) (durationMinutes : ℤ) :
    ((snap.durationUpdates durationMinutes).map Setting.key).Sublist
      ([Key.durationSeconds] ++ [Key.endTime]) := by
  unfold Times.durationUpdates
  dsimp only
  split_ifs
  · rw [List.map_append]
    refine (List.Sublist.refl _).append ?_
    cases snap.endTime with
    | some endTime => exact .refl _
    | none =>
        cases snap.startTime with
        | some startTime => exact .refl _
        | none => exact List.nil_sublist _
  · exact (List.Sublist.refl _).trans (List.sublist_append_left _ _)
  · exact List.nil_sublist _

lemma otherUpdates_keys (req : SettingsRequest) :
    (req.otherUpdates.map Setting.key).Sublist ([Key.title] ++ [Key.freezeMinutes] ++
      [Key.requireFullscreen] ++ [Key.minClientVersion] ++ [Key.enforceBinaryHash] ++
      [Key.authorizedBinaryHashes] ++ [Key.downloadEnabled]) := by
  simp only [SettingsRequest.otherUpdates, List.map_append]
  refine (((((List.Sublist.append ?_ ?_).append ?_).append ?_).append ?_).append ?_).append ?_
  · exact sublist_of_ite (.title _)
  · exact sublist_of_ite (.freezeMinutes _)
  all_goals exact sublist_of_option _ fun _ => rfl

/-- A map has a key once. -/
lemma nodup_updates {snap : Snapshot} {now : ℤ} {op : Op} {updates : List Setting}
    (h : snap.updates now op = .ok updates) : (updates.map Setting.key).Nodup := by
  cases op with
  | start durationMinutes =>
      simp only [Snapshot.updates] at h
      split_ifs at h
      obtain rfl := Except.ok.inj h
      simp [Setting.key]
  | pause checked =>
      simp only [Snapshot.updates] at h
      split_ifs at h
      obtain rfl := Except.ok.inj h
      simp [Setting.key]
  | resume =>
      simp only [Snapshot.updates] at h
      split_ifs at h
      obtain rfl := Except.ok.inj h
      simp [Setting.key]
  | extend minutes =>
      simp only [Snapshot.updates] at h
      split_ifs at h with _ hended
      all_goals
        obtain rfl := Except.ok.inj h
        cases snap.endTime <;> simp [Setting.key]
  | freeze | unfreeze | reset | endContest =>
      obtain rfl := Except.ok.inj h
      simp [Setting.key]
  | updateSettings req =>
      obtain rfl := Except.ok.inj h
      rw [List.map_append]
      have hall : updateKeys.Nodup := by decide
      exact ((durationUpdates_keys _ _).append (otherUpdates_keys req)).nodup hall

/-! ## A store that fails -/

/-- The order in which a map is visited. -/
structure MapOrder where
  order : List Setting → List Setting
  perm : ∀ updates, (order updates).Perm updates

/-- The errors of the statements that fail: of those that save a key, and of `GetSettings`. -/
structure Outage where
  save : Key → Option String
  reload : Option String

/-- A store that does not fail. -/
def up : Outage := ⟨fun _ => none, none⟩

/-- What an operation returns as an error. -/
inductive Failure
  | refused (err : Error)
  | save (key : Key) (cause : String)
  | reload (cause : String)
  deriving DecidableEq, Repr

def Failure.message : Failure → String
  | refused err => err.message
  | save key cause => s!"save contest setting {key.text}: {cause}"
  | reload cause => s!"query contest settings: {cause}"

/-- `SaveSettings`. -/
def saveSettingsIn (down : Key → Option String) : List Setting → Settings → Settings × Option Failure
  | [], stored => (stored, none)
  | u :: updates, stored =>
      match down u.key with
      | some cause => (stored, some (.save u.key cause))
      | none => saveSettingsIn down updates (stored.save u)

/-- An operation on a manager. -/
def Manager.applyIn (m : Manager) (now : ℤ) (op : Op) (visit : MapOrder) (down : Outage) :
    Manager × Option Failure :=
  match m.snapshot.updates now op with
  | .error err => (m, some (.refused err))
  | .ok updates =>
      if updates = [] then (m, none)
      else
        match saveSettingsIn down.save (visit.order updates) m.stored with
        | (stored, some failure) => ({ m with stored := stored }, some failure)
        | (stored, none) =>
            match down.reload with
            | some cause => ({ m with stored := stored }, some (.reload cause))
            | none => (Manager.load stored, none)

/-- The updates that are saved before a statement fails. -/
def saved (down : Key → Option String) (updates : List Setting) : List Setting :=
  updates.takeWhile fun u => (down u.key).isNone

/-- Where a statement fails, what was saved before was there already. -/
def Manager.Spared (m : Manager) (now : ℤ) (op : Op) (visit : MapOrder) (down : Outage) : Prop :=
  match m.snapshot.updates now op with
  | .error _ => True
  | .ok updates =>
      (∃ u ∈ updates, (down.save u.key).isSome) ∨ down.reload.isSome →
        ∀ u ∈ saved down.save (visit.order updates), m.stored.Has u

section Saving

variable {down : Key → Option String} {updates : List Setting} {stored : Settings}

lemma saveSettingsIn_stored (down : Key → Option String) (updates : List Setting) (stored : Settings) :
    (saveSettingsIn down updates stored).1 = saveSettings stored (saved down updates) := by
  induction updates generalizing stored with
  | nil => rfl
  | cons u updates ih =>
      cases hu : down u.key with
      | some cause => simp [saveSettingsIn, saved, saveSettings, hu]
      | none =>
          rw [saveSettingsIn, hu]
          simpa [saved, saveSettings, hu] using ih (stored.save u)

lemma saveSettingsIn_ok_iff :
    (saveSettingsIn down updates stored).2 = none ↔ ∀ u ∈ updates, (down u.key).isNone := by
  induction updates generalizing stored with
  | nil => simp [saveSettingsIn]
  | cons u updates ih =>
      cases hu : down u.key with
      | some cause => simp [saveSettingsIn, hu]
      | none =>
          rw [saveSettingsIn, hu]
          simp [ih, hu]

lemma saved_of_up (h : ∀ u ∈ updates, (down u.key).isNone) : saved down updates = updates := by
  rw [saved, List.takeWhile_eq_self_iff]
  exact h

/-- The order of the map does not matter where all of it is saved. -/
lemma saveSettings_order {snap : Snapshot} {now : ℤ} {op : Op}
    (h : snap.updates now op = .ok updates) (visit : MapOrder) (stored : Settings) :
    saveSettings stored (visit.order updates) = saveSettings stored updates :=
  (settings.saves_perm (nodup_updates h) (visit.perm updates).symm stored).symm

/-- Saving the first of the updates changes nothing if they are there already. -/
lemma saveSettings_saved_iff {snap : Snapshot} {now : ℤ} {op : Op}
    (h : snap.updates now op = .ok updates) (visit : MapOrder) (down : Key → Option String)
    (stored : Settings) :
    saveSettings stored (saved down (visit.order updates)) = stored ↔
      ∀ u ∈ saved down (visit.order updates), stored.Has u := by
  have hnodup : ((visit.order updates).map Setting.key).Nodup :=
    ((visit.perm updates).map _).nodup_iff.mpr (nodup_updates h)
  have hfirst : ((saved down (visit.order updates)).map Setting.key).Nodup :=
    ((List.takeWhile_sublist _).map _).nodup hnodup
  refine (settings.saves_eq_self_iff hfirst).trans ?_
  exact forall₂_congr fun u _ => save_eq_self_iff

end Saving

/-- **With a store that does not fail, an operation does what it did.** -/
theorem applyIn_up (m : Manager) (now : ℤ) (op : Op) (visit : MapOrder) :
    m.applyIn now op visit up =
      match m.apply now op with
      | .ok m' => (m', none)
      | .error err => (m, some (.refused err)) := by
  rw [apply_eq_commit, Manager.applyIn]
  cases hupdates : m.snapshot.updates now op with
  | error err => rfl
  | ok updates =>
      have hdone (us : List Setting) : saveSettingsIn up.save us m.stored = (saveSettings m.stored us, none) := by
        have hok : ∀ u ∈ us, (up.save u.key).isNone := fun _ _ => rfl
        refine Prod.ext ?_ (saveSettingsIn_ok_iff.mpr hok)
        rw [saveSettingsIn_stored, saved_of_up hok]
      simp only [Except.map, Manager.commit, hdone, saveSettings_order hupdates]
      split_ifs <;> rfl

/-- **An operation that returns an error leaves the rows as they were if and only if it is refused, or
what was saved before the failure was there already.** -/
theorem settings_unchanged_iff (m : Manager) (now : ℤ) (op : Op) (visit : MapOrder) (down : Outage) :
    ((m.applyIn now op visit down).2 ≠ none → (m.applyIn now op visit down).1.stored = m.stored) ↔
      m.Spared now op visit down := by
  unfold Manager.applyIn Manager.Spared
  cases hupdates : m.snapshot.updates now op with
  | error err => simp
  | ok updates =>
      simp only
      by_cases hnil : updates = []
      · subst hnil
        have hnone : visit.order [] = [] := List.perm_nil.mp (visit.perm [])
        simp [hnone, saved]
      rw [if_neg hnil]
      have hstored := saveSettingsIn_stored down.save (visit.order updates) m.stored
      have hiff := saveSettings_saved_iff hupdates visit down.save m.stored
      have hfails : (saveSettingsIn down.save (visit.order updates) m.stored).2 ≠ none ↔
          ∃ u ∈ updates, (down.save u.key).isSome := by
        rw [Ne, saveSettingsIn_ok_iff]
        simp [(visit.perm updates).mem_iff, Option.isSome_iff_ne_none]
      rcases hresult : saveSettingsIn down.save (visit.order updates) m.stored with ⟨stored, failure⟩
      rw [hresult] at hstored hfails
      rw [← hfails, ← hiff, ← hstored]
      cases failure with
      | some failure => simp
      | none => cases down.reload <;> simp

/-! ## A contest that is started half -/

/-- The map as it is written down. -/
def MapOrder.written : MapOrder := ⟨fun updates => updates, fun _ => .refl _⟩

/-- Nothing but the status can be saved. -/
def sampleOutage : Outage :=
  ⟨fun key => if key = .status then none else some "conn closed", none⟩

/-- A new contest is started, and is running without an end. -/
theorem start_half_saved :
    let (m, failure) := (Manager.load .migrated).applyIn 0 (.start 60) .written sampleOutage
    failure = some (.save .durationSeconds "conn closed") ∧ m.stored.status = some .running ∧
      m.stored.endTime = none ∧ m.stored ≠ Settings.migrated := by
  decide +kernel

end Clock

end Labyrithm
