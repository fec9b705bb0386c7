import Labyrithm.Clock.Manager

/-!
# Settings that a request leaves out

`adminUpdateContestSettings` of `backend/internal/api/admin_contest.go` decodes the settings into a
structure in which a title or a number that is not there is the zero value, and the others are nil.
`UpdateSettings` takes a blank title, a duration of zero and nil for nothing, but zero minutes are a window
for the freeze like any other.

* `SettingsPayload` — a request with the fields it has; `Settings.Agree` compares the rows of one field.
* `saveSettings_agree` — rows that no update is about.

**`keepsOmitted_iff`** — in every state a manager comes to, a request leaves alone the fields it does not
have, and what the contest derives from them, if and only if it has the window or none is stored.
-/

namespace Labyrithm

namespace Clock

open Go

/-! ## Requests -/

/-- The fields of `updateContestSettingsRequest`. -/
inductive Field
  | title
  | durationMinutes
  | freezeMinutes
  | requireFullscreen
  | minClientVersion
  | enforceBinaryHash
  | authorizedBinaryHashes
  | downloadEnabled
  deriving DecidableEq, Repr

/-- A request; a field that is `null` is not there. -/
structure SettingsPayload where
  title : Option (List Char)
  durationMinutes : Option ℤ
  freezeMinutes : Option ℤ
  requireFullscreen : Option Bool
  minClientVersion : Option (List Char)
  enforceBinaryHash : Option Bool
  authorizedBinaryHashes : Option (List Char)
  downloadEnabled : Option Bool
  deriving DecidableEq, Repr

namespace SettingsPayload

/-- `updateContestSettingsRequest`, as it is decoded. -/
def request (payload : SettingsPayload) : SettingsRequest where
  title := payload.title.getD []
  durationMinutes := payload.durationMinutes.getD 0
  freezeMinutes := payload.freezeMinutes.getD 0
  requireFullscreen := payload.requireFullscreen
  minClientVersion := payload.minClientVersion
  enforceBinaryHash := payload.enforceBinaryHash
  authorizedBinaryHashes := payload.authorizedBinaryHashes
  downloadEnabled := payload.downloadEnabled

def has (payload : SettingsPayload) : Field → Bool
  | .title => payload.title.isSome
  | .durationMinutes => payload.durationMinutes.isSome
  | .freezeMinutes => payload.freezeMinutes.isSome
  | .requireFullscreen => payload.requireFullscreen.isSome
  | .minClientVersion => payload.minClientVersion.isSome
  | .enforceBinaryHash => payload.enforceBinaryHash.isSome
  | .authorizedBinaryHashes => payload.authorizedBinaryHashes.isSome
  | .downloadEnabled => payload.downloadEnabled.isSome

end SettingsPayload

/-! ## The rows of a field -/

/-- The field that a row belongs to.  An end is written with a duration. -/
def Setting.field : Setting → Option Field
  | .title _ => some .title
  | .durationSeconds _ | .endTime _ => some .durationMinutes
  | .freezeMinutes _ => some .freezeMinutes
  | .requireFullscreen _ => some .requireFullscreen
  | .minClientVersion _ => some .minClientVersion
  | .enforceBinaryHash _ => some .enforceBinaryHash
  | .authorizedBinaryHashes _ => some .authorizedBinaryHashes
  | .downloadEnabled _ => some .downloadEnabled
  | .status _ | .startTime _ | .pausedAt _ | .isFrozen _ | .freezeOverridden _
  | .freezeStartTime _ => none

/-- The rows of a field are the same; those of no field for `none`. -/
def Settings.Agree (stored stored' : Settings) : Option Field → Prop
  | some .title => stored.title = stored'.title
  | some .durationMinutes =>
      stored.durationSeconds = stored'.durationSeconds ∧ stored.endTime = stored'.endTime
  | some .freezeMinutes => stored.freezeMinutes = stored'.freezeMinutes
  | some .requireFullscreen => stored.requireFullscreen = stored'.requireFullscreen
  | some .minClientVersion => stored.minClientVersion = stored'.minClientVersion
  | some .enforceBinaryHash => stored.enforceBinaryHash = stored'.enforceBinaryHash
  | some .authorizedBinaryHashes => stored.authorizedBinaryHashes = stored'.authorizedBinaryHashes
  | some .downloadEnabled => stored.downloadEnabled = stored'.downloadEnabled
  | none =>
      stored.status = stored'.status ∧ stored.startTime = stored'.startTime
        ∧ stored.pausedAt = stored'.pausedAt ∧ stored.isFrozen = stored'.isFrozen
        ∧ stored.freezeOverridden = stored'.freezeOverridden
        ∧ stored.freezeStartTime = stored'.freezeStartTime

/-- What the contest derives from a field is the same, at every instant: from the duration its end and its
progress, from the window the freeze, at the times that the contest has by then. -/
def Snapshot.Behaves (snap snap' : Snapshot) : Field → Prop
  | .title => ∀ t, (snap.getState t).title = (snap'.getState t).title
  | .durationMinutes =>
      snap.durationSeconds = snap'.durationSeconds ∧ snap.endTime = snap'.endTime
        ∧ ∀ t, snap.progress t = snap'.progress t
  | .freezeMinutes =>
      snap.freezeMinutes = snap'.freezeMinutes
        ∧ ∀ t, snap.freeze t = { snap' with toTimes := snap.toTimes }.freeze t
  | .requireFullscreen => ∀ t, (snap.getState t).requireFullscreen = (snap'.getState t).requireFullscreen
  | .minClientVersion => ∀ t, (snap.getState t).minClientVersion = (snap'.getState t).minClientVersion
  | .enforceBinaryHash => ∀ t, (snap.getState t).enforceBinaryHash = (snap'.getState t).enforceBinaryHash
  | .authorizedBinaryHashes =>
      ∀ t, (snap.getState t).authorizedBinaryHashes = (snap'.getState t).authorizedBinaryHashes
  | .downloadEnabled => ∀ t, (snap.getState t).downloadEnabled = (snap'.getState t).downloadEnabled

/-- A request leaves the fields alone that it does not have. -/
def SettingsPayload.KeepsOmitted (payload : SettingsPayload) (m : Manager) : Prop :=
  ∀ f, payload.has f = false →
    (m.updateSettings payload.request).stored.Agree m.stored (some f)
      ∧ (m.updateSettings payload.request).snapshot.Behaves m.snapshot f

/-- It has the window of the freeze, or none is stored. -/
def SettingsPayload.MindsFreeze (payload : SettingsPayload) (m : Manager) : Prop :=
  payload.freezeMinutes = none → m.stored.freezeMinutes = some 0

/-! ## Updates -/

section Updates

variable {stored stored' : Settings} {u : Setting} {us : List Setting} {f : Option Field}
  {payload : SettingsPayload} {snap : Times}

lemma Settings.Agree.refl (stored : Settings) (f : Option Field) : stored.Agree stored f := by
  cases f with
  | none => exact ⟨rfl, rfl, rfl, rfl, rfl, rfl⟩
  | some f => cases f <;> simp [Settings.Agree]

/-- An update is about the rows of its field alone. -/
lemma save_agree (h : u.field ≠ f) (h' : stored.Agree stored' f) : (stored.save u).Agree stored' f := by
  cases f with
  | none => cases u <;> first | exact h' | exact absurd rfl h
  | some f => cases f <;> cases u <;> first | exact h' | exact absurd rfl h

lemma saveSettings_agree (h : ∀ u ∈ us, u.field ≠ f) (h' : stored.Agree stored' f) :
    (saveSettings stored us).Agree stored' f := by
  induction us generalizing stored with
  | nil => exact h'
  | cons u us ih =>
      obtain ⟨hu, hrest⟩ := List.forall_mem_cons.mp h
      exact ih hrest (save_agree hu h')

/-- The updates of a duration are there with one. -/
lemma field_durationUpdates {durationMinutes : Option ℤ}
    (hu : u ∈ snap.durationUpdates (durationMinutes.getD 0)) :
    u.field = some .durationMinutes ∧ durationMinutes.isSome := by
  unfold Times.durationUpdates at hu
  cases durationMinutes with
  | none => simp at hu
  | some minutes =>
      refine ⟨?_, rfl⟩
      split_ifs at hu with hpos hrun
      · obtain hu | hu := List.mem_append.mp hu
        · obtain rfl := List.mem_singleton.mp hu
          rfl
        · cases hend : snap.endTime <;> cases hstart : snap.startTime <;> simp [hend, hstart] at hu <;>
            rw [hu] <;> rfl
      · obtain rfl := List.mem_singleton.mp hu
        rfl
      · cases hu

/-- The other updates are there with their fields, apart from the window. -/
lemma field_otherUpdates (hu : u ∈ payload.request.otherUpdates) :
    (∃ f, u.field = some f ∧ payload.has f = true) ∨ u.field = some .freezeMinutes := by
  simp only [SettingsRequest.otherUpdates, List.mem_append, Option.mem_toList,
    Option.map_eq_some_iff, List.mem_ite_nil_right, List.mem_singleton] at hu
  rcases hu with (((((⟨hne, rfl⟩ | ⟨-, rfl⟩) | ⟨v, hv, rfl⟩) | ⟨v, hv, rfl⟩) | ⟨v, hv, rfl⟩) | ⟨v, hv, rfl⟩)
    | ⟨v, hv, rfl⟩
  · refine .inl ⟨.title, rfl, ?_⟩
    cases htitle : payload.title with
    | none =>
        rw [SettingsPayload.request, htitle] at hne
        exact absurd rfl hne
    | some title => simp [SettingsPayload.has, htitle]
  · exact .inr rfl
  · exact .inl ⟨.requireFullscreen, rfl, Option.isSome_of_eq_some hv⟩
  · exact .inl ⟨.minClientVersion, rfl, Option.isSome_of_eq_some (Option.filter_eq_some_iff.mp hv).1⟩
  · exact .inl ⟨.enforceBinaryHash, rfl, Option.isSome_of_eq_some hv⟩
  · exact .inl ⟨.authorizedBinaryHashes, rfl, Option.isSome_of_eq_some hv⟩
  · exact .inl ⟨.downloadEnabled, rfl, Option.isSome_of_eq_some hv⟩

/-- All updates of a request. -/
def SettingsPayload.updates (payload : SettingsPayload) (stored : Settings) : List Setting :=
  (parseSnapshot stored).durationUpdates payload.request.durationMinutes ++ payload.request.otherUpdates

lemma field_updates (hu : u ∈ payload.updates stored) :
    (∃ f, u.field = some f ∧ payload.has f = true) ∨ u.field = some .freezeMinutes := by
  obtain hu | hu := List.mem_append.mp hu
  · obtain ⟨hfield, hsome⟩ := field_durationUpdates hu
    exact .inl ⟨.durationMinutes, hfield, hsome⟩
  · exact field_otherUpdates hu

/-- Without updates the rows are those that were loaded. -/
lemma updateSettings_load (stored : Settings) (payload : SettingsPayload) :
    (Manager.load stored).updateSettings payload.request
      = Manager.load (saveSettings stored (payload.updates stored)) := by
  refine ite_eq_right_iff.mpr fun hnone => ?_
  have hnil : payload.updates stored = [] := hnone
  show Manager.load stored = Manager.load (saveSettings stored (payload.updates stored))
  rw [hnil]
  rfl

/-- The rows of no field, and those of a field that is not there, but for the window. -/
lemma agree_updates (hf : f ≠ some .freezeMinutes) (homitted : ∀ g, f = some g → payload.has g = false) :
    (saveSettings stored (payload.updates stored)).Agree stored f := by
  refine saveSettings_agree (fun u hu heq => ?_) (.refl stored f)
  obtain ⟨g, hg, hhas⟩ | hg := field_updates hu
  · rw [homitted g (heq.symm.trans hg)] at hhas
    cases hhas
  · exact hf (heq.symm.trans hg)

/-- A window of zero is stored by updates that have it, and no other one. -/
lemma saveSettings_freezeMinutes
    (h : stored.freezeMinutes = some 0 ∨ Setting.freezeMinutes 0 ∈ us)
    (hall : ∀ u ∈ us, u.field = some .freezeMinutes → u = .freezeMinutes 0) :
    (saveSettings stored us).freezeMinutes = some 0 := by
  induction us generalizing stored with
  | nil => exact h.resolve_right List.not_mem_nil
  | cons u us ih =>
      obtain ⟨hu, hrest⟩ := List.forall_mem_cons.mp hall
      refine ih ?_ hrest
      by_cases hfield : u.field = some .freezeMinutes
      · rw [hu hfield]
        exact .inl rfl
      · have hkeep : (stored.save u).freezeMinutes = stored.freezeMinutes :=
          save_agree hfield (.refl stored (some .freezeMinutes))
        obtain h | h := h
        · exact .inl (hkeep.trans h)
        · obtain heq | h := List.mem_cons.mp h
          · exact absurd (heq ▸ rfl) hfield
          · exact .inr h

/-- Without a window, zero is stored. -/
lemma freezeMinutes_updates (homitted : payload.freezeMinutes = none) :
    (saveSettings stored (payload.updates stored)).freezeMinutes = some 0 := by
  have hzero : payload.request.freezeMinutes = 0 := by
    rw [SettingsPayload.request, homitted]
    rfl
  refine saveSettings_freezeMinutes (.inr (List.mem_append_right _ ?_)) fun u hu hfield => ?_
  · simp [SettingsRequest.otherUpdates, hzero]
  · obtain hu | hu := List.mem_append.mp hu
    · rw [(field_durationUpdates hu).1] at hfield
      cases hfield
    · simp only [SettingsRequest.otherUpdates, List.mem_append, Option.mem_toList,
        Option.map_eq_some_iff, List.mem_ite_nil_right, List.mem_singleton] at hu
      rcases hu with (((((⟨-, rfl⟩ | ⟨-, rfl⟩) | ⟨v, -, rfl⟩) | ⟨v, -, rfl⟩) | ⟨v, -, rfl⟩) |
        ⟨v, -, rfl⟩) | ⟨v, -, rfl⟩
      case inl.inl.inl.inl.inl.inr => rw [hzero]
      all_goals cases hfield

/-- What is derived from a field follows its rows and those of no field. -/
lemma behaves_of_agree {g : Field} (hfield : stored.Agree stored' (some g))
    (hnone : stored.Agree stored' none) :
    (parseSnapshot stored).Behaves (parseSnapshot stored') g := by
  obtain ⟨hstatus, hstart, hpaused, hfrozen, hoverridden, hfreezeStart⟩ := hnone
  cases g with
  | title => exact fun t => congrArg (fun v => parseText v defaultTitle) hfield
  | durationMinutes =>
      have htimes : (parseSnapshot stored).toTimes = (parseSnapshot stored').toTimes := by
        simp only [parseSnapshot, hfield.1, hfield.2, hstatus, hstart, hpaused]
      exact ⟨congrArg Times.durationSeconds htimes, congrArg Times.endTime htimes,
        fun t => congrArg (fun c => c.progress t) htimes⟩
  | freezeMinutes =>
      have hwindow : (parseSnapshot stored).freezeMinutes = (parseSnapshot stored').freezeMinutes :=
        congrArg parseFreezeMinutes hfield
      have hfreeze : parseSnapshot stored
          = { parseSnapshot stored with
              freezeMinutes := (parseSnapshot stored').freezeMinutes
              isFrozen := (parseSnapshot stored').isFrozen
              freezeOverridden := (parseSnapshot stored').freezeOverridden
              freezeStartTime := (parseSnapshot stored').freezeStartTime } := by
        rw [← hwindow]
        simp only [parseSnapshot, hfrozen, hoverridden, hfreezeStart]
      refine ⟨hwindow, fun t => ?_⟩
      rw [hfreeze]
      rfl
  | requireFullscreen => exact fun t => congrArg parseFlag hfield
  | minClientVersion => exact fun t => congrArg (fun v => parseText v "0.2.0".toList) hfield
  | enforceBinaryHash => exact fun t => congrArg parseFlag hfield
  | authorizedBinaryHashes =>
      exact fun t => congrArg (fun v : Option (List Char) => trimSpace (v.getD [])) hfield
  | downloadEnabled => exact fun t => congrArg parseFlag hfield

lemma keepsOmitted_load :
    payload.KeepsOmitted (Manager.load stored) ↔ payload.MindsFreeze (Manager.load stored) := by
  unfold SettingsPayload.KeepsOmitted SettingsPayload.MindsFreeze
  rw [updateSettings_load]
  constructor
  · intro h homitted
    have hagree := (h .freezeMinutes (by simp [SettingsPayload.has, homitted])).1
    exact hagree.symm.trans (freezeMinutes_updates homitted)
  · intro h g hg
    have hfield : (saveSettings stored (payload.updates stored)).Agree stored (some g) := by
      by_cases hfreeze : g = .freezeMinutes
      · subst hfreeze
        have homitted : payload.freezeMinutes = none := by simpa [SettingsPayload.has] using hg
        exact (freezeMinutes_updates homitted).trans (h homitted).symm
      · exact agree_updates (fun heq => hfreeze (Option.some.inj heq))
          fun g' hg' => Option.some.inj hg' ▸ hg
    have hnone : (saveSettings stored (payload.updates stored)).Agree stored none :=
      agree_updates (by simp) (by simp)
    exact ⟨hfield, behaves_of_agree hfield hnone⟩

end Updates

/-! ## Reachable states -/

/-- **A request leaves alone the fields it does not have**, and what is derived from them, in every state
that a manager comes to, exactly where it has the window of the freeze or none is stored. -/
theorem keepsOmitted_iff (stored : Settings) (events : List (ℤ × Op)) (payload : SettingsPayload) :
    payload.KeepsOmitted ((Manager.load stored).run events)
      ↔ payload.MindsFreeze ((Manager.load stored).run events) := by
  obtain ⟨stored', hstored, -⟩ := (Manager.Has.run ⟨stored, rfl, rfl⟩ events : Manager.Has _ _)
  rw [hstored]
  exact keepsOmitted_load

/-- A request with a title alone. -/
def titlePayload : SettingsPayload where
  title := some "Finals".toList
  durationMinutes := none
  freezeMinutes := none
  requireFullscreen := none
  minClientVersion := none
  enforceBinaryHash := none
  authorizedBinaryHashes := none
  downloadEnabled := none

/-- The contest that the migrations set up, started for two hours. -/
def startedSample : Manager := (Manager.load .migrated).run [(0, .start 120)]

/-- Ten minutes before its end the scoreboard is frozen; after the contest has got a title it is not. -/
theorem keepsOmitted_title :
    (startedSample.snapshot.getState (110 * minute)).isFrozen = true
      ∧ ((startedSample.updateSettings titlePayload.request).snapshot.getState (110 * minute)).isFrozen
        = false
      ∧ ¬ titlePayload.KeepsOmitted startedSample := by
  refine ⟨by decide +kernel, by decide +kernel, fun h => ?_⟩
  have hagree : (startedSample.updateSettings titlePayload.request).stored.freezeMinutes
      = startedSample.stored.freezeMinutes := (h .freezeMinutes rfl).1
  exact absurd hagree (by decide +kernel)

end Clock

end Labyrithm
