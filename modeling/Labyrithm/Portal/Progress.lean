import Labyrithm.Judge.Versions
import Mathlib.Data.List.Perm.Subperm

/-!
# What the portal shows of a submission

`competitor-frontend/src/lib/submission-progress.ts` and `applyProgress` of
`components/portal/submissions-provider.tsx`.  Events and polled statuses arrive in any order and more
than once; `shouldApplySubmissionProgress` decides whether one replaces what is held of its
submission.  The texts of the toast are left out.

`Portal.held_receive` follows one submission through the messages of all: what is held of it depends
only on the messages about it, as long as no more than 256 submissions are held.
-/

namespace Labyrithm

/-! ## JavaScript's maps keep the order of insertion -/

namespace Entries

variable {κ υ : Type} [DecidableEq κ] {k k' : κ} {v : υ} {es : List (κ × υ)}

/-- `map.get(k)`. -/
def get (k : κ) : List (κ × υ) → Option υ
  | [] => none
  | (k', v) :: es => if k' = k then some v else get k es

/-- `map.set(k, v)`: a key that is there keeps its place. -/
def set (k : κ) (v : υ) : List (κ × υ) → List (κ × υ)
  | [] => [(k, v)]
  | (k', v') :: es => if k' = k then (k, v) :: es else (k', v') :: set k v es

/-- `map.delete(k)`. -/
def delete (k : κ) (es : List (κ × υ)) : List (κ × υ) := es.filter fun e => e.1 ≠ k

lemma get_set : get k' (set k v es) = if k = k' then some v else get k' es := by
  induction es with
  | nil => rfl
  | cons e es ih =>
      obtain ⟨a, b⟩ := e
      by_cases ha : a = k
      · subst ha
        by_cases hk : a = k' <;> simp [set, get, hk]
      · by_cases hk : a = k'
        · subst hk
          simp [set, get, ha, Ne.symm ha]
        · simp [set, get, ha, hk, ih]

/-- Setting a key adds that key at most. -/
lemma keys_set : (set k v es).map Prod.fst
    = if k ∈ es.map Prod.fst then es.map Prod.fst else es.map Prod.fst ++ [k] := by
  induction es with
  | nil => rfl
  | cons e es ih =>
      obtain ⟨a, b⟩ := e
      by_cases ha : a = k
      · subst ha
        simp [set]
      · rw [set, if_neg ha, List.map_cons, ih]
        have hmem : k ∈ ((a, b) :: es).map Prod.fst ↔ k ∈ es.map Prod.fst := by
          simp [Ne.symm ha]
        simp only [hmem]
        split_ifs <;> rfl

lemma nodup_keys_set (h : (es.map Prod.fst).Nodup) : ((set k v es).map Prod.fst).Nodup := by
  rw [keys_set]
  split_ifs with hk
  · exact h
  · exact List.nodup_append.mpr ⟨h, List.nodup_singleton k, fun a ha b hb => by
      rw [List.mem_singleton.mp hb]
      exact fun hab => hk (hab ▸ ha)⟩

end Entries

namespace Portal

/-- `Date.parse`, in milliseconds. -/
def dateParse (t : Time) : ℤ := t / 1000

lemma dateParse_mono {t t' : Time} (h : t ≤ t') : dateParse t ≤ dateParse t' :=
  Int.ediv_le_ediv (by decide) h

/-- `shouldApplySubmissionProgress`. -/
def shouldApplySubmissionProgress (previous : Option StatusResponse) (next : StatusResponse) :
    Bool :=
  match previous with
  | none => true
  | some previous =>
      match previous.attemptStartedAt, next.attemptStartedAt with
      | some before, some after =>
          if dateParse before ≠ dateParse after then dateParse after > dateParse before
          else rest previous next
      | none, some after =>
          match previous.finishedAt with
          | none => true
          | some finished => dateParse after > dateParse finished
      | some _, none => if !next.status.terminal then false else rest previous next
      | none, none => rest previous next
where
  /-- The checks that both attempts being one, or unknown, leaves to make. -/
  rest (previous next : StatusResponse) : Bool :=
    if finishedBefore next.finishedAt previous.attemptStartedAt then false
    else if previous.status.terminal then false
    else if next.status.terminal then true
    else if previous.status = .running ∧ next.status = .queued then false
    else next.testsDone ≥ previous.testsDone
  /-- `next.finishedAt && previous.attemptStartedAt && … < …`. -/
  finishedBefore : Option Time → Option Time → Bool
    | some finished, some started => dateParse finished < dateParse started
    | _, _ => false

/-! ## `applyProgress` -/

/-- One entry of `subtasks`. -/
structure SubtaskResult where
  id : ℤ
  points : ℤ
  earned : ℤ
  passed : Bool
  verdict : Verdict
  timeMs : ℤ

structure SubmitResult where
  submissionId : Uuid
  problemId : Uuid
  status : Status
  score : ℤ
  maxScore : ℤ
  queuePosition : Option ℕ
  compileError : Option String
  verdict : Option Verdict
  subtasks : List SubtaskResult
  improvedBest : Bool
  previousBest : ℤ

/-- `parseSubmissionResult`. -/
def parseSubmissionResult (data : StatusResponse) : SubmitResult where
  submissionId := data.submissionId
  problemId := data.problemId
  status := data.status
  score := data.score
  maxScore := data.maxScore
  queuePosition := data.queuePosition
  compileError := data.compileError
  verdict := data.verdict
  subtasks := data.tests.map fun t =>
    ⟨t.1, t.2.maxPoints, t.2.points, t.2.verdict = .AC, t.2.verdict, t.2.timeMs⟩
  improvedBest := false
  previousBest := 0

structure ActiveSubmission where
  id : Uuid
  problemId : Uuid
  status : Status
  queuePosition : Option ℕ
  testsDone : ℤ
  testsTotal : ℤ

/-- The state of the provider: what is held of each submission, which are shown as active, and the
last result. -/
structure State where
  latest : List (Uuid × StatusResponse)
  activeSubmissions : List (Uuid × ActiveSubmission)
  lastResult : Option SubmitResult

/-- Nothing is held. -/
def State.empty : State := ⟨[], [], none⟩

/-- What is held of the submission `id`: `latest.current.get(id)`. -/
def State.held (s : State) (id : Uuid) : Option StatusResponse := Entries.get id s.latest

/-- `latest.current.set(…)`; when more than 256 submissions are held, the oldest is dropped. -/
def remember (data : StatusResponse) (latest : List (Uuid × StatusResponse)) :
    List (Uuid × StatusResponse) :=
  let latest := Entries.set data.submissionId data latest
  if latest.length > 256 then
    match latest with
    | [] => latest
    | oldest :: _ => Entries.delete oldest.1 latest
  else latest

/-- `applyProgress`. -/
def applyProgress (s : State) (data : StatusResponse) : State :=
  if shouldApplySubmissionProgress (s.held data.submissionId) data then
    let latest := remember data s.latest
    match data.status with
    | .queued | .running =>
        { s with
          latest := latest
          activeSubmissions := Entries.set data.submissionId
            ⟨data.submissionId, data.problemId, data.status, data.queuePosition, data.testsDone,
              data.testsTotal⟩ s.activeSubmissions }
    | .passed | .failed =>
        { latest := latest
          activeSubmissions := Entries.delete data.submissionId s.activeSubmissions
          lastResult := some (parseSubmissionResult data) }
  else s

/-- The messages `ms`, one after the other. -/
def receive (s : State) (ms : List StatusResponse) : State := ms.foldl applyProgress s

/-! ## One submission among many -/

/-- What is held of one submission, when a message about it arrives. -/
def keep (held : Option StatusResponse) (data : StatusResponse) : Option StatusResponse :=
  if shouldApplySubmissionProgress held data then some data else held

lemma latest_applyProgress (s : State) (data : StatusResponse) :
    (applyProgress s data).latest
      = if shouldApplySubmissionProgress (s.held data.submissionId) data then
          remember data s.latest
        else s.latest := by
  unfold applyProgress
  split_ifs
  · cases data.status <;> rfl
  · rfl

/-- The submissions held are among `ids`, and none is held twice. -/
structure State.HoldsOf (s : State) (ids : List Uuid) : Prop where
  nodup : (s.latest.map Prod.fst).Nodup
  subset : s.latest.map Prod.fst ⊆ ids

/-- With at most 256 submissions about, none is dropped. -/
lemma remember_eq {latest : List (Uuid × StatusResponse)} {ids : List Uuid} {data : StatusResponse}
    (hnodup : (latest.map Prod.fst).Nodup) (hsubset : latest.map Prod.fst ⊆ ids)
    (hdata : data.submissionId ∈ ids) (hfew : ids.length ≤ 256) :
    remember data latest = Entries.set data.submissionId data latest := by
  have hkeys : (Entries.set data.submissionId data latest).map Prod.fst ⊆ ids := by
    rw [Entries.keys_set]
    split_ifs
    · exact hsubset
    · exact List.append_subset.mpr ⟨hsubset, by simpa using hdata⟩
  have hle := (List.subperm_of_subset (Entries.nodup_keys_set hnodup) hkeys).length_le
  rw [List.length_map] at hle
  simp only [remember]
  rw [if_neg (by omega)]

lemma State.HoldsOf.applyProgress {s : State} {ids : List Uuid} (h : s.HoldsOf ids)
    {data : StatusResponse} (hdata : data.submissionId ∈ ids) (hfew : ids.length ≤ 256) :
    (applyProgress s data).HoldsOf ids ∧ ∀ id, (applyProgress s data).held id
      = if data.submissionId = id then keep (s.held id) data else s.held id := by
  have hremember := remember_eq h.nodup h.subset hdata hfew
  by_cases happly : shouldApplySubmissionProgress (s.held data.submissionId) data
  · have hlatest : (Portal.applyProgress s data).latest
        = Entries.set data.submissionId data s.latest := by
      rw [latest_applyProgress, if_pos happly, hremember]
    refine ⟨⟨?_, ?_⟩, fun id => ?_⟩
    · rw [hlatest]
      exact Entries.nodup_keys_set h.nodup
    · rw [hlatest, Entries.keys_set]
      split_ifs
      · exact h.subset
      · exact List.append_subset.mpr ⟨h.subset, by simpa using hdata⟩
    · rw [State.held, hlatest, Entries.get_set]
      split_ifs with hid
      · rw [← hid, keep, if_pos happly]
      · rfl
  · have hlatest : (Portal.applyProgress s data).latest = s.latest := by
      rw [latest_applyProgress, if_neg happly]
    refine ⟨⟨hlatest ▸ h.nodup, hlatest ▸ h.subset⟩, fun id => ?_⟩
    rw [State.held, hlatest]
    split_ifs with hid
    · rw [← hid, keep, if_neg happly]
      rfl
    · rfl

/-- **One submission among many.**  While at most 256 submissions are about, what is held of one
depends only on the messages about it. -/
theorem held_receive {ids : List Uuid} (hfew : ids.length ≤ 256) {ms : List StatusResponse}
    (hms : ∀ m ∈ ms, m.submissionId ∈ ids) {s : State} (hs : s.HoldsOf ids) (id : Uuid) :
    (receive s ms).held id
      = (ms.filter fun m => m.submissionId = id).foldl keep (s.held id) := by
  induction ms generalizing s with
  | nil => rfl
  | cons m ms ih =>
      obtain ⟨hnext, hheld⟩ := hs.applyProgress (hms m (by simp)) hfew
      have hrest := ih (fun m' hm' => hms m' (List.mem_cons_of_mem m hm')) hnext
      rw [hheld] at hrest
      show (receive (Portal.applyProgress s m) ms).held id = _
      rw [hrest, List.filter_cons]
      by_cases hid : m.submissionId = id <;> simp [hid]

end Portal

end Labyrithm
