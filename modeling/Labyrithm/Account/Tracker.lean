import Labyrithm.Go.Map
import Labyrithm.Go.Strings
import Labyrithm.Go.Time

/-!
# The tracker of failed logins

`backend/internal/api/login_tracker.go`: for each name, in lower case, the failures in a row, and how long
the name is locked.

* `Mark` — what happens to a name: a failure, or that its record goes.
* `Kept` — the record of a name is what the failures since it last went make of it.
* **`isLocked_iff`** — a name is locked if and only if these failures are enough, and the last of them is
  recent.
-/

namespace Labyrithm

namespace Account

/-- `loginFailureRecord`; a lock is `none` for the zero time. -/
structure FailureRecord where
  consecutiveFailures : ℕ
  lockedUntil : Option ℤ
  lastAttempt : ℤ
  deriving DecidableEq, Repr

def trackerIdleThreshold : ℤ := 5 * Go.minute

namespace FailureRecord

/-- What is left of a lock, if there is one. -/
def remaining (record : FailureRecord) (now : ℤ) : Option ℤ :=
  record.lockedUntil.bind fun lockedUntil => if now < lockedUntil then some (Go.sub lockedUntil now) else none

/-- What `evictIdle` looks for. -/
def idle (now : ℤ) (record : FailureRecord) : Bool :=
  trackerIdleThreshold < Go.sub now record.lastAttempt && record.lockedUntil.all fun lockedUntil => lockedUntil < now

end FailureRecord

/-- `LoginAttemptTracker`. -/
structure Tracker where
  maxFailures : ℕ
  lockout : ℤ
  records : Go.Map String FailureRecord

namespace Tracker

def defaultMaxFailedLogins : ℕ := 20
def defaultLockoutDuration : ℤ := 1 * Go.minute

/-- `NewLoginAttemptTracker`. -/
def new (maxFailures : ℕ) (lockout : ℤ) : Tracker := ⟨maxFailures, lockout, ∅⟩

/-- `strings.ToLower(username)`. -/
def key (username : String) : String := String.ofList (Go.toLower username.toList)

/-- `IsLocked`: the remaining duration. -/
def isLocked (username : String) (now : ℤ) (t : Tracker) : Option ℤ :=
  (t.records.get? (key username)).bind fun record => record.remaining now

/-- `RecordFailure`. -/
def recordFailure (username : String) (now : ℤ) (t : Tracker) : Tracker :=
  let record := (t.records.get? (key username)).getD ⟨0, none, now⟩
  let failures := record.consecutiveFailures + 1
  { t with
    records := t.records.insert (key username)
      ⟨failures, if t.maxFailures ≤ failures then some (now + t.lockout) else record.lockedUntil, now⟩ }

/-- `RecordSuccess`. -/
def recordSuccess (username : String) (t : Tracker) : Tracker :=
  { t with records := t.records.erase (key username) }

def evictIdle (now : ℤ) (t : Tracker) : Tracker :=
  { t with records := Go.Map.eraseIf (FailureRecord.idle now) t.records }

/-! ## What happens to a name -/

inductive Mark
  | failed (now : ℤ)
  | cleared
  deriving DecidableEq, Repr

/-- The failures since the record went, the last one first. -/
def Mark.note (failures : List ℤ) : Mark → List ℤ
  | failed now => now :: failures
  | cleared => []

def failures (marks : List Mark) : List ℤ := marks.foldl Mark.note []

/-- The record that failures make. -/
def recordOf (t : Tracker) : List ℤ → Option FailureRecord
  | [] => none
  | now :: before => some
      ⟨before.length + 1, if t.maxFailures ≤ before.length + 1 then some (now + t.lockout) else none, now⟩

/-- The record of a name is made of these failures. -/
def Kept (t : Tracker) (name : String) (failures : List ℤ) : Prop :=
  t.records.get? name = t.recordOf failures

variable {t : Tracker} {name username : String} {now : ℤ} {before : List ℤ}

lemma kept_new (maxFailures : ℕ) (lockout : ℤ) (name : String) : (new maxFailures lockout).Kept name [] :=
  Go.Map.get?_empty

lemma Kept.recordFailure (h : t.Kept name before) (username : String) (now : ℤ) :
    (t.recordFailure username now).Kept name (if key username = name then now :: before else before) := by
  by_cases hname : key username = name
  · subst hname
    have hrec : ((t.records.get? (key username)).getD ⟨0, none, now⟩).consecutiveFailures = before.length
        ∧ (¬t.maxFailures ≤ before.length + 1 →
          ((t.records.get? (key username)).getD ⟨0, none, now⟩).lockedUntil = none) := by
      unfold Kept at h
      rw [h]
      cases before with
      | nil => exact ⟨rfl, fun _ => rfl⟩
      | cons last before =>
          refine ⟨rfl, fun hfew => ?_⟩
          have hfewer : ¬t.maxFailures ≤ before.length + 1 := by
            simp only [List.length_cons] at hfew
            omega
          simp [recordOf, hfewer]
    unfold Kept
    rw [if_pos rfl]
    simp only [Tracker.recordFailure, Go.Map.get?_insert, if_pos, recordOf, hrec.1]
    split_ifs with hmax
    · rfl
    · rw [hrec.2 hmax]
  · unfold Kept at h ⊢
    rw [if_neg hname]
    simp only [Tracker.recordFailure, Go.Map.get?_insert, if_neg (Ne.symm hname)]
    exact h

lemma Kept.recordSuccess (h : t.Kept name before) (username : String) :
    (t.recordSuccess username).Kept name (if key username = name then [] else before) := by
  unfold Kept at h ⊢
  by_cases hname : key username = name
  · rw [if_pos hname]
    simp [Tracker.recordSuccess, Go.Map.get?_erase, hname, recordOf]
  · rw [if_neg hname]
    simp only [Tracker.recordSuccess, Go.Map.get?_erase, if_neg (Ne.symm hname)]
    exact h

/-- Whether the eviction at a time is for a name. -/
def evicts (t : Tracker) (now : ℤ) (name : String) : Bool := (t.records.get? name).any (FailureRecord.idle now)

lemma Kept.evictIdle (h : t.Kept name before) (now : ℤ) :
    (t.evictIdle now).Kept name (if t.evicts now name then [] else before) := by
  have hfilter : (t.evictIdle now).records.get? name
      = (t.records.get? name).filter fun record => !FailureRecord.idle now record :=
    Go.Map.get?_eraseIf _ _ _
  show (t.evictIdle now).records.get? name = _
  rw [hfilter]
  cases hget : t.records.get? name with
  | none =>
      have hnot : t.evicts now name = false := by simp [evicts, hget]
      rw [hnot]
      exact hget.symm.trans h
  | some record =>
      by_cases hidle : FailureRecord.idle now record
      · simp [evicts, hget, hidle, recordOf]
      · have hnot : t.evicts now name = false := by simp [evicts, hget, hidle]
        rw [hnot]
        have hkept : some record = t.recordOf before := hget.symm.trans h
        rw [Option.filter_some_pos (by simp [hidle])]
        exact hkept

/-- **A name is locked after enough failures, until some time after the last of them.** -/
theorem isLocked_iff (h : t.Kept (key username) before) :
    (t.isLocked username now).isSome ↔
      t.maxFailures ≤ before.length ∧ ∃ last ∈ before.head?, now < last + t.lockout := by
  unfold isLocked
  unfold Kept at h
  rw [h]
  cases before with
  | nil => simp [recordOf]
  | cons last before =>
      by_cases hmax : t.maxFailures ≤ before.length + 1
      · by_cases hnow : now < last + t.lockout
        · simp [recordOf, FailureRecord.remaining, hmax, hnow]
        · simp [recordOf, FailureRecord.remaining, hmax, hnow]
      · simp [recordOf, FailureRecord.remaining, hmax]

end Tracker

end Account

end Labyrithm
