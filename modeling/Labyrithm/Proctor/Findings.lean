import Labyrithm.Proctor.Signals

/-!
# Findings

`backend/internal/proctor/evaluator.go`, lines 298–346, and `ClearLockoutFindings` of
`backend/internal/agent/repository.go`.  A finding is the one open row of a user and a rule
(`idx_proctor_findings_open`; nothing files a finding of a submission).  Its rule has to be in
`proctor_rules`, its user in `users`, and its evidence must be one that `jsonb` takes: any other statement
fails, and `observe` logs that and goes on.

The catalogue is whatever `Load` gave to the call, the empty one at first and an older or newer copy of
`proctor_rules` later; it is an argument.
-/

namespace Labyrithm

namespace Proctor

structure RuleConfig where
  weight : ℤ
  enabled : Bool
  deriving DecidableEq, Repr

/-- `e.rules`, if it was loaded. -/
abbrev Catalogue := Option (Go.Map String RuleConfig)

def ruleWeight (rules : Catalogue) (ruleID : String) (defaultWeight : ℤ) : ℤ :=
  match rules with
  | none => defaultWeight
  | some cached =>
      match cached.get? ruleID with
      | none => defaultWeight
      | some cfg => if cfg.enabled then cfg.weight else -1

/-- A row of `proctor_findings`. -/
structure Finding where
  weight : ℤ
  evidence : Evidence
  occurrences : ℤ
  firstSeenAt : ℤ
  lastSeenAt : ℤ
  deriving DecidableEq, Repr

inductive Severity
  | low
  | medium
  | high
  deriving DecidableEq, Repr

def Severity.text : Severity → String
  | low => "LOW"
  | medium => "MEDIUM"
  | high => "HIGH"

/-- A row of `proctor_risk`. -/
structure Risk where
  score : ℤ
  severity : Severity
  findingCount : ℕ
  deriving DecidableEq, Repr

/-- `users` and `proctor_rules`, by their keys, `proctor_findings` by user and rule, and `proctor_risk`. -/
structure Db where
  users : List String
  rules : List String
  findings : String → Go.Map String Finding
  risk : String → Option Risk

/-- `INSERT INTO proctor_findings … ON CONFLICT … DO UPDATE`, on the row. -/
def fileFinding (old : Option Finding) (weight : ℤ) (evidence : Evidence) (now : ℤ) : Finding :=
  match old with
  | none => ⟨weight, evidence, 1, now, now⟩
  | some f => { f with
      occurrences := f.occurrences + 1
      lastSeenAt := now
      weight := weight
      evidence := evidence }

def Db.setFindings (db : Db) (userID : String) (findings : Go.Map String Finding) : Db :=
  { db with findings := Function.update db.findings userID findings }

/-- Whether the foreign keys of a finding are there. -/
def Db.Known (db : Db) (userID ruleID : String) : Prop := userID ∈ db.users ∧ ruleID ∈ db.rules

instance (db : Db) (userID ruleID : String) : Decidable (db.Known userID ruleID) :=
  inferInstanceAs (Decidable (_ ∧ _))

/-- The text of a value escapes a NUL. -/
def escapesNul : List Char → Bool
  | '\\' :: 'u' :: '0' :: '0' :: '0' :: '0' :: _ => true
  | '\\' :: _ :: s => escapesNul s
  | _ :: s => escapesNul s
  | [] => false

/-- No text in the value has a NUL, which `jsonb` refuses. -/
def Value.storable : Value → Bool
  | text s => '\x00' ∉ s.toList
  | texts l => l.all fun s => '\x00' ∉ s.toList
  | json raw => !escapesNul raw.toList
  | flag _ | number _ => true

def Evidence.storable (evidence : Evidence) : Bool :=
  evidence.all fun entry => '\x00' ∉ entry.1.toList && entry.2.storable

def observe (rules : Catalogue) (userID : String) (o : Observation) (now : ℤ) (db : Db) : Db :=
  let weight := ruleWeight rules o.ruleID o.defaultWeight
  if weight < 0 then db
  else if db.Known userID o.ruleID ∧ o.evidence.storable then
    db.setFindings userID ((db.findings userID).insert o.ruleID
      (fileFinding ((db.findings userID).get? o.ruleID) weight o.evidence now))
  else db

def clearLockoutFindings (userID : String) (db : Db) : Db :=
  db.setFindings userID (((db.findings userID).erase "web.lockout_exceeded").erase "web.fullscreen_exit")

/-! ## What a statement changes -/

variable {db : Db} {rules : Catalogue} {userID userID' ruleID : String} {o : Observation} {now : ℤ}

attribute [local simp] observe Db.setFindings clearLockoutFindings in
@[simp] lemma observe_users : (observe rules userID o now db).users = db.users := by
  simp only [observe, Db.setFindings]
  split_ifs <;> rfl

@[simp] lemma observe_rules : (observe rules userID o now db).rules = db.rules := by
  simp only [observe, Db.setFindings]
  split_ifs <;> rfl

@[simp] lemma observe_risk : (observe rules userID o now db).risk = db.risk := by
  simp only [observe, Db.setFindings]
  split_ifs <;> rfl

lemma observe_findings_of_ne (h : userID' ≠ userID) :
    (observe rules userID o now db).findings userID' = db.findings userID' := by
  simp only [observe, Db.setFindings]
  split_ifs
  · rfl
  · exact Function.update_of_ne h _ _
  · rfl

lemma clearLockoutFindings_findings_of_ne (h : userID' ≠ userID) :
    (clearLockoutFindings userID db).findings userID' = db.findings userID' :=
  Function.update_of_ne h _ _

/-- Where there is nothing to forget, nothing changes. -/
lemma clearLockoutFindings_findings_self
    (hexceeded : (db.findings userID).get? "web.lockout_exceeded" = none)
    (hexit : (db.findings userID).get? "web.fullscreen_exit" = none) :
    (clearLockoutFindings userID db).findings userID = db.findings userID := by
  simp only [clearLockoutFindings, Db.setFindings, Function.update_self]
  rw [Go.Map.erase_of_get? hexceeded, Go.Map.erase_of_get? hexit]

/-- An observation is recorded if its rule is enabled and known, and its evidence can be stored. -/
def Db.Records (db : Db) (rules : Catalogue) (userID : String) (o : Observation) : Prop :=
  0 ≤ ruleWeight rules o.ruleID o.defaultWeight ∧ db.Known userID o.ruleID ∧ o.evidence.storable

instance (db : Db) (rules : Catalogue) (userID : String) (o : Observation) :
    Decidable (db.Records rules userID o) := inferInstanceAs (Decidable (_ ∧ _))

lemma observe_of_not_records (h : ¬ db.Records rules userID o) : observe rules userID o now db = db := by
  simp only [observe]
  split_ifs with hweight htaken
  · rfl
  · exact absurd ⟨not_lt.mp hweight, htaken⟩ h
  · rfl

/-- The finding of a user and a rule after an observation. -/
lemma finding_observe (userID' ruleID : String) :
    ((observe rules userID o now db).findings userID').get? ruleID
      = if db.Records rules userID o ∧ userID' = userID ∧ ruleID = o.ruleID then
          some (fileFinding ((db.findings userID).get? o.ruleID)
            (ruleWeight rules o.ruleID o.defaultWeight) o.evidence now)
        else (db.findings userID').get? ruleID := by
  by_cases hrecords : db.Records rules userID o
  · have hweight : ¬ ruleWeight rules o.ruleID o.defaultWeight < 0 := not_lt.mpr hrecords.1
    simp only [observe, if_neg hweight, if_pos hrecords.2, Db.setFindings, hrecords, true_and]
    by_cases huser : userID' = userID
    · subst huser
      simp [Go.Map.get?_insert]
    · simp [huser]
  · rw [observe_of_not_records hrecords]
    simp [hrecords]

/-- The rules that an administrator's restoration forgets. -/
def isLockout (ruleID : String) : Bool :=
  ruleID = "web.lockout_exceeded" || ruleID = "web.fullscreen_exit"

lemma finding_clearLockoutFindings (userID' ruleID : String) :
    ((clearLockoutFindings userID db).findings userID').get? ruleID
      = if userID' = userID ∧ isLockout ruleID then none else (db.findings userID').get? ruleID := by
  simp only [clearLockoutFindings, Db.setFindings]
  by_cases huser : userID' = userID
  · subst huser
    simp only [Function.update_self, Go.Map.get?_erase, isLockout, true_and]
    grind
  · simp [huser]

end Proctor

end Labyrithm
