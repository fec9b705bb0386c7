import Labyrithm.Go.Unwinding
import Labyrithm.Proctor.Findings

/-!
# Events of the browser

`recordBrowserEvent` of `backend/internal/api/telemetry.go` files whatever event the portal reports as a
finding of the rule with that name.  The portal reports the rules of the browser; a contestant may send
any name.  A history is a sequence of statements on the findings, in the order in which the database
takes them; each has its own catalogue and time.  The statements of `ApplyEndpointSignals` and
`RecordEvent` (for the agent, the gate, the submission check, leaving and readmitting) are `observe`.

**`browser_events_iff`** — one contestant's events leave every finding of the other rules alone, all the
way through a history, if and only if each of them names a rule of the browser, or one that is disabled
or not known, or has a NUL in its evidence.
-/

namespace Labyrithm

namespace Proctor

/-- `browserEventRequest`. -/
structure BrowserEventRequest where
  eventType : String
  detail : String
  signals : Option Evidence

/-- `defaultWeight` of `recordBrowserEvent`. -/
def browserWeight (eventType : String) : ℤ :=
  if eventType = "web.fullscreen_exit" then 15
  else if eventType = "web.window_blur" ∨ eventType = "web.tab_switch" then 20
  else if eventType = "web.devtools_attempt" then 25
  else if eventType = "web.lockout_exceeded" then 35
  else 15

/-- `signals`, with the detail. -/
def BrowserEventRequest.evidence (req : BrowserEventRequest) : Evidence :=
  let signals := req.signals.getD []
  if req.detail = "" then signals
  else ("detail", .text req.detail) :: signals.filter fun entry => entry.1 ≠ "detail"

def BrowserEventRequest.observation (req : BrowserEventRequest) : Observation where
  ruleID := req.eventType
  defaultWeight := browserWeight req.eventType
  evidence := req.evidence

/-- `recordBrowserEvent`, as far as the findings go; without an event type it is refused. -/
def recordBrowserEvent (rules : Catalogue) (userID : String) (req : BrowserEventRequest) (now : ℤ)
    (db : Db) : Db :=
  if req.eventType = "" then db else observe rules userID req.observation now db

/-- What changes the findings. -/
inductive Op
  | browserEvent (rules : Catalogue) (userID : String) (req : BrowserEventRequest) (now : ℤ)
  | observe (rules : Catalogue) (userID : String) (o : Observation) (now : ℤ)
  | clearLockoutFindings (userID : String)
  | insertUser (userID : String)
  /-- with the findings of the user -/
  | deleteUser (userID : String)
  | insertRule (ruleID : String)
  /-- with the findings of the rule -/
  | deleteRule (ruleID : String)

def step : Op → Db → Db
  | .browserEvent rules userID req now, db => recordBrowserEvent rules userID req now db
  | .observe rules userID o now, db => Proctor.observe rules userID o now db
  | .clearLockoutFindings userID, db => Proctor.clearLockoutFindings userID db
  | .insertUser userID, db => { db with users := userID :: db.users }
  | .deleteUser userID, db =>
      { db.setFindings userID ∅ with users := db.users.filter fun u => u ≠ userID }
  | .insertRule ruleID, db => { db with rules := ruleID :: db.rules }
  | .deleteRule ruleID, db =>
      { db with
        rules := db.rules.filter fun r => r ≠ ruleID
        findings := fun userID => (db.findings userID).erase ruleID }

/-- A request of the contestant. -/
def Op.isBrowserEventOf (contestant : String) : Op → Bool
  | .browserEvent _ userID _ _ => userID = contestant
  | _ => false

/-- `web.*`. -/
def isWebRule (ruleID : String) : Bool := "web.".toList.isPrefixOf ruleID.toList

/-- The event names a rule of the browser, or is not recorded at all. -/
def Op.Minds (op : Op) (db : Db) : Prop :=
  match op with
  | .browserEvent rules userID req _ =>
      req.eventType = "" ∨ isWebRule req.eventType ∨ ¬ db.Records rules userID req.observation
  | _ => True

/-- What is kept of a finding for the review. -/
structure Recorded where
  weight : ℤ
  evidence : Evidence
  occurrences : ℤ
  deriving DecidableEq, Repr

def Finding.recorded (f : Finding) : Recorded := ⟨f.weight, f.evidence, f.occurrences⟩

def Db.recorded (db : Db) (userID ruleID : String) : Option Recorded :=
  ((db.findings userID).get? ruleID).map Finding.recorded

/-- Nothing but findings of the browser's rules differs. -/
def SameEvidence (db db' : Db) : Prop :=
  ∀ userID ruleID, isWebRule ruleID = false → db.recorded userID ruleID = db'.recorded userID ruleID

/-- And the findings have the same rows to refer to. -/
structure Related (db db' : Db) : Prop where
  users : db.users = db'.users
  rules : db.rules = db'.rules
  evidence : SameEvidence db db'

/-! ## One statement -/

variable {db db' : Db} {rules : Catalogue} {userID ruleID contestant : String} {o : Observation}
  {req : BrowserEventRequest} {now : ℤ} {op : Op}

lemma Related.refl (db : Db) : Related db db := ⟨rfl, rfl, fun _ _ _ => rfl⟩

lemma Related.records_iff (h : Related db db') :
    db.Records rules userID o ↔ db'.Records rules userID o := by
  rw [Db.Records, Db.Records, Db.Known, Db.Known, h.users, h.rules]

/-- What is recorded of a finding follows from what was recorded before. -/
lemma recorded_fileFinding {old old' : Option Finding}
    (h : old.map Finding.recorded = old'.map Finding.recorded) (weight : ℤ) (evidence : Evidence) :
    (fileFinding old weight evidence now).recorded
      = (fileFinding old' weight evidence now).recorded := by
  cases old with
  | none =>
      cases old' with
      | none => rfl
      | some f' => cases h
  | some f =>
      cases old' with
      | none => cases h
      | some f' =>
          have hrecorded : f.recorded = f'.recorded := Option.some.inj h
          have hoccurrences : f.occurrences = f'.occurrences := congrArg Recorded.occurrences hrecorded
          simp [fileFinding, Finding.recorded, hoccurrences]

lemma recorded_observe (userID' ruleID : String) :
    (Proctor.observe rules userID o now db).recorded userID' ruleID
      = if db.Records rules userID o ∧ userID' = userID ∧ ruleID = o.ruleID then
          some (fileFinding ((db.findings userID).get? o.ruleID)
            (ruleWeight rules o.ruleID o.defaultWeight) o.evidence now).recorded
        else db.recorded userID' ruleID := by
  rw [Db.recorded, finding_observe]
  split_ifs <;> rfl

/-- A finding that is filed once more has occurred once more. -/
lemma fileFinding_ne (old : Option Finding) (weight : ℤ) (evidence : Evidence) :
    some (fileFinding old weight evidence now).recorded ≠ old.map Finding.recorded := by
  cases old with
  | none => simp
  | some f =>
      intro h
      have hrecorded := Option.some.inj h
      have hoccurrences : f.occurrences + 1 = f.occurrences := congrArg Recorded.occurrences hrecorded
      omega

lemma Related.observe (h : Related db db') :
    Related (Proctor.observe rules userID o now db) (Proctor.observe rules userID o now db') := by
  refine ⟨by simpa using h.users, by simpa using h.rules, fun userID' ruleID hweb => ?_⟩
  rw [recorded_observe, recorded_observe]
  by_cases hcase : db.Records rules userID o ∧ userID' = userID ∧ ruleID = o.ruleID
  · obtain ⟨hrecords, rfl, rfl⟩ := hcase
    rw [if_pos ⟨hrecords, rfl, rfl⟩, if_pos ⟨h.records_iff.mp hrecords, rfl, rfl⟩]
    exact congrArg some (recorded_fileFinding (h.evidence userID' o.ruleID hweb) _ _)
  · rw [if_neg hcase, if_neg (by rwa [← h.records_iff])]
    exact h.evidence userID' ruleID hweb

/-- Every statement keeps the relation when both runs take it. -/
lemma Related.both (op : Op) (h : Related db db') : Related (step op db) (step op db') := by
  cases op with
  | browserEvent rules userID req now =>
      simp only [Proctor.step, recordBrowserEvent]
      split_ifs
      · exact h
      · exact h.observe
  | observe rules userID o now => exact h.observe
  | clearLockoutFindings userID =>
      refine ⟨h.users, h.rules, fun userID' ruleID hweb => ?_⟩
      simp only [Proctor.step, Db.recorded, finding_clearLockoutFindings]
      split_ifs
      · rfl
      · exact h.evidence userID' ruleID hweb
  | insertUser userID => exact ⟨congrArg (userID :: ·) h.users, h.rules, h.evidence⟩
  | deleteUser userID =>
      refine ⟨congrArg (List.filter fun u => u ≠ userID) h.users, h.rules, fun userID' ruleID hweb => ?_⟩
      by_cases huser : userID' = userID
      · subst huser
        simp [Proctor.step, Db.recorded, Db.setFindings]
      · simpa [Proctor.step, Db.recorded, Db.setFindings, huser] using h.evidence userID' ruleID hweb
  | insertRule ruleID => exact ⟨h.users, congrArg (ruleID :: ·) h.rules, h.evidence⟩
  | deleteRule ruleID =>
      refine ⟨h.users, congrArg (List.filter fun r => r ≠ ruleID) h.rules, fun userID' ruleID' hweb => ?_⟩
      simp only [Proctor.step, Db.recorded, Go.Map.get?_erase]
      split_ifs
      · rfl
      · exact h.evidence userID' ruleID' hweb

/-- An event that minds its rules may be left out. -/
lemma Related.hide (hhidden : op.isBrowserEventOf contestant) (hminds : op.Minds db)
    (h : Related db db') : Related (step op db) db' := by
  cases op with
  | browserEvent rules userID req now =>
      simp only [Proctor.step, recordBrowserEvent]
      split_ifs with hempty
      · exact h
      refine ⟨by simpa using h.users, by simpa using h.rules, fun userID' ruleID hweb => ?_⟩
      rw [recorded_observe, if_neg, h.evidence userID' ruleID hweb]
      rintro ⟨hrecords, -, rfl⟩
      rcases hminds with hempty' | hname | hnot
      · exact hempty hempty'
      · have hnot : isWebRule req.eventType = false := hweb
        rw [hname] at hnot
        cases hnot
      · exact hnot hrecords
  | _ => cases hhidden

/-- And one that does not is seen. -/
lemma Related.seen (hhidden : op.isBrowserEventOf contestant) (hminds : ¬ op.Minds db)
    (h : Related db db') : ¬ SameEvidence (step op db) db' := by
  cases op with
  | browserEvent rules userID req now =>
      obtain ⟨hempty, hweb, hrecords⟩ : req.eventType ≠ "" ∧ isWebRule req.eventType = false
          ∧ db.Records rules userID req.observation := by
        simpa [Op.Minds, not_or] using hminds
      intro hsame
      have hfinding := hsame userID req.eventType hweb
      rw [← h.evidence userID req.eventType hweb] at hfinding
      simp only [Proctor.step, recordBrowserEvent, if_neg hempty] at hfinding
      rw [recorded_observe, if_pos ⟨hrecords, rfl, rfl⟩] at hfinding
      exact fileFinding_ne _ _ _ hfinding
  | _ => cases hhidden

/-! ## Histories -/

/-- Throughout a history, what is recorded of the rules that are not the browser's is what it would be
without one contestant's events if and only if each of these minds its rules. -/
theorem browser_events_iff (contestant : String) (db : Db) (ops : List Op) :
    (∀ past, past <+: ops → SameEvidence (Go.exec step past db)
        (Go.exec step (Go.purge (Op.isBrowserEventOf contestant) past) db))
      ↔ Go.Harmless step (Op.isBrowserEventOf contestant) Op.Minds ops db :=
  Go.purge_iff (fun op _ _ h => h.both op) (fun _ _ _ hhidden hminds h => h.hide hhidden hminds)
    (fun _ _ h => h.evidence) (fun _ _ _ hhidden hminds h => h.seen hhidden hminds) (Related.refl db)

/-- One contestant, one rule, nothing found yet. -/
def sampleDb : Db where
  users := ["u"]
  rules := ["net.internet"]
  findings := fun _ => ∅
  risk := fun _ => none

/-- The agent reports the internet, and the contestant reports it as well. -/
def sampleHistory : List Op :=
  [.observe none "u" ⟨"net.internet", 50, [("reachable", .flag true)]⟩ 100,
    .browserEvent none "u" ⟨"net.internet", "nothing to see", none⟩ 101]

/-- The evidence of the agent is overwritten. -/
theorem evidence_overwritten : ¬ ∀ (contestant : String) (db : Db) (ops : List Op),
    SameEvidence (Go.exec step ops db)
      (Go.exec step (Go.purge (Op.isBrowserEventOf contestant) ops) db) := by
  intro hall
  have hsame := hall "u" sampleDb sampleHistory "u" "net.internet" (by decide +kernel)
  exact absurd hsame (by decide +kernel)

end Proctor

end Labyrithm
