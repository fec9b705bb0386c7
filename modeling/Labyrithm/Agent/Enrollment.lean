import Labyrithm.Agent.Gate
import Labyrithm.Agent.Shutdowns
import Labyrithm.Go.Strings

/-!
# The enrollments of a contestant

`enrollAgent` and `leaveContest` of `backend/internal/api`, with the statements behind them and the
row of the gate: `Enroll`, `Revoke`, `UnrevokeAgent`, `GateState`.  An enrollment that is not revoked is
live; the schema allows each contestant one of them.

A request to enroll is one with the right name and password and within the rate limits.

* `enrollRefusal` — the checks of `enrollAgent`.  None of them asks whether the contestant has left.
* `gateState` — what the gate reads of a contestant.
* `leaveEnrollments_unreported` — after leaving, no live enrollment has reported.
-/

namespace Labyrithm

namespace Agent

/-! ## `CompareSemver` -/

/-- `strings.TrimPrefix`, for one character. -/
def trimPrefix (prefixed : Char) : List Char → List Char
  | [] => []
  | ch :: rest => if ch = prefixed then rest else ch :: rest

/-- One of the three numbers, 0 where there is none. -/
def semverComponent (parts : List (List Char)) (i : ℕ) : ℤ :=
  match parts[i]?.bind fun part => Go.atoi (Go.trimSpace part) with
  | some n => if 0 ≤ n then n else 0
  | none => 0

def parseSemverComponents (v : String) : List ℤ :=
  let v := trimPrefix 'V' (trimPrefix 'v' (Go.trimSpace v.toList))
  let parts := Go.split (v.takeWhile (· ≠ '-')) '.'
  [semverComponent parts 0, semverComponent parts 1, semverComponent parts 2]

def compareComponents : List ℤ → List ℤ → ℤ
  | a :: as, b :: bs => if a < b then -1 else if a > b then 1 else compareComponents as bs
  | _, _ => 0

def compareSemver (a b : String) : ℤ :=
  compareComponents (parseSemverComponents a) (parseSemverComponents b)

example : compareSemver "v0.2.0-rc1" "0.10" = -1 := by decide

/-! ## `enrollAgent` -/

/-- `EnrollRequest`, without the credentials. -/
structure EnrollRequest where
  machineId : String
  platform : String
  agentVersion : String
  consentVersion : String
  binaryHash : String
  deriving DecidableEq, Repr

/-- What `enrollAgent` reads of the settings, with the letters that `unicode.ToLower` changes. -/
structure EnrollSettings where
  lower : Char → Char
  minClientVersion : String
  enforceBinaryHash : Bool
  authorizedBinaryHashes : List String

/-- `ConsentVersion`. -/
def consentVersion : String := "2026-08-no-provenance"

inductive EnrollRefusal
  | notCompetitor
  | clientUpdateRequired
  | clientHashMismatch
  | consentVersionMismatch
  deriving DecidableEq, Repr

def EnrollRefusal.status : EnrollRefusal → ℕ
  | notCompetitor => 403
  | clientUpdateRequired => 426
  | clientHashMismatch => 403
  | consentVersionMismatch => 409

def EnrollRefusal.message : EnrollRefusal → String
  | notCompetitor => "only competitor accounts enroll a proctor agent"
  | clientUpdateRequired =>
      "Update Required: Your proctor client is outdated. Please download the latest version."
  | clientHashMismatch =>
      "Unauthorized Binary: The checksum of this executable does not match official release builds."
  | consentVersionMismatch =>
      "the proctoring disclosure has changed; reopen setup and read it again before enrolling"

/-- The client is older than the settings ask for; a client may leave its version out. -/
def EnrollSettings.outdated (settings : EnrollSettings) (req : EnrollRequest) : Bool :=
  settings.minClientVersion ≠ "" && req.agentVersion ≠ "" &&
    compareSemver req.agentVersion settings.minClientVersion < 0

/-- The checksum of the client is not among the authorized ones. -/
def EnrollSettings.unauthorized (settings : EnrollSettings) (req : EnrollRequest) : Bool :=
  let clientHash := String.ofList ((Go.trimSpace req.binaryHash.toList).map settings.lower)
  settings.enforceBinaryHash && settings.authorizedBinaryHashes ≠ [] &&
    (clientHash = "" || clientHash ∉ settings.authorizedBinaryHashes)

/-- The checks of `enrollAgent` in their order; the settings are `none` where there are none or the
proctor is bypassed. -/
def enrollRefusal (settings : Option EnrollSettings) (competitor : Bool) (req : EnrollRequest) :
    Option EnrollRefusal :=
  if competitor = false then some .notCompetitor
  else if settings.any fun s => s.outdated req then some .clientUpdateRequired
  else if settings.any fun s => s.unauthorized req then some .clientHashMismatch
  else if req.consentVersion ≠ consentVersion then some .consentVersionMismatch
  else none

/-! ## The statements -/

/-- A row of `proctor_agents`, for the contestant. -/
structure Enrollment where
  id : ℕ
  machineId : String
  row : AgentRow
  deriving DecidableEq, Repr

def Enrollment.live (e : Enrollment) : Bool := e.row.revokedAt.isNone

def Enrollment.revoke (e : Enrollment) (reason : String) (now : ℤ) : Enrollment :=
  { e with row := Agent.revoke e.row reason now }

/-- `Revoke`, for one id. -/
def revokeId (id : ℕ) (reason : String) (now : ℤ) (enrollments : List Enrollment) :
    List Enrollment :=
  enrollments.map fun e => if e.id = id then e.revoke reason now else e

/-- `Enroll`: the live enrollment is superseded. -/
def enroll (id : ℕ) (req : EnrollRequest) (now : ℤ) (enrollments : List Enrollment) :
    List Enrollment :=
  enrollments.map (fun e => e.revoke "superseded by new enrollment" now) ++
    [⟨id, req.machineId, .enrolled req.agentVersion⟩]

/-- `UnrevokeAgent`; with more than one row it violates the index on live enrollments, and nothing
changes. -/
def unrevokeAgent : List Enrollment → List Enrollment
  | [e] => [{ e with row := unrevoke e.row }]
  | enrollments => enrollments

/-- Which store operations of `leaveContest` fail: the listing, or the revocation of an id. -/
structure LeaveFaults where
  list : Bool
  revoke : List ℕ
  deriving DecidableEq, Repr

/-- The revocations of `leaveContest`; it goes on past every error. -/
def leaveEnrollments (faults : LeaveFaults) (now : ℤ) (enrollments : List Enrollment) :
    List Enrollment :=
  if faults.list then enrollments
  else enrollments.map fun e =>
    if e.live ∧ e.id ∉ faults.revoke then e.revoke "Contestant voluntarily exited competition" now
    else e

/-! ## What the gate reads -/

/-- The columns of `users` that the gate and `enrollAgent` depend on. -/
structure Account where
  competitor : Bool
  suspended : Bool
  proctorExempt : Bool
  proctorExemptReason : String
  proctorExemptUntil : Option ℤ
  proctorAllowWebOnly : Bool
  proctorAccessReason : String
  proctorAccessUntil : Option ℤ
  deriving DecidableEq, Repr

/-- A deadline, if there is one, has not passed. -/
def inForce (until? : Option ℤ) (now : ℤ) : Bool := until?.all fun t => now < t

def hour : ℤ := 60 * Go.minute

/-- `UpdateProctorAccess`. -/
def Account.updateProctorAccess (a : Account) (allowWebOnly : Bool) (reason : String)
    (hoursValid now : ℤ) : Account :=
  if a.competitor then
    { a with
      proctorAllowWebOnly := allowWebOnly
      proctorAccessReason := if allowWebOnly then reason else ""
      proctorAccessUntil := if allowWebOnly ∧ 0 < hoursValid then some (now + hoursValid * hour) else none }
  else a

/-- `UpdateProctorExemption`. -/
def Account.updateProctorExemption (a : Account) (exempt : Bool) (hoursValid : ℤ) (reason : String)
    (now : ℤ) : Account :=
  { a with
    proctorExempt := exempt
    proctorExemptReason := if exempt then reason else ""
    proctorExemptUntil := if exempt then some (now + hoursValid * hour) else none }

/-- The row of `telemetry_heartbeats`, as far as the gate reads it. -/
structure Shell where
  lanIP : String
  alive : Bool
  aliveAt : Option ℤ
  deriving DecidableEq, Repr

/-- `GateState`: the account, the live enrollment if there is one, and the shell. -/
def gateState (a : Account) (enrollments : List Enrollment) (shell : Shell) (incidentOpen : Bool)
    (now : ℤ) : GateState :=
  let agent := enrollments.find? Enrollment.live
  { exempt := a.proctorExempt && inForce a.proctorExemptUntil now
    exemptReason := a.proctorExemptReason
    hasAgent := agent.isSome
    lastSeenAt := agent.bind fun e : Enrollment => e.row.lastSeenAt
    stoppedAt := agent.bind fun e : Enrollment => e.row.stoppedAt
    loopbackPort := ((agent.map fun e : Enrollment => e.row.loopbackPort).getD 0).toNat
    lanIP := shell.lanIP
    shellAlive := shell.alive
    shellSeenAt := shell.aliveAt
    incidentOpen := incidentOpen
    grant := ⟨a.proctorAllowWebOnly && inForce a.proctorAccessUntil now⟩
    accessReason := if inForce a.proctorAccessUntil now then a.proctorAccessReason else "" }

/-- `GateState` and `VerifyNonce` of the contestant. -/
def contestantRepository (a : Account) (enrollments : List Enrollment) (shell : Shell)
    (incidentOpen : Bool) (now : ℤ) : Repository where
  gateState _ := .ok (gateState a enrollments shell incidentOpen now)
  verifyNonce _ nonce := .ok (enrollments.any fun e => verifyNonce e.row nonce)

/-- `Check` decides on the state of the contestant. -/
lemma check_eq_ok {net : Net} {g : Gate} {req : CheckRequest} {a : Account}
    {enrollments : List Enrollment} {shell : Shell} {incidentOpen : Bool} {dbNow now : ℤ} {d : Decision}
    (h : g.check net (contestantRepository a enrollments shell incidentOpen dbNow) req now = .ok d) :
    ∃ attestOK,
      d = Decide net (g.checkInput req (gateState a enrollments shell incidentOpen dbNow) attestOK) now := by
  by_cases hnonce : req.attestNonce ≠ ""
  · simp only [Gate.check, contestantRepository, if_pos hnonce] at h
    exact ⟨_, (Except.ok.inj h).symm⟩
  · simp only [Gate.check, contestantRepository, if_neg hnonce] at h
    exact ⟨_, (Except.ok.inj h).symm⟩

/-! ## Who has reported -/

/-- No live enrollment has ever reported. -/
def Unreported (enrollments : List Enrollment) : Prop :=
  ∀ e ∈ enrollments, e.live → e.row.lastSeenAt = none

section Statements

variable {enrollments : List Enrollment} {now : ℤ}

@[simp] lemma live_revoke (e : Enrollment) (reason : String) : (e.revoke reason now).live = false := by
  unfold Enrollment.revoke Enrollment.live Agent.revoke
  cases h : e.row.revokedAt <;> simp [h]

/-- A change that leaves nothing live that was not, and no report that was not, keeps it. -/
lemma Unreported.map (h : Unreported enrollments) {f : Enrollment → Enrollment}
    (hf : ∀ e ∈ enrollments, (f e).live → e.live ∧ (f e).row.lastSeenAt = e.row.lastSeenAt) :
    Unreported (enrollments.map f) := by
  intro e he hlive
  obtain ⟨old, hold, rfl⟩ := List.mem_map.mp he
  obtain ⟨hwas, hseen⟩ := hf old hold hlive
  exact hseen.trans (h old hold hwas)

lemma Unreported.revokeId (h : Unreported enrollments) (id : ℕ) (reason : String) :
    Unreported (revokeId id reason now enrollments) := by
  refine h.map fun e _ hlive => ?_
  split_ifs at hlive ⊢ with hid
  · simp at hlive
  · exact ⟨hlive, rfl⟩

/-- Enrolling leaves one live enrollment, which has not reported. -/
lemma unreported_enroll (id : ℕ) (req : EnrollRequest) : Unreported (enroll id req now enrollments) := by
  intro e he hlive
  rcases List.mem_append.mp he with he | he
  · obtain ⟨old, -, rfl⟩ := List.mem_map.mp he
    simp at hlive
  · obtain rfl := List.mem_singleton.mp he
    rfl

/-- Where nothing fails, leaving revokes every live enrollment. -/
lemma leaveEnrollments_unreported {faults : LeaveFaults} (hlist : faults.list = false)
    (hrevoke : ∀ e ∈ enrollments, e.live → e.id ∉ faults.revoke) :
    Unreported (leaveEnrollments faults now enrollments) := by
  intro e he hlive
  simp only [leaveEnrollments, hlist, Bool.false_eq_true, if_false] at he
  obtain ⟨old, hold, rfl⟩ := List.mem_map.mp he
  split_ifs at hlive with hrevoked
  · simp at hlive
  · exact absurd ⟨hlive, hrevoke old hold hlive⟩ hrevoked

/-- A contestant whose live enrollment has not reported passes with an exemption or a grant only. -/
lemma not_admitted_of_unreported (h : Unreported enrollments) {a : Account} {shell : Shell}
    {incidentOpen : Bool} {dbNow : ℤ} (g : Gate) (req : CheckRequest) (attestOK : Bool)
    (hexempt : (gateState a enrollments shell incidentOpen dbNow).exempt = false)
    (hgrant : (g.effectiveGrant (gateState a enrollments shell incidentOpen dbNow).grant).webOnly =
      false) :
    ¬ Admitted (g.checkInput req (gateState a enrollments shell incidentOpen dbNow) attestOK) now := by
  have hseen : (gateState a enrollments shell incidentOpen dbNow).lastSeenAt = none := by
    show (enrollments.find? Enrollment.live).bind (fun e : Enrollment => e.row.lastSeenAt) = none
    cases hfind : enrollments.find? Enrollment.live with
    | none => rfl
    | some e => exact h e (List.mem_of_find?_eq_some hfind) (List.find?_some hfind)
  simp [Admitted, Gate.checkInput, hexempt, hgrant, hseen]

end Statements

end Agent

end Labyrithm
