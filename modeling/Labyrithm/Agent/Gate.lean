import Mathlib.Data.Int.Notation
import Mathlib.Data.List.Basic
import Mathlib.Tactic.Common

/-!
# The admission gate

`backend/internal/agent/gate.go` decides whether a scored submission may proceed, from the state of
the contestant's proctor agent.  `Decide` is pure; `Gate.Check` and `Gate.Status` assemble its input,
the one for a submission, the other for the portal's polling, which reads through a short cache.

Instants are nanoseconds and differences are exact.  `Net` holds the parsers of Go's `strings` and
`net` packages, which the gate uses for the evidence it records and for nothing else.

* `Admitted` — who is let through, without reference to the order of the checks.
* **`decide_explained`** — whoever is refused gets a code and a remedy.
* **`admission_gate`** — `Decide` lets exactly these through, reports the desktop mode only when the
  agent corroborates it, and `Status` and `Check` agree.
-/

namespace Labyrithm

namespace Agent

/-- Nanoseconds since the epoch. -/
abbrev Instant := ℤ

def second : ℤ := 1000000000

/-! ## Addresses -/

/-- `net.IP`: four bytes, or eight groups of sixteen bits. -/
inductive IP
  | v4 (a b c d : ℕ)
  | v6 (groups : List ℕ)

/-- 10/8, 172.16/12, 192.168/16, fc00::/7. -/
def IP.isPrivate : IP → Bool
  | v4 a b _ _ => a = 10 ∨ (a = 172 ∧ b / 16 = 1) ∨ (a = 192 ∧ b = 168)
  | v6 groups => (groups.headD 0) / 512 = 126

/-- 127/8, ::1. -/
def IP.isLoopback : IP → Bool
  | v4 a _ _ _ => a = 127
  | v6 groups => groups = [0, 0, 0, 0, 0, 0, 0, 1]

/-- 169.254/16, fe80::/10. -/
def IP.isLinkLocalUnicast : IP → Bool
  | v4 a b _ _ => a = 169 ∧ b = 254
  | v6 groups => (groups.headD 0) / 64 = 1018

/-- `strings.TrimSpace`, the host of `net.SplitHostPort`, `net.ParseIP`. -/
structure Net where
  trimSpace : String → String
  splitHostPort : String → Option String
  parseIP : String → Option IP

def Net.privateIP (net : Net) (raw : String) : Bool :=
  let host := net.trimSpace raw
  if host = "" then false
  else
    match net.parseIP ((net.splitHostPort host).getD host) with
    | none => false
    | some ip => ip.isPrivate || ip.isLoopback || ip.isLinkLocalUnicast

/-! ## Access modes -/

inductive AccessMode
  | desktopShell
  | webWithAgent
  | webOnly
  deriving DecidableEq, Repr

def AccessMode.name : AccessMode → String
  | desktopShell => "DESKTOP"
  | webWithAgent => "WEB_WITH_AGENT"
  | webOnly => "WEB_ONLY"

def allAccessModes : List AccessMode := [.desktopShell, .webWithAgent, .webOnly]

structure AccessGrant where
  webOnly : Bool
  deriving DecidableEq, Repr

def AccessGrant.allows (g : AccessGrant) : AccessMode → Bool
  | .desktopShell | .webWithAgent => true
  | .webOnly => g.webOnly

def AccessGrant.modes (g : AccessGrant) : List AccessMode := allAccessModes.filter g.allows

def unionAccessGrant (a b : AccessGrant) : AccessGrant := ⟨a.webOnly || b.webOnly⟩

/-! ## `Decide` -/

/-- The codes a refusal carries. -/
inductive Code
  | agentMissing
  | agentStale
  | agentStopped
  | notAttested
  deriving DecidableEq, Repr

def Code.text : Code → String
  | agentMissing => "AGENT_MISSING"
  | agentStale => "AGENT_STALE"
  | agentStopped => "AGENT_STOPPED"
  | notAttested => "NOT_ATTESTED"

inductive ActiveClient
  | desktopShell
  | browser
  deriving DecidableEq, Repr

structure GateInput where
  exempt : Bool
  exemptReason : String
  hasAgent : Bool
  lastSeenAt : Option Instant
  stoppedAt : Option Instant
  shellAlive : Bool
  shellSeenAt : Option Instant
  attestOK : Bool
  requireAttest : Bool
  incidentOpen : Bool
  claimsDesktop : Bool
  grant : AccessGrant
  accessReason : String
  clientIP : String
  clientIPTrusted : Bool
  agentLanIP : String
  maxStaleSeconds : ℤ

/-- A value of a finding's evidence. -/
inductive Evidence
  | text (s : String)
  | flag (b : Bool)
  | number (n : ℤ)
  deriving DecidableEq, Repr

structure Finding where
  ruleId : String
  weight : ℤ
  evidence : List (String × Evidence)
  deriving DecidableEq, Repr

structure Decision where
  allowed : Bool
  code : Option Code
  exempt : Bool
  attested : Bool
  activeClient : ActiveClient
  accessMode : AccessMode
  grant : AccessGrant
  allowedModes : List AccessMode
  lastSeenAt : Option Instant
  secondsSincePing : ℤ
  remedy : String
  findings : List Finding
  deriving DecidableEq, Repr

/-- `GateMaxStaleSeconds`. -/
def gateMaxStaleSeconds : ℤ := 20

/-- `ShellGraceSeconds`. -/
def shellGraceSeconds : ℤ := gateMaxStaleSeconds

def shellPresent (i : GateInput) (now : Instant) : Bool :=
  i.shellAlive || i.shellSeenAt.any fun seen => now - seen ≤ shellGraceSeconds * second

def resolveMode (i : GateInput) (agentLive : Bool) (now : Instant) : AccessMode :=
  if i.grant.allows .webOnly then .webOnly
  else if !agentLive then .webOnly
  else if i.claimsDesktop && shellPresent i now then .desktopShell
  else .webWithAgent

/-- `maxStale` of `Decide`: the threshold given, or the default. -/
def GateInput.maxStale (i : GateInput) : ℤ :=
  if i.maxStaleSeconds ≤ 0 then gateMaxStaleSeconds else i.maxStaleSeconds

/-- `int(now.Sub(lastSeen).Seconds())`: whole seconds, towards zero. -/
def wholeSeconds (d : ℤ) : ℤ := d.tdiv second

/-- `d.SecondsSincePing`, 0 before the first report. -/
def GateInput.secondsSincePing (i : GateInput) (now : Instant) : ℤ :=
  match i.lastSeenAt with
  | none => 0
  | some seen => wholeSeconds (now - seen)

def GateInput.agentLive (i : GateInput) (now : Instant) : Bool :=
  i.hasAgent ∧ i.stoppedAt = none ∧ i.lastSeenAt ≠ none ∧ i.secondsSincePing now ≤ i.maxStale

/-- The decision before any of the checks. -/
def undecided (i : GateInput) (now : Instant) : Decision :=
  let mode := resolveMode i (i.agentLive now) now
  { allowed := false
    code := none
    exempt := false
    attested := i.attestOK
    activeClient := if mode = .desktopShell then .desktopShell else .browser
    accessMode := mode
    grant := i.grant
    allowedModes := i.grant.modes
    lastSeenAt := i.lastSeenAt
    secondsSincePing := i.secondsSincePing now
    remedy := ""
    findings := [] }

/-- The branch of `Decide` for `ModeWebOnly`: a grant, or no live agent. -/
def decideWebOnly (i : GateInput) (d : Decision) : Decision :=
  if i.grant.allows .webOnly then
    { d with
      allowed := true
      findings := d.findings ++ [⟨"tel.web_only_grant", 15, [
        ("reason", .text i.accessReason),
        ("has_agent", .flag i.hasAgent),
        ("seconds_since_ping", .number d.secondsSincePing)]⟩] }
  else if !i.hasAgent ∨ i.lastSeenAt = none then
    { d with
      code := some .agentMissing
      remedy := "Install and start the proctor client, then sign in once to enroll it."
      findings := d.findings ++ [⟨"tel.no_agent_submit", 25, [
        ("reason", .text "no enrolled agent has ever reported")]⟩] }
  -- A fleet-wide outage is ours, not the contestant's.
  else if i.incidentOpen then
    { d with
      allowed := true
      remedy := "Proctoring telemetry is degraded server-side; your submission was accepted." }
  else
    { d with
      code := some (if i.stoppedAt ≠ none then .agentStopped else .agentStale)
      remedy :=
        if i.stoppedAt ≠ none then
          "You stopped proctoring. Start the proctor client to submit again."
        else "The proctor client is not reporting. Restart it, then submit again."
      findings := d.findings ++ [⟨"tel.no_agent_submit", 25, [
        ("seconds_since_ping", .number d.secondsSincePing),
        ("stopped", .flag (i.stoppedAt ≠ none))]⟩] }

/-- What is recorded of a submission without an attestation. -/
def attestEvidence (net : Net) (i : GateInput) : List (String × Evidence) :=
  ("agent_lan_ip", .text i.agentLanIP) ::
    if i.clientIPTrusted then
      ("client_ip", .text i.clientIP) ::
        if net.privateIP i.agentLanIP ∧ net.privateIP i.clientIP then
          [("ip_comparable", .flag true), ("ip_mismatch", .flag (i.agentLanIP ≠ i.clientIP))]
        else [("ip_comparable", .flag false)]
    else [("client_ip_unknown", .text "portal did not forward a trusted client address")]

/-- The end of `Decide`: note a gap, and allow. -/
def decideAllowed (d : Decision) : Decision :=
  { d with
    allowed := true
    findings := d.findings ++
      if d.secondsSincePing > 30 then
        [⟨"tel.gap", 10, [
          ("seconds_since_ping", .number d.secondsSincePing),
          ("access_mode", .text d.accessMode.name)]⟩]
      else [] }

/-- `tel.web_client`, which weighs nothing: the browser beside a running agent is standard. -/
def noteWebClient (i : GateInput) (d : Decision) : Decision :=
  if d.accessMode = .webWithAgent then
    { d with findings := d.findings ++ [⟨"tel.web_client", 0, [
        ("reason", .text "submitted from the web portal with proctor agent running"),
        ("claims_shell", .flag i.claimsDesktop),
        ("shell_alive", .flag i.shellAlive)]⟩] }
  else d

/-- The rest of `Decide`, for a live agent. -/
def decideLive (net : Net) (i : GateInput) (d : Decision) : Decision :=
  let d := noteWebClient i d
  if i.attestOK then decideAllowed d
  else
    let d := { d with findings := d.findings ++ [⟨"tel.no_attest", 20, attestEvidence net i⟩] }
    if i.requireAttest then
      { d with
        code := some .notAttested
        remedy := "Submit from the proctor client, or reload the portal so it can reach the agent." }
    else decideAllowed d

def Decide (net : Net) (i : GateInput) (now : Instant) : Decision :=
  let d := undecided i now
  if i.exempt then
    { d with
      allowed := true
      exempt := true
      findings := d.findings ++ [⟨"tel.exempt", 15, [("reason", .text i.exemptReason)]⟩] }
  else if d.accessMode = .webOnly then decideWebOnly i d
  else decideLive net i d

/-! ## `Check` and `Status` -/

structure GateState where
  exempt : Bool
  exemptReason : String
  hasAgent : Bool
  lastSeenAt : Option Instant
  stoppedAt : Option Instant
  loopbackPort : ℕ
  lanIP : String
  shellAlive : Bool
  shellSeenAt : Option Instant
  incidentOpen : Bool
  grant : AccessGrant
  accessReason : String

/-- What the gate reads of the contest's settings. -/
structure Settings where
  requireAgentAttest : Bool
  contestAccessGrant : AccessGrant
  gateMaxStaleSeconds : ℤ

/-- `gateCacheEntry`. -/
structure GateCacheEntry where
  state : GateState
  expiresAt : Instant

/-- The gate: its settings, if any, and the cached states by user id. -/
structure Gate where
  settings : Option Settings
  cache : List (String × GateCacheEntry)

def Gate.maxStaleSeconds (g : Gate) : ℤ :=
  match g.settings with
  | none => Agent.gateMaxStaleSeconds
  | some s => s.gateMaxStaleSeconds

def Gate.effectiveGrant (g : Gate) (granted : AccessGrant) : AccessGrant :=
  match g.settings with
  | none => granted
  | some s => unionAccessGrant s.contestAccessGrant granted

structure CheckRequest where
  userId : String
  claimsDesktop : Bool
  clientIP : String
  clientIPTrusted : Bool
  attestNonce : String

/-- The input `Check` assembles. -/
def Gate.checkInput (g : Gate) (req : CheckRequest) (state : GateState) (attestOK : Bool) :
    GateInput where
  exempt := state.exempt
  exemptReason := state.exemptReason
  hasAgent := state.hasAgent
  lastSeenAt := state.lastSeenAt
  stoppedAt := state.stoppedAt
  shellAlive := state.shellAlive
  shellSeenAt := state.shellSeenAt
  attestOK := attestOK
  requireAttest := g.settings.any Settings.requireAgentAttest
  incidentOpen := state.incidentOpen
  claimsDesktop := req.claimsDesktop
  grant := g.effectiveGrant state.grant
  accessReason := state.accessReason
  clientIP := req.clientIP
  clientIPTrusted := req.clientIPTrusted
  agentLanIP := state.lanIP
  maxStaleSeconds := g.maxStaleSeconds

/-- The input `Status` assembles: attestation is a property of a submission. -/
def Gate.statusInput (g : Gate) (claimsDesktop : Bool) (state : GateState) : GateInput where
  exempt := state.exempt
  exemptReason := state.exemptReason
  hasAgent := state.hasAgent
  lastSeenAt := state.lastSeenAt
  stoppedAt := state.stoppedAt
  shellAlive := state.shellAlive
  shellSeenAt := state.shellSeenAt
  attestOK := true
  requireAttest := false
  incidentOpen := state.incidentOpen
  claimsDesktop := claimsDesktop
  grant := g.effectiveGrant state.grant
  accessReason := state.accessReason
  clientIP := ""
  clientIPTrusted := false
  agentLanIP := ""
  maxStaleSeconds := g.maxStaleSeconds

/-- The repository, as far as the gate calls it; errors are texts. -/
structure Repository where
  gateState : String → Except String GateState
  verifyNonce : String → String → Except String Bool

/-- `Gate.Check`; its findings go to the review timeline. -/
def Gate.check (net : Net) (repo : Repository) (g : Gate) (req : CheckRequest) (now : Instant) :
    Except String Decision := do
  let state ← repo.gateState req.userId
  let attestOK ← if req.attestNonce ≠ "" then repo.verifyNonce req.userId req.attestNonce else pure false
  return Decide net (g.checkInput req state attestOK) now

/-- The state `Status` decides on, and the cache it leaves: a cached state that has not expired, or
the stored one, kept for two seconds. -/
def Gate.statusState (repo : Repository) (g : Gate) (userId : String) (now : Instant) :
    Except String (GateState × List (String × GateCacheEntry)) :=
  match (g.cache.lookup userId).filter fun e => now < e.expiresAt with
  | some e => .ok (e.state, g.cache)
  | none => do
      let state ← repo.gateState userId
      return (state, (userId, ⟨state, now + 2 * second⟩) :: g.cache)

/-- `Gate.Status`: the decision without its findings, the loopback port, and the cache.  The clock is
read at the start and again for the decision. -/
def Gate.status (net : Net) (repo : Repository) (g : Gate) (userId : String) (claimsDesktop : Bool)
    (start now : Instant) : Except String (Decision × ℕ × List (String × GateCacheEntry)) := do
  let (state, cache) ← g.statusState repo userId start
  return ({ Decide net (g.statusInput claimsDesktop state) now with findings := [] },
    state.loopbackPort, cache)

/-! ## Who is admitted -/

/-- The agent reported at `seen`, recently enough, and has not been stopped since. -/
def GateInput.Reporting (i : GateInput) (now seen : Instant) : Prop :=
  i.stoppedAt = none ∧ wholeSeconds (now - seen) ≤ i.maxStale

instance (i : GateInput) (now seen : Instant) : Decidable (i.Reporting now seen) :=
  inferInstanceAs (Decidable (_ ∧ _))

/-- Who may submit: the exempt, those allowed without an agent, and those whose agent has reported and
either still does, attested if that is asked for, or fell silent during an incident. -/
def Admitted (i : GateInput) (now : Instant) : Prop :=
  i.exempt ∨ i.grant.webOnly ∨
    i.hasAgent ∧ ∃ seen, i.lastSeenAt = some seen ∧
      if i.Reporting now seen then i.attestOK ∨ ¬ i.requireAttest else i.incidentOpen

/-- The agent places its shell on the machine: alive in its newest report, or seen in the grace. -/
def Corroborated (i : GateInput) (now : Instant) : Prop :=
  i.shellAlive ∨ ∃ seen, i.shellSeenAt = some seen ∧ now - seen ≤ shellGraceSeconds * second

@[simp] lemma allows_webOnly (g : AccessGrant) : g.allows .webOnly = g.webOnly := rfl

lemma shellPresent_iff (i : GateInput) (now : Instant) :
    shellPresent i now ↔ Corroborated i now := by
  simp [shellPresent, Corroborated, Option.any_eq_true]

/-- Live is: enrolled, has reported, and reporting. -/
lemma agentLive_iff (i : GateInput) (now : Instant) :
    i.agentLive now ↔ i.hasAgent ∧ ∃ seen, i.lastSeenAt = some seen ∧ i.Reporting now seen := by
  cases h : i.lastSeenAt with
  | none => simp [GateInput.agentLive, h]
  | some seen =>
    simp [GateInput.agentLive, GateInput.secondsSincePing, GateInput.Reporting, h]

/-- The web-only mode is what a grant gives, and what is left without a live agent. -/
lemma resolveMode_webOnly_iff (i : GateInput) (live : Bool) (now : Instant) :
    resolveMode i live now = .webOnly ↔ i.grant.webOnly ∨ live = false := by
  cases h : i.grant.webOnly <;> cases live <;> simp [resolveMode, h]
  split <;> simp

/-- The desktop mode takes the claim, the live agent and the shell. -/
lemma resolveMode_desktopShell (i : GateInput) (live : Bool) (now : Instant)
    (h : resolveMode i live now = .desktopShell) :
    live ∧ i.claimsDesktop ∧ shellPresent i now := by
  cases hg : i.grant.webOnly <;> cases live <;> simp [resolveMode, hg] at h
  exact ⟨rfl, h⟩

@[simp] lemma noteWebClient_allowed (i : GateInput) (d : Decision) :
    (noteWebClient i d).allowed = d.allowed := by
  unfold noteWebClient
  split <;> rfl

@[simp] lemma noteWebClient_accessMode (i : GateInput) (d : Decision) :
    (noteWebClient i d).accessMode = d.accessMode := by
  unfold noteWebClient
  split <;> rfl

@[simp] lemma decideAllowed_allowed (d : Decision) : (decideAllowed d).allowed = true := rfl

@[simp] lemma decideAllowed_accessMode (d : Decision) :
    (decideAllowed d).accessMode = d.accessMode := rfl

lemma decideWebOnly_accessMode (i : GateInput) (d : Decision) :
    (decideWebOnly i d).accessMode = d.accessMode := by
  unfold decideWebOnly
  split_ifs <;> rfl

lemma decideLive_accessMode (net : Net) (i : GateInput) (d : Decision) :
    (decideLive net i d).accessMode = d.accessMode := by
  unfold decideLive
  split_ifs <;> simp

/-- No check changes the mode that was resolved first. -/
lemma decide_accessMode (net : Net) (i : GateInput) (now : Instant) :
    (Decide net i now).accessMode = resolveMode i (i.agentLive now) now := by
  simp only [Decide]
  split_ifs
  · rfl
  · exact decideWebOnly_accessMode i _
  · exact decideLive_accessMode net i _

/-- Without a grant, a gap in the reports is forgiven to an enrolled agent during an incident. -/
lemma decideWebOnly_allowed (i : GateInput) (d : Decision) (hd : d.allowed = false) :
    (decideWebOnly i d).allowed ↔
      i.grant.webOnly ∨ i.hasAgent ∧ i.lastSeenAt ≠ none ∧ i.incidentOpen := by
  by_cases hg : i.grant.webOnly
  · simp [decideWebOnly, hg]
  by_cases hm : i.hasAgent = false ∨ i.lastSeenAt = none
  · simp only [decideWebOnly, allows_webOnly, hg, Bool.not_eq_eq_eq_not, Bool.not_true, hm, hd]
    grind
  have hm' : i.hasAgent = true ∧ i.lastSeenAt ≠ none := by simpa [not_or] using hm
  by_cases ho : i.incidentOpen <;> simp [decideWebOnly, hg, hm', ho, hd]

/-- A live agent is let through unless an attestation is required and missing. -/
lemma decideLive_allowed (net : Net) (i : GateInput) (d : Decision) (hd : d.allowed = false) :
    (decideLive net i d).allowed ↔ i.attestOK ∨ ¬ i.requireAttest := by
  cases ha : i.attestOK <;> cases hr : i.requireAttest <;> simp [decideLive, ha, hr, hd]

lemma undecided_allowed (i : GateInput) (now : Instant) : (undecided i now).allowed = false := rfl

/-- `Decide` lets through exactly those who are `Admitted`. -/
lemma decide_allowed_iff (net : Net) (i : GateInput) (now : Instant) :
    (Decide net i now).allowed ↔ Admitted i now := by
  by_cases he : i.exempt
  · simp [Decide, he, Admitted]
  have hmode : (undecided i now).accessMode = resolveMode i (i.agentLive now) now := rfl
  have hlive := agentLive_iff i now
  by_cases hw : (undecided i now).accessMode = .webOnly
  · -- the grant, or an agent that is not live: only an incident is left
    rw [hmode, resolveMode_webOnly_iff] at hw
    have hw' : (undecided i now).accessMode = .webOnly := by rwa [hmode, resolveMode_webOnly_iff]
    simp only [Decide, he, hw', Bool.false_eq_true, ↓reduceIte,
      decideWebOnly_allowed i _ (undecided_allowed i now), Admitted, false_or]
    cases hl : i.lastSeenAt with
    | none => simp
    | some seen =>
      by_cases hr : i.Reporting now seen
      · simp [hl, hr] at hlive ⊢
        grind
      · simp [hr]
  · -- a live agent without the grant: only the attestation is left
    have hg : i.grant.webOnly = false ∧ i.agentLive now = true := by
      rw [hmode, resolveMode_webOnly_iff] at hw
      grind
    obtain ⟨ha, seen, hseen, hr⟩ := hlive.mp hg.2
    simp [Decide, he, hw, decideLive_allowed net i _ (undecided_allowed i now), Admitted, hg.1, ha,
      hseen, hr]

/-- `Decide` reports the desktop mode only with the claim, the live agent and its word for the shell. -/
lemma decide_desktopShell (net : Net) (i : GateInput) (now : Instant)
    (h : (Decide net i now).accessMode = .desktopShell) :
    (i.hasAgent ∧ ∃ seen, i.lastSeenAt = some seen ∧ i.Reporting now seen) ∧
      i.claimsDesktop ∧ Corroborated i now := by
  rw [decide_accessMode] at h
  obtain ⟨hlive, hclaim, hshell⟩ := resolveMode_desktopShell i _ now h
  exact ⟨(agentLive_iff i now).mp hlive, hclaim, (shellPresent_iff i now).mp hshell⟩

/-- What a decision says of itself: refused, it has a code and a remedy; allowed, it has no code. -/
def Decision.Explained (d : Decision) : Prop :=
  (d.allowed ↔ d.code = none) ∧ (d.allowed = false → d.remedy ≠ "")

lemma decideAllowed_explained (d : Decision) (hd : d.code = none) : (decideAllowed d).Explained := by
  simp [Decision.Explained, decideAllowed, hd]

lemma decideWebOnly_explained (i : GateInput) (d : Decision) (hc : d.code = none)
    (ha : d.allowed = false) : (decideWebOnly i d).Explained := by
  unfold decideWebOnly
  split_ifs <;> simp [Decision.Explained, hc, ha]

lemma decideLive_explained (net : Net) (i : GateInput) (d : Decision) (hc : d.code = none)
    (ha : d.allowed = false) : (decideLive net i d).Explained := by
  have hc' : (noteWebClient i d).code = none := by
    unfold noteWebClient
    split <;> exact hc
  unfold decideLive
  split_ifs
  · exact decideAllowed_explained _ hc'
  · simp [Decision.Explained, ha]
  · exact decideAllowed_explained _ hc'

/-- A contestant who is refused is told why and what to do. -/
theorem decide_explained (net : Net) (i : GateInput) (now : Instant) :
    (Decide net i now).Explained := by
  simp only [Decide]
  split_ifs
  · simp [Decision.Explained, undecided]
  · exact decideWebOnly_explained i _ rfl rfl
  · exact decideLive_explained net i _ rfl rfl

/-! ## `Status` and `Check` -/

/-- With an attestation at hand, what `Check` and `Status` ask about a state comes to the same. -/
lemma admitted_statusInput (g : Gate) (req : CheckRequest) (claimsDesktop : Bool) (state : GateState)
    (now : Instant) :
    Admitted (g.checkInput req state true) now ↔ Admitted (g.statusInput claimsDesktop state) now := by
  simp only [Admitted, Gate.checkInput, Gate.statusInput, GateInput.Reporting, GateInput.maxStale,
    true_or]
  rfl

/-- `Status` decides on the stored state unless a fresh cached one differs from it. -/
lemma statusState_eq (repo : Repository) (g : Gate) (userId : String) (start : Instant)
    (state : GateState) (hstate : repo.gateState userId = .ok state)
    (hcache : ∀ e, g.cache.lookup userId = some e → start < e.expiresAt → e.state = state) :
    ∃ cache, g.statusState repo userId start = .ok (state, cache) := by
  unfold Gate.statusState
  split
  · next e he =>
    obtain ⟨hlookup, hfresh⟩ := Option.filter_eq_some_iff.mp he
    exact ⟨g.cache, by rw [hcache e hlookup (by simpa using hfresh)]⟩
  · exact ⟨_, by simp only [hstate]; rfl⟩

/-- `Status` and `Check` with a valid nonce, reading one state at one time, allow or refuse alike,
whatever window each is asked about. -/
lemma status_agrees (net : Net) (repo : Repository) (g : Gate) (req : CheckRequest)
    (claimsDesktop : Bool) (start now : Instant) (state : GateState)
    (hstate : repo.gateState req.userId = .ok state) (hnonce : req.attestNonce ≠ "")
    (hvalid : repo.verifyNonce req.userId req.attestNonce = .ok true)
    (hcache : ∀ e, g.cache.lookup req.userId = some e → start < e.expiresAt → e.state = state) :
    ∃ d d' cache,
      g.check net repo req now = .ok d ∧
      g.status net repo req.userId claimsDesktop start now = .ok (d', state.loopbackPort, cache) ∧
      d.allowed = d'.allowed := by
  obtain ⟨cache, hs⟩ := statusState_eq repo g req.userId start state hstate hcache
  refine ⟨Decide net (g.checkInput req state true) now,
    { Decide net (g.statusInput claimsDesktop state) now with findings := [] }, cache, ?_, ?_, ?_⟩
  · simp only [Gate.check, hstate, hvalid, if_pos hnonce]
    rfl
  · simp only [Gate.status, hs]
    rfl
  · rw [Bool.eq_iff_iff, decide_allowed_iff, decide_allowed_iff]
    exact admitted_statusInput g req claimsDesktop state now

/-- `Decide` allows exactly whom it should, reports the desktop client only where the agent
corroborates it, and what the portal shows is what a submission meets. -/
theorem admission_gate (net : Net) :
    (∀ i now, (Decide net i now).allowed ↔ Admitted i now) ∧
    (∀ i now, (Decide net i now).accessMode = .desktopShell →
      (i.hasAgent ∧ ∃ seen, i.lastSeenAt = some seen ∧ i.Reporting now seen) ∧
        i.claimsDesktop ∧ Corroborated i now) ∧
    (∀ (repo : Repository) (g : Gate) (req : CheckRequest) (claimsDesktop : Bool)
      (start now : Instant) (state : GateState),
      repo.gateState req.userId = .ok state → req.attestNonce ≠ "" →
      repo.verifyNonce req.userId req.attestNonce = .ok true →
      (∀ e, g.cache.lookup req.userId = some e → start < e.expiresAt → e.state = state) →
      ∃ d d' cache,
        g.check net repo req now = .ok d ∧
        g.status net repo req.userId claimsDesktop start now = .ok (d', state.loopbackPort, cache) ∧
        d.allowed = d'.allowed) :=
  ⟨decide_allowed_iff net, decide_desktopShell net, status_agrees net⟩

/-! ## A contestant at the desktop client -/

/-- The parsers on addresses without blanks and ports. -/
def sampleNet : Net where
  trimSpace s := s
  splitHostPort _ := none
  parseIP s := if s = "10.0.0.7" then some (.v4 10 0 0 7) else none

/-- Enrolled, reported at second 90, the shell alive, no grant. -/
def sampleState : GateState where
  exempt := false
  exemptReason := ""
  hasAgent := true
  lastSeenAt := some (90 * second)
  stoppedAt := none
  loopbackPort := 43117
  lanIP := "10.0.0.7"
  shellAlive := true
  shellSeenAt := none
  incidentOpen := false
  grant := ⟨false⟩
  accessReason := ""

def sampleRepository : Repository where
  gateState _ := .ok sampleState
  verifyNonce _ nonce := .ok (nonce = "n-1")

/-- Attestation required, no floor, twenty seconds. -/
def sampleGate : Gate := ⟨some ⟨true, ⟨false⟩, 20⟩, []⟩

def sampleRequest : CheckRequest := ⟨"u1", true, "10.0.0.7", true, "n-1"⟩

/-- At second 100 she is at the desktop client, and both paths let her through. -/
theorem admission_gate_sample :
    Corroborated (sampleGate.checkInput sampleRequest sampleState true) (100 * second) ∧
    ∃ d d' cache,
      sampleGate.check sampleNet sampleRepository sampleRequest (100 * second) = .ok d ∧
      sampleGate.status sampleNet sampleRepository "u1" false (100 * second) (100 * second) =
        .ok (d', 43117, cache) ∧
      d.allowed = d'.allowed :=
  ⟨((admission_gate sampleNet).2.1 _ _ (by decide)).2.2,
    (admission_gate sampleNet).2.2 sampleRepository sampleGate sampleRequest false _ _ sampleState rfl
      (by decide) rfl (by simp [sampleGate])⟩

end Agent

end Labyrithm
