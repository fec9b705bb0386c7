import Labyrithm.Agent.Gate

/-!
# Better evidence

`Decide` on two inputs that differ in what speaks for the contestant only.  The agent's silence is
forgiven during an incident; once it reports, a required attestation is asked for again.  So there is
one way in which better evidence can be refused.

* `Strengthens.heard` — an agent that is heard of is still heard of.
* **`decide_strengthened`** — an input that is allowed stays allowed, unless an incident forgave the
  silence of an agent that now reports, and an attestation is required and missing.
-/

namespace Labyrithm

namespace Agent

/-- The input `j` is `i` with a later report, a valid attestation in place of none, the agent not stopped
in place of stopped, or the shell corroborated. -/
structure Strengthens (i j : GateInput) (now : Instant) : Prop where
  lastSeenAt : ∀ seen, i.lastSeenAt = some seen → ∃ later, j.lastSeenAt = some later ∧ seen ≤ later
  stoppedAt : j.stoppedAt = none ∨ j.stoppedAt = i.stoppedAt
  attestOK : i.attestOK → j.attestOK
  shell : Corroborated i now → Corroborated j now
  rest : j = { i with
    lastSeenAt := j.lastSeenAt
    stoppedAt := j.stoppedAt
    attestOK := j.attestOK
    shellAlive := j.shellAlive
    shellSeenAt := j.shellSeenAt }

/-- The agent has reported, and reports now. -/
def GateInput.Heard (i : GateInput) (now : Instant) : Prop :=
  ∃ seen, i.lastSeenAt = some seen ∧ i.Reporting now seen

/-- Only the incident spoke for `i`, and `j` is asked for an attestation that is not there. -/
structure IncidentEnds (i j : GateInput) (now : Instant) : Prop where
  exempt : i.exempt = false
  webOnly : i.grant.webOnly = false
  silent : ¬ i.Heard now
  heard : j.Heard now
  requireAttest : i.requireAttest = true
  attestOK : j.attestOK = false

variable {i j : GateInput} {now seen later : Instant} {net : Net}

lemma wholeSeconds_mono {d d' : ℤ} (h : d ≤ d') : wholeSeconds d ≤ wholeSeconds d' :=
  Int.tdiv_le_tdiv (by decide) h

namespace Strengthens

lemma exempt (h : Strengthens i j now) : j.exempt = i.exempt := by rw [h.rest]

lemma grant (h : Strengthens i j now) : j.grant = i.grant := by rw [h.rest]

lemma hasAgent (h : Strengthens i j now) : j.hasAgent = i.hasAgent := by rw [h.rest]

lemma requireAttest (h : Strengthens i j now) : j.requireAttest = i.requireAttest := by rw [h.rest]

lemma incidentOpen (h : Strengthens i j now) : j.incidentOpen = i.incidentOpen := by rw [h.rest]

lemma maxStale (h : Strengthens i j now) : j.maxStale = i.maxStale := by
  rw [h.rest]
  rfl

/-- An agent that is heard of is still heard of. -/
lemma heard (h : Strengthens i j now) (hi : i.Heard now) : j.Heard now := by
  obtain ⟨seen, hseen, hstopped, hstale⟩ := hi
  obtain ⟨later, hlater, hle⟩ := h.lastSeenAt seen hseen
  have hago : wholeSeconds (now - later) ≤ wholeSeconds (now - seen) :=
    wholeSeconds_mono (Int.sub_le_sub_left hle now)
  have hstop : j.stoppedAt = none := h.stoppedAt.elim id fun heq => heq.trans hstopped
  refine ⟨later, hlater, hstop, ?_⟩
  rw [h.maxStale]
  exact Int.le_trans hago hstale

end Strengthens

/-- Who is admitted, by whether the agent is heard of. -/
lemma admitted_iff_heard : Admitted i now ↔ i.exempt ∨ i.grant.webOnly ∨
    i.hasAgent ∧ i.lastSeenAt ≠ none ∧
      ((i.Heard now ∧ (i.attestOK ∨ ¬ i.requireAttest)) ∨ (¬ i.Heard now ∧ i.incidentOpen)) := by
  cases hseen : i.lastSeenAt with
  | none => simp [Admitted, hseen]
  | some seen =>
      by_cases hreporting : i.Reporting now seen
      · simp [Admitted, GateInput.Heard, hseen, hreporting]
      · simp [Admitted, GateInput.Heard, hseen, hreporting]

/-- A live agent without the attestation that is required is refused for just that. -/
lemma decide_notAttested (hexempt : i.exempt = false) (hwebOnly : i.grant.webOnly = false)
    (hagent : i.hasAgent) (hheard : i.Heard now) (hrequire : i.requireAttest = true)
    (hattest : i.attestOK = false) : (Decide net i now).code = some .notAttested := by
  have hlive : i.agentLive now = true := (agentLive_iff i now).mpr ⟨hagent, hheard⟩
  have hmode : (undecided i now).accessMode ≠ .webOnly := fun hmode => by
    have hmode := (resolveMode_webOnly_iff i _ now).mp hmode
    simp [hwebOnly, hlive] at hmode
  simp [Decide, hexempt, hmode, decideLive, hattest, hrequire]

/-- Where no incident is all that spoke for `i`, better evidence is enough. -/
lemma Strengthens.admitted (h : Strengthens i j now) (hi : Admitted i now)
    (hends : ¬ IncidentEnds i j now) : Admitted j now := by
  rw [admitted_iff_heard, h.exempt, h.grant, h.hasAgent, h.requireAttest, h.incidentOpen]
  by_cases hexempt : i.exempt
  · exact .inl hexempt
  by_cases hwebOnly : i.grant.webOnly
  · exact .inr (.inl hwebOnly)
  obtain ⟨hagent, hseen, hcase⟩ : i.hasAgent ∧ i.lastSeenAt ≠ none ∧ _ := by
    simpa [hexempt, hwebOnly] using admitted_iff_heard.mp hi
  obtain ⟨seen, hseen⟩ := Option.ne_none_iff_exists'.mp hseen
  obtain ⟨later, hlater, -⟩ := h.lastSeenAt seen hseen
  refine .inr (.inr ⟨hagent, by simp [hlater], ?_⟩)
  by_cases hheard : j.Heard now
  · refine .inl ⟨hheard, ?_⟩
    rcases hcase with ⟨-, hattest | hrequire⟩ | ⟨hsilent, -⟩
    · exact .inl (h.attestOK hattest)
    · exact .inr (by simpa using hrequire)
    · -- the silence was forgiven, and is over
      by_contra hnot
      obtain ⟨hattest, hrequire⟩ := not_or.mp hnot
      exact hends ⟨by simpa using hexempt, by simpa using hwebOnly, hsilent, hheard,
        not_not.mp hrequire, by simpa using hattest⟩
  · refine .inr ⟨hheard, ?_⟩
    rcases hcase with ⟨hheard', -⟩ | ⟨-, hopen⟩
    · exact absurd (h.heard hheard') hheard
    · exact hopen

/-- Where it is, the live agent's attestation is missing. -/
lemma IncidentEnds.code (hends : IncidentEnds i j now) (h : Strengthens i j now)
    (hi : Admitted i now) : (Decide net j now).code = some .notAttested := by
  have hagent : i.hasAgent := by
    rcases hi with hexempt | hwebOnly | ⟨hagent, -⟩
    · exact absurd hexempt (by simp [hends.exempt])
    · exact absurd hwebOnly (by simp [hends.webOnly])
    · exact hagent
  exact decide_notAttested (h.exempt.trans hends.exempt) (by rw [h.grant]; exact hends.webOnly)
    (by rw [h.hasAgent]; exact hagent) hends.heard (h.requireAttest.trans hends.requireAttest)
    hends.attestOK

/-- Better evidence is refused in one case only, and the refusal says why. -/
theorem decide_strengthened (h : Strengthens i j now) (hi : (Decide net i now).allowed) :
    ((Decide net j now).allowed ↔ ¬ IncidentEnds i j now)
      ∧ (IncidentEnds i j now → (Decide net j now).code = some .notAttested) := by
  have hadmitted : Admitted i now := (decide_allowed_iff net i now).mp hi
  refine ⟨⟨fun hj hends => ?_, fun hends => ?_⟩, fun hends => hends.code h hadmitted⟩
  · have hcode : (Decide net j now).code = none := (decide_explained net j now).1.mp hj
    rw [hends.code h hadmitted] at hcode
    cases hcode
  · exact (decide_allowed_iff net j now).mpr (h.admitted hadmitted hends)

/-- An incident is open, attestation is required, and the agent was last seen a minute ago. -/
def silentInput : GateInput where
  exempt := false
  exemptReason := ""
  hasAgent := true
  lastSeenAt := some (40 * second)
  stoppedAt := none
  shellAlive := false
  shellSeenAt := none
  attestOK := false
  requireAttest := true
  incidentOpen := true
  claimsDesktop := false
  grant := ⟨false⟩
  accessReason := ""
  clientIP := ""
  clientIPTrusted := false
  agentLanIP := ""
  maxStaleSeconds := 20

/-- The agent reports again. -/
def heardInput : GateInput := { silentInput with lastSeenAt := some (99 * second) }

lemma heardInput_strengthens : Strengthens silentInput heardInput (100 * second) where
  lastSeenAt := fun seen hseen => ⟨99 * second, rfl, by
    obtain rfl := Option.some.inj hseen
    decide⟩
  stoppedAt := .inl rfl
  attestOK := id
  shell := id
  rest := rfl

theorem decide_strengthened_sample :
    ((Decide sampleNet heardInput (100 * second)).allowed
      ↔ ¬ IncidentEnds silentInput heardInput (100 * second)) :=
  (decide_strengthened heardInput_strengthens (by decide)).1

/-- The report of a live agent turns the decision into a refusal. -/
theorem report_refused : ¬ ∀ (net : Net) (i j : GateInput) (now : Instant),
    Strengthens i j now → (Decide net i now).allowed → (Decide net j now).allowed := by
  intro hall
  have hallowed := hall sampleNet _ _ _ heardInput_strengthens (by decide)
  exact absurd hallowed (by decide)

end Agent

end Labyrithm
