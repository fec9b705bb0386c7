import Labyrithm.Account.Users
import Labyrithm.Clock.Snapshot
import Labyrithm.Go.Map
import Labyrithm.Go.Runs
import Labyrithm.Runner.Limits

/-!
# Runs of the contestants

`runCode` of `backend/internal/api/run.go`, which executes code outside of any submission.  A user has one run
at a time, and waits between two of them.  What is remembered for this is kept in two maps, under one lock, and
old times are forgotten when there are many.  The handlers run side by side: `tryAcquireUserRun` and
`releaseUserRun` are one step each, and the time, which is read under the lock, does not go back.

* `runChecks`, `runWithSlot` — what the handler does before it has the slot of its user, and with it.
* `RunSystem.step` — a request arrives, or one of those under way ends, be it in a panic.
* `RunSystem.verdict` — what a request should be told, by the runs that there are and have been.
* `Sound` — what the maps have to do with these.

**`runs_apart`** — in every interleaving requests are answered by the verdict, whatever has been forgotten; the
runs of a user never overlap and start three seconds apart at least; and nothing is executed that the checks
refuse.
-/

namespace Labyrithm

namespace Api

open Go

/-! ## The slots -/

/-- `activeRunUsers` and `userLastRunTimes`. -/
structure RunSlots where
  active : Map String Bool
  lastRun : Map String ℤ

/-- Why `tryAcquireUserRun` refuses. -/
inductive RunRefusal
  | activeRun
  | cooldown
  deriving DecidableEq, Repr

def RunRefusal.reason : RunRefusal → String
  | activeRun => "ACTIVE_RUN"
  | cooldown => "COOLDOWN"

/-- `cooldown`. -/
def runCooldown : ℤ := 3 * second

namespace RunSlots

def new : RunSlots := ⟨∅, ∅⟩

def isActive (s : RunSlots) (userID : String) : Bool := (s.active.get? userID).getD false

/-- The times of the last runs that are kept. -/
def forgetOld (s : RunSlots) (now : ℤ) : RunSlots :=
  if s.lastRun.entries.length > 1024 then
    { s with lastRun := s.lastRun.eraseIf fun t => sub now t > 5 * minute }
  else s

def tryAcquireUserRun (s : RunSlots) (userID : String) (now : ℤ) : RunSlots × Option RunRefusal :=
  let s := s.forgetOld now
  if s.isActive userID then (s, some .activeRun)
  else if (s.lastRun.get? userID).any fun last => sub now last < runCooldown then (s, some .cooldown)
  else (⟨s.active.insert userID true, s.lastRun.insert userID now⟩, none)

def releaseUserRun (s : RunSlots) (userID : String) : RunSlots :=
  { s with active := s.active.erase userID }

end RunSlots

/-! ## The handler -/

/-- `runCodeRequest`. -/
structure RunRequest where
  problemID : List Char
  language : List Char
  code : List Char
  stdin : List Char

/-- The user who asks. -/
structure RunUser where
  id : String
  role : Account.Role

/-- A reply, with what the runner returns where all goes well. -/
inductive RunReply (ρ : Type)
  | error (status : ℕ) (error : String) (code : Option String)
  | result (r : ρ)

/-- `Request`. -/
structure SandboxRequest where
  language : List Char
  code : List Char
  stdin : List Char
  limits : Runner.Limits

/-- The errors of `Run`. -/
inductive SandboxErr
  | unsupportedLanguage (message : String)
  | sandboxUnavailable
  | busy
  | other

/-- What `runCode` reads of a problem. -/
structure ProblemDetail where
  published : Bool
  timeLimitMs : ℤ
  memoryLimitMb : ℤ

/-- `GetByID` and `GetPublishedBySlug`, which may fail. -/
structure Problems where
  getByID : List Char → Option ProblemDetail
  getPublishedBySlug : List Char → Option ProblemDetail

/-- The services that the handler has: the problems and the runner. -/
structure Services (ρ : Type) where
  problems : Option Problems
  runner : Option (SandboxRequest → Except SandboxErr ρ)

section Handler

variable {ρ : Type}

def maxRunCodeLength : ℕ := 100000

def maxRunStdinLength : ℕ := 1000000

def refuse (status : ℕ) (error : String) : RunReply ρ := .error status error none

/-- What a status of the contest says about runs. -/
def closedContest : Clock.Status → Option (RunReply ρ)
  | .notStarted => some (.error 403 "contest has not started yet" (some "CONTEST_NOT_STARTED"))
  | .running => none
  | .paused =>
      some (.error 403 "contest is currently paused by administrators" (some "CONTEST_PAUSED"))
  | .ended => some (.error 403 "contest has ended; code execution is closed" (some "CONTEST_ENDED"))

/-- `runCode` up to `tryAcquireUserRun`: `bound` is the request, or the error of `ShouldBindJSON`, and
`contest` the status, if there is a contest at all. -/
def runChecks (bound : Except String RunRequest) (u : RunUser) (contest : Option Clock.Status) :
    Except (RunReply ρ) RunRequest :=
  match bound with
  | .error err => .error (refuse 400 err)
  | .ok req =>
      if len req.code > maxRunCodeLength then .error (refuse 400 "code too long")
      else if len req.stdin > maxRunStdinLength then .error (refuse 400 "stdin too long")
      else
        match contest.bind fun status => if u.role ≠ .admin then closedContest status else none with
        | some reply => .error reply
        | none => .ok req

def RunRefusal.reply : RunRefusal → RunReply ρ
  | .cooldown =>
      refuse 429 "Run cooldown active. Please wait a few seconds before running code again."
  | .activeRun =>
      refuse 409 "You already have an active code run in progress. Please wait for it to complete."

/-- The reply to what the runner brings. -/
def runReply : Except SandboxErr ρ → RunReply ρ
  | .ok r => .result r
  | .error (.unsupportedLanguage message) => refuse 400 message
  | .error .sandboxUnavailable => refuse 503 "sandbox environment unavailable"
  | .error .busy => refuse 503 "server busy, please retry"
  | .error .other => refuse 500 "execution failed"

/-- The problem that is asked for, if there is one. -/
def Problems.named (problems : Problems) (problemID : List Char) : Option ProblemDetail :=
  (problems.getByID problemID).or (problems.getPublishedBySlug problemID)

/-- The problem that is asked for, if the user may see it. -/
def findProblem (problems : Problems) (problemID : List Char) (role : Account.Role) :
    Option ProblemDetail :=
  (problems.named problemID).filter fun p => p.published || role = .admin

/-- `runCode` with the slot of the user: what is executed, and the reply. -/
def runWithSlot (sv : Services ρ) (u : RunUser) (req : RunRequest) :
    Option SandboxRequest × RunReply ρ :=
  match sv.runner with
  | none => (none, refuse 503 "sandbox execution service unavailable")
  | some run =>
      let execute := fun limits =>
        let request : SandboxRequest := ⟨req.language, req.code, req.stdin, limits⟩
        (some request, runReply (run request))
      match sv.problems with
      | none => execute {}
      | some problems =>
          if req.problemID = [] then execute {}
          else
            match findProblem problems req.problemID u.role with
            | none => (none, refuse 404 "problem not found")
            | some p => execute (Runner.limitsOf p.timeLimitMs p.memoryLimitMb)

end Handler

/-! ## Handlers side by side -/

/-- A handler that has the slot of its user. -/
structure RunHandler where
  user : RunUser
  req : RunRequest
  contest : Option Clock.Status

/-- The maps, the time that was read last, the handlers under way, and what has been: who was given a slot when,
and what was executed for whom, with the problems as they were found. -/
structure RunSystem where
  slots : RunSlots
  clock : ℤ
  handlers : List RunHandler
  grants : List (String × ℤ)
  executed : List (RunHandler × Option Problems × SandboxRequest)

inductive RunEvent (ρ : Type)
  | request (now : ℤ) (bound : Except String RunRequest) (u : RunUser) (contest : Option Clock.Status)
  /-- The handler at a place ends; `none` is a panic, after which the slot is released as well. -/
  | finish (i : ℕ) (sv : Option (Services ρ))

namespace RunSystem

variable {ρ : Type}

def new (start : ℤ) : RunSystem := ⟨.new, start, [], [], []⟩

/-- A request arrives: the reply to it, or `none` where it has the slot of its user. -/
def arrive (s : RunSystem) (now : ℤ) (bound : Except String RunRequest) (u : RunUser)
    (contest : Option Clock.Status) : RunSystem × Option (RunReply ρ) :=
  match @runChecks ρ bound u contest with
  | .error reply => ({ s with clock := now }, some reply)
  | .ok req =>
      match s.slots.tryAcquireUserRun u.id now with
      | (slots, some refusal) => ({ s with slots := slots, clock := now }, some refusal.reply)
      | (slots, none) =>
          ({ s with
              slots := slots
              clock := now
              handlers := s.handlers ++ [⟨u, req, contest⟩]
              grants := s.grants ++ [(u.id, now)] }, none)

def step : RunEvent ρ → RunSystem → Option RunSystem
  | .request now bound u contest, s =>
      if s.clock ≤ now then some (@arrive ρ s now bound u contest).1 else none
  | .finish i sv, s =>
      (s.handlers[i]?).map fun h =>
        { s with
          slots := s.slots.releaseUserRun h.user.id
          handlers := s.handlers.eraseIdx i
          executed := s.executed ++ (sv.bind fun sv =>
            (runWithSlot sv h.user h.req).1.map fun request => (h, sv.problems, request)).toList }

/-- What a request should be told. -/
def verdict (s : RunSystem) (userID : String) (now : ℤ) : Option RunRefusal :=
  if ∃ h ∈ s.handlers, h.user.id = userID then some .activeRun
  else if ∃ g ∈ s.grants, g.1 = userID ∧ now - g.2 < runCooldown then some .cooldown
  else none

end RunSystem

/-! ## What holds in every state -/

section Sound

variable {ρ : Type} {s : RunSystem} {now t : ℤ} {userID : String}

/-- What the checks let through. -/
structure Checked (h : RunHandler) : Prop where
  code : len h.req.code ≤ maxRunCodeLength
  stdin : len h.req.stdin ≤ maxRunStdinLength
  contest : h.user.role ≠ .admin → ∀ status, h.contest = some status → status = .running

/-- What may be executed for a handler: without a problem within no limits of its own, and else within those
of the problem that was asked for, which is published or asked for by an administrator. -/
def Executes (h : RunHandler) (problems : Option Problems) (request : SandboxRequest) : Prop :=
  ∃ limits, request = ⟨h.req.language, h.req.code, h.req.stdin, limits⟩ ∧
    ((problems = none ∨ h.req.problemID = []) ∧ limits = {} ∨
      h.req.problemID ≠ [] ∧ ∃ ps ∈ problems, ∃ p ∈ ps.named h.req.problemID,
        (p.published = true ∨ h.user.role = .admin) ∧
          limits = Runner.limitsOf p.timeLimitMs p.memoryLimitMb)

/-- The times that are kept are few, or not old. -/
def Kept (lastRun : Map String ℤ) (bound : ℕ) (now : ℤ) : Prop :=
  lastRun.entries.length ≤ bound ∨ ∀ userID t, lastRun.get? userID = some t → now - t ≤ 5 * minute

structure Sound (s : RunSystem) : Prop where
  active : ∀ userID, s.slots.isActive userID = true ↔ ∃ h ∈ s.handlers, h.user.id = userID
  once : (s.handlers.map fun h => h.user.id).Nodup
  last : ∀ userID t, s.slots.lastRun.get? userID = some t →
    (userID, t) ∈ s.grants ∧ ∀ g ∈ s.grants, g.1 = userID → g.2 ≤ t
  forgotten : ∀ g ∈ s.grants, s.slots.lastRun.get? g.1 = none → runCooldown ≤ s.clock - g.2
  past : ∀ g ∈ s.grants, g.2 ≤ s.clock
  apart : s.grants.Pairwise fun g g' => g.1 = g'.1 → runCooldown ≤ g'.2 - g.2
  kept : ∀ g, s.grants.getLast? = some g → Kept s.slots.lastRun 1025 g.2
  checked : ∀ h ∈ s.handlers, Checked h
  executed : ∀ e ∈ s.executed, Checked e.1 ∧ Executes e.1 e.2.1 e.2.2

lemma sub_lt_cooldown : sub now t < runCooldown ↔ now - t < runCooldown := by
  have hcool : runCooldown = 3000000000 := rfl
  unfold sub
  omega

lemma five_minutes_lt_sub : sub now t > 5 * minute ↔ now - t > 5 * minute := by
  have hminute : minute = 60000000000 := rfl
  unfold sub
  omega

/-- What is left of the times. -/
lemma get?_forgetOld (s : RunSlots) (now : ℤ) (userID : String) :
    (s.forgetOld now).lastRun.get? userID = s.lastRun.get? userID ∨
      (s.forgetOld now).lastRun.get? userID = none ∧
        ∃ t, s.lastRun.get? userID = some t ∧ now - t > 5 * minute := by
  rw [RunSlots.forgetOld]
  split_ifs
  · dsimp only
    rw [Map.get?_eraseIf]
    cases hlast : s.lastRun.get? userID with
    | none => exact .inl rfl
    | some t =>
        by_cases hold : sub now t > 5 * minute
        · exact .inr ⟨by simp [hold], t, rfl, five_minutes_lt_sub.mp hold⟩
        · exact .inl (by simp [hold])
  · exact .inl rfl

lemma kept_forgetOld (s : RunSlots) (now : ℤ) : Kept (s.forgetOld now).lastRun 1024 now := by
  rw [RunSlots.forgetOld]
  split_ifs with hmany
  · refine .inr fun userID t hlast => ?_
    dsimp only at hlast
    rw [Map.get?_eraseIf, Option.filter_eq_some_iff] at hlast
    by_contra hold
    have hsub := five_minutes_lt_sub.mpr (not_le.mp hold)
    simp [hsub] at hlast
  · exact .inl (not_lt.mp hmany)

/-- Times pass, and old ones are forgotten. -/
lemma Sound.forgetOld (h : Sound s) (hnow : s.clock ≤ now) :
    Sound { s with slots := s.slots.forgetOld now, clock := now } := by
  have hactive : ∀ userID, (s.slots.forgetOld now).isActive userID = s.slots.isActive userID := by
    intro userID
    rw [RunSlots.forgetOld]
    split_ifs <;> rfl
  have hsub : ∀ userID t, (s.slots.forgetOld now).lastRun.get? userID = some t →
      s.slots.lastRun.get? userID = some t := by
    intro userID t hlast
    rcases get?_forgetOld s.slots now userID with heq | ⟨hnone, -⟩
    · rw [← heq, hlast]
    · rw [hnone] at hlast
      cases hlast
  exact {
    active := fun userID => by rw [← h.active userID, ← hactive userID]
    once := h.once
    last := fun userID t hlast => h.last userID t (hsub userID t hlast)
    forgotten := fun g hg hnone => by
      dsimp only at hnone ⊢
      rcases get?_forgetOld s.slots now g.1 with heq | ⟨-, t, hlast, hold⟩
      · have := h.forgotten g hg (heq ▸ hnone)
        omega
      · have := (h.last g.1 t hlast).2 g hg rfl
        have hminute : minute = 60000000000 := rfl
        have hcool : runCooldown = 3000000000 := rfl
        omega
    past := fun g hg => (h.past g hg).trans hnow
    apart := h.apart
    kept := fun g hg => by
      rcases h.kept g hg with hfew | hyoung
      · rcases kept_forgetOld s.slots now with hfew' | hyoung
        · exact .inl (by dsimp only; omega)
        · refine .inr fun userID t hlast => ?_
          have := hyoung userID t hlast
          have := h.past g (List.mem_of_mem_getLast? hg)
          omega
      · exact .inr fun userID t hlast => hyoung userID t (hsub userID t hlast)
    checked := h.checked
    executed := h.executed }

/-- A request is told its verdict. -/
lemma Sound.refusal_eq (h : Sound s) (userID : String) (hnow : s.clock ≤ now) :
    (s.slots.tryAcquireUserRun userID now).2 = s.verdict userID now := by
  have h' := h.forgetOld hnow
  rw [RunSlots.tryAcquireUserRun, RunSystem.verdict]
  by_cases hactive : ∃ r ∈ s.handlers, r.user.id = userID
  · rw [if_pos hactive, if_pos ((h'.active userID).mpr hactive)]
  rw [if_neg hactive, if_neg fun hbusy => hactive ((h'.active userID).mp hbusy)]
  have hcool : ((s.slots.forgetOld now).lastRun.get? userID).any (fun last => sub now last < runCooldown) =
      true ↔ ∃ g ∈ s.grants, g.1 = userID ∧ now - g.2 < runCooldown := by
    constructor
    · intro hany
      cases hl : (s.slots.forgetOld now).lastRun.get? userID with
      | none => simp [hl] at hany
      | some t =>
          have hlt : sub now t < runCooldown := by simpa [hl] using hany
          exact ⟨_, (h'.last userID t hl).1, rfl, sub_lt_cooldown.mp hlt⟩
    · rintro ⟨g, hg, rfl, hlt⟩
      cases hl : (s.slots.forgetOld now).lastRun.get? g.1 with
      | none =>
          have hlong := h'.forgotten g hg hl
          dsimp only at hlong
          omega
      | some t =>
          have hle := (h'.last g.1 t hl).2 g hg rfl
          have hlt' : sub now t < runCooldown := sub_lt_cooldown.mpr (by omega)
          simpa using hlt'
  by_cases hrecent : ∃ g ∈ s.grants, g.1 = userID ∧ now - g.2 < runCooldown
  · rw [if_pos hrecent, if_pos (hcool.mpr hrecent)]
  · rw [if_neg hrecent, if_neg (mt hcool.mp hrecent)]

/-- What an acquisition does. -/
lemma tryAcquireUserRun_cases (s : RunSlots) (userID : String) (now : ℤ) :
    (∃ refusal, s.tryAcquireUserRun userID now = (s.forgetOld now, some refusal)) ∨
      s.tryAcquireUserRun userID now =
        (⟨(s.forgetOld now).active.insert userID true, (s.forgetOld now).lastRun.insert userID now⟩, none) := by
  rw [RunSlots.tryAcquireUserRun]
  split_ifs
  · exact .inl ⟨_, rfl⟩
  · exact .inl ⟨_, rfl⟩
  · exact .inr rfl

lemma verdict_none (h : s.verdict userID now = none) :
    (∀ r ∈ s.handlers, r.user.id ≠ userID) ∧ ∀ g ∈ s.grants, g.1 = userID → runCooldown ≤ now - g.2 := by
  rw [RunSystem.verdict] at h
  split_ifs at h with hactive hrecent
  refine ⟨fun r hr heq => hactive ⟨r, hr, heq⟩, fun g hg heq => ?_⟩
  by_contra hlt
  exact hrecent ⟨g, hg, heq, not_le.mp hlt⟩

/-- A slot is given. -/
lemma Sound.granted (h : Sound s) (hnow : s.clock ≤ now) {r : RunHandler} (hr : Checked r)
    (hfree : s.verdict r.user.id now = none) :
    Sound { s with
      slots := ⟨(s.slots.forgetOld now).active.insert r.user.id true,
        (s.slots.forgetOld now).lastRun.insert r.user.id now⟩
      clock := now
      handlers := s.handlers ++ [r]
      grants := s.grants ++ [(r.user.id, now)] } := by
  have h' := h.forgetOld hnow
  obtain ⟨hnone, hlong⟩ := verdict_none hfree
  exact {
    active := fun userID => by
      have hactive := h'.active userID
      simp only [RunSlots.isActive] at hactive ⊢
      rw [Map.get?_insert]
      by_cases heq : userID = r.user.id
      · rw [if_pos heq]
        simp [heq]
      · rw [if_neg heq, hactive]
        simp [Ne.symm heq]
    once := by
      rw [List.map_append, List.nodup_append]
      refine ⟨h.once, List.nodup_singleton _, fun a ha b hb => ?_⟩
      obtain ⟨q, hq, rfl⟩ := List.mem_map.mp ha
      obtain rfl := List.mem_singleton.mp hb
      exact hnone q hq
    last := fun userID t hlast => by
      dsimp only at hlast
      rw [Map.get?_insert] at hlast
      by_cases heq : userID = r.user.id
      · rw [if_pos heq] at hlast
        obtain rfl := Option.some.inj hlast
        refine ⟨by simp [heq], fun g hg _ => ?_⟩
        rcases List.mem_append.mp hg with hg | hg
        · exact (h.past g hg).trans hnow
        · rw [List.mem_singleton.mp hg]
      · rw [if_neg heq] at hlast
        obtain ⟨hmem, hmax⟩ := h'.last userID t hlast
        refine ⟨List.mem_append_left _ hmem, fun g hg hid => ?_⟩
        rcases List.mem_append.mp hg with hg | hg
        · exact hmax g hg hid
        · rw [List.mem_singleton.mp hg] at hid
          exact absurd hid.symm heq
    forgotten := fun g hg hnone' => by
      dsimp only at hnone'
      rw [Map.get?_insert] at hnone'
      split_ifs at hnone' with heq
      rcases List.mem_append.mp hg with hg | hg
      · exact h'.forgotten g hg hnone'
      · rw [List.mem_singleton.mp hg] at heq
        exact absurd rfl heq
    past := fun g hg => by
      rcases List.mem_append.mp hg with hg | hg
      · exact (h.past g hg).trans hnow
      · rw [List.mem_singleton.mp hg]
    apart := by
      rw [List.pairwise_append]
      refine ⟨h.apart, List.pairwise_singleton _ _, fun g hg g' hg' heq => ?_⟩
      obtain rfl := List.mem_singleton.mp hg'
      exact hlong g hg heq
    kept := fun g hg => by
      rw [List.getLast?_concat] at hg
      obtain rfl := Option.some.inj hg
      rcases kept_forgetOld s.slots now with hfew | hyoung
      · have hlen : ((s.slots.forgetOld now).lastRun.insert r.user.id now).entries.length ≤ 1025 := by
          rw [AList.entries_insert, List.length_cons]
          have := (List.kerase_sublist r.user.id (s.slots.forgetOld now).lastRun.entries).length_le
          omega
        exact .inl hlen
      · refine .inr fun userID t hlast => ?_
        dsimp only at hlast ⊢
        rw [Map.get?_insert] at hlast
        split_ifs at hlast with heq
        · obtain rfl := Option.some.inj hlast
          have hminute : minute = 60000000000 := rfl
          omega
        · exact hyoung userID t hlast
    checked := fun q hq => by
      rcases List.mem_append.mp hq with hq | hq
      · exact h.checked q hq
      · rw [List.mem_singleton.mp hq]
        exact hr
    executed := h.executed }

lemma runChecks_ok {bound : Except String RunRequest} {u : RunUser} {contest : Option Clock.Status}
    {req : RunRequest} (h : @runChecks ρ bound u contest = .ok req) : Checked ⟨u, req, contest⟩ := by
  cases bound with
  | error err => cases h
  | ok req' =>
      simp only [runChecks] at h
      by_cases hcode : len req'.code > maxRunCodeLength
      · rw [if_pos hcode] at h
        cases h
      by_cases hstdin : len req'.stdin > maxRunStdinLength
      · rw [if_neg hcode, if_pos hstdin] at h
        cases h
      rw [if_neg hcode, if_neg hstdin] at h
      split at h
      · cases h
      · next hopen =>
        obtain rfl := Except.ok.inj h
        refine ⟨not_lt.mp hcode, not_lt.mp hstdin, fun hrole status hstatus => ?_⟩
        dsimp only at hrole hstatus
        rw [hstatus, Option.bind_some, if_pos hrole] at hopen
        cases status <;> first | rfl | cases hopen

lemma runWithSlot_executes {sv : Services ρ} {h : RunHandler} {request : SandboxRequest}
    (hrun : (runWithSlot sv h.user h.req).1 = some request) : Executes h sv.problems request := by
  unfold runWithSlot at hrun
  split at hrun
  · cases hrun
  · split at hrun
    · next hnone => exact ⟨{}, (Option.some.inj hrun).symm, .inl ⟨.inl hnone, rfl⟩⟩
    · next ps hps =>
      split_ifs at hrun with hid
      · exact ⟨{}, (Option.some.inj hrun).symm, .inl ⟨.inr hid, rfl⟩⟩
      · split at hrun
        · cases hrun
        · next p hp =>
          rw [findProblem, Option.filter_eq_some_iff] at hp
          obtain ⟨hnamed, hvisible⟩ := hp
          exact ⟨_, (Option.some.inj hrun).symm,
            .inr ⟨hid, ps, hps, p, hnamed, by simpa using hvisible, rfl⟩⟩

/-- A request that is not let through. -/
lemma Sound.later (h : Sound s) (hnow : s.clock ≤ now) : Sound { s with clock := now } where
  active := h.active
  once := h.once
  last := h.last
  forgotten := fun g hg hnone => (h.forgotten g hg hnone).trans (by dsimp only; omega)
  past := fun g hg => (h.past g hg).trans hnow
  apart := h.apart
  kept := h.kept
  checked := h.checked
  executed := h.executed

/-- A slot is released. -/
lemma Sound.released (h : Sound s) {i : ℕ} {r : RunHandler} (hr : s.handlers[i]? = some r)
    {requests : List (RunHandler × Option Problems × SandboxRequest)}
    (hrequests : ∀ e ∈ requests, Checked e.1 ∧ Executes e.1 e.2.1 e.2.2) :
    Sound { s with
      slots := s.slots.releaseUserRun r.user.id
      handlers := s.handlers.eraseIdx i
      executed := s.executed ++ requests } := by
  obtain ⟨hi, hget⟩ := List.getElem?_eq_some_iff.mp hr
  have hids : (s.handlers.eraseIdx i).map (fun h => h.user.id) =
      (s.handlers.map fun h => h.user.id).erase r.user.id := by
    have hmap : i < (s.handlers.map fun h => h.user.id).length := by rwa [List.length_map]
    rw [← List.eraseIdx_map, ← h.once.erase_getElem i hmap]
    simp [hget]
  exact {
    active := fun userID => by
      have hactive := h.active userID
      have hmem : (∃ q ∈ s.handlers.eraseIdx i, q.user.id = userID) ↔
          userID ≠ r.user.id ∧ ∃ q ∈ s.handlers, q.user.id = userID := by
        rw [← List.mem_map (f := fun h : RunHandler => h.user.id), hids, h.once.mem_erase_iff, List.mem_map]
      rw [hmem, ← hactive, RunSlots.isActive, RunSlots.isActive, RunSlots.releaseUserRun, Map.get?_erase]
      by_cases heq : userID = r.user.id
      · simp [heq]
      · simp [heq]
    once := by
      rw [hids]
      exact h.once.erase _
    last := h.last
    forgotten := h.forgotten
    past := h.past
    apart := h.apart
    kept := h.kept
    checked := fun q hq => h.checked q (List.mem_of_mem_eraseIdx hq)
    executed := fun e he => by
      rcases List.mem_append.mp he with he | he
      · exact h.executed e he
      · exact hrequests e he }

/-- **One step.** -/
lemma Sound.step {s' : RunSystem} (h : Sound s) {event : RunEvent ρ} (hstep : RunSystem.step event s = some s') :
    Sound s' := by
  cases event with
  | request now bound u contest =>
      simp only [RunSystem.step] at hstep
      split_ifs at hstep with hnow
      obtain rfl := Option.some.inj hstep
      rw [RunSystem.arrive]
      cases hchecks : @runChecks ρ bound u contest with
      | error reply => exact h.later hnow
      | ok req =>
          have hverdict := h.refusal_eq u.id hnow
          rcases tryAcquireUserRun_cases s.slots u.id now with ⟨refusal, heq⟩ | heq
          · simp only [heq]
            exact h.forgetOld hnow
          · rw [heq] at hverdict
            simp only [heq]
            exact h.granted hnow (runChecks_ok hchecks) hverdict.symm
  | finish i sv =>
      simp only [RunSystem.step, Option.map_eq_some_iff] at hstep
      obtain ⟨r, hr, rfl⟩ := hstep
      refine h.released hr fun e he => ?_
      simp only [Option.mem_toList, Option.map_eq_some_iff, Option.bind_eq_some_iff] at he
      obtain ⟨sv, rfl, request, hrun, rfl⟩ := he
      exact ⟨h.checked r (List.mem_of_getElem? hr), runWithSlot_executes hrun⟩

lemma Sound.new (start : ℤ) : Sound (RunSystem.new start) where
  active := fun userID => by simp [RunSystem.new, RunSlots.new, RunSlots.isActive]
  once := List.nodup_nil
  last := fun userID t hlast => by simp [RunSystem.new, RunSlots.new] at hlast
  forgotten := fun g hg => absurd hg List.not_mem_nil
  past := fun g hg => absurd hg List.not_mem_nil
  apart := List.Pairwise.nil
  kept := fun g hg => by cases hg
  checked := fun h hh => absurd hh List.not_mem_nil
  executed := fun e he => absurd he List.not_mem_nil

/-- **Runs of a user are apart.**  In every interleaving no user has two runs under way, and the runs that were
let through for a user start three seconds apart at least, whatever is forgotten in between.  The next request
that passes the checks is refused exactly if its user has a run under way, or was given the last one less than
three seconds ago; what is kept is no more than 1025 times, or those of the five minutes before the last run; and
nothing is executed but what passed the checks, within the limits of the problem that was asked for, which the
user may see. -/
theorem runs_apart {start : ℤ} (h : Reach (@RunSystem.step ρ) (.new start) s) :
    (s.handlers.map fun r => r.user.id).Nodup ∧
    (s.grants.Pairwise fun g g' => g.1 = g'.1 → runCooldown ≤ g'.2 - g.2) ∧
    (∀ now bound u contest, s.clock ≤ now → (@RunSystem.arrive ρ s now bound u contest).2 =
      match @runChecks ρ bound u contest with
      | .error reply => some reply
      | .ok _ => (s.verdict u.id now).map RunRefusal.reply) ∧
    (∀ g, s.grants.getLast? = some g → Kept s.slots.lastRun 1025 g.2) ∧
    ∀ e ∈ s.executed, Checked e.1 ∧ Executes e.1 e.2.1 e.2.2 := by
  have hsound : Sound s := h.invariant (.new start) fun event s s' hs hstep => hs.step hstep
  refine ⟨hsound.once, hsound.apart, fun now bound u contest hnow => ?_, hsound.kept, hsound.executed⟩
  rw [RunSystem.arrive]
  cases @runChecks ρ bound u contest with
  | error reply => rfl
  | ok req =>
      have hverdict := hsound.refusal_eq u.id hnow
      rcases tryAcquireUserRun_cases s.slots u.id now with ⟨refusal, heq⟩ | heq
      · rw [heq] at hverdict
        simp only [heq, ← hverdict, Option.map_some]
      · rw [heq] at hverdict
        simp only [heq, ← hverdict, Option.map_none]

end Sound

/-- Two users ask to run code, one of them again while the first run is under way, and again two seconds after
it has begun. -/
def sampleEvents : List (RunEvent Unit) :=
  let req : RunRequest := ⟨"p".toList, "c".toList, "int main;".toList, []⟩
  let ps : Problems :=
    ⟨fun _ => none, fun slug => if slug = "p".toList then some ⟨true, 1000, 256⟩ else none⟩
  let sv : Services Unit := ⟨some ps, some fun _ => .ok ()⟩
  [.request 0 (.ok req) ⟨"a", .competitor⟩ (some .running),
    .request second (.ok req) ⟨"a", .competitor⟩ (some .running),
    .request second (.ok req) ⟨"b", .admin⟩ (some .paused),
    .finish 0 (some sv),
    .request (2 * second) (.ok req) ⟨"a", .competitor⟩ (some .running)]

theorem runs_apart_sample :
    let s := (run RunSystem.step sampleEvents (.new 0)).getD (.new 0)
    s.grants = [("a", 0), ("b", second)] ∧ (s.handlers.map fun r => r.user.id) = ["b"] ∧
      s.executed.length = 1 ∧ s.verdict "a" (2 * second) = some .cooldown ∧
      (s.handlers.map fun r => r.user.id).Nodup ∧
      (s.grants.Pairwise fun g g' => g.1 = g'.1 → runCooldown ≤ g'.2 - g.2) ∧
      ∀ e ∈ s.executed, Checked e.1 ∧ Executes e.1 e.2.1 e.2.2 := by
  intro s
  have hreach : Reach RunSystem.step (RunSystem.new 0) s := Reach.run_getD sampleEvents
  obtain ⟨honce, hapart, -, -, hexecuted⟩ := runs_apart hreach
  refine ⟨?_, ?_, ?_, ?_, honce, hapart, hexecuted⟩ <;> decide +kernel

end Api

end Labyrithm
