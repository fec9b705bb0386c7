import Labyrithm.Account.Blocks
import Labyrithm.Agent.Signatures
import Labyrithm.Api.RateLimits
import Labyrithm.Clock.Snapshot
import Labyrithm.Go.Chains

/-!
# The routes of the server

`backend/internal/api/router.go` with the middlewares of `middleware.go`, `auth.go`, `agent.go` and
`handler.go`: which middlewares a request passes before its handler, and what each of them asks.  A middleware
lets the request go on, with what it has found out about it, or answers itself; `currentUser` panics where
nobody has been found out.

What the database, the gate and the settings of the contest say is read where the code reads it; a body is
what is left of it once it is decompressed, which is done before anything reads it.  Of the middlewares of the
whole router, those for metrics, logs, panics and decompression let every request go on; what `cors` makes of
its settings is a parameter.

* `Middleware.apply`, `serve` — the code.
* `competitorRoutes`, `agentRoutes`, `adminRoutes`, `router` — the tables.
* `Admits` — what a middleware asks, each alone, of the request and of the state as it was.
* `Placed` — a middleware stands behind those that find out what it needs; `After` is what is then known.
* `middleware_passes` — behind these it goes on exactly if it admits.
* `router_sound`, `router_guarded` — the tables are in order, and leave no way around.

**`reached_iff`** — which requests reach a handler.
**`mediated`** — whatever the request and the state, a handler is reached only by those it is for.
**`no_panics`** — nobody is asked for who has not been found out, and no body is read without a limit.
-/

namespace Labyrithm

namespace Api

open Account (Role UserRow)

/-! ## Requests -/

/-- What the middlewares read of a request. -/
structure Request where
  authorization : List Char
  sessionCookie : Option (List Char)
  remoteIP : String
  clientIP : String
  clientHeader : List Char
  desktopCookie : Option (List Char)
  agentSignature : List UInt8
  body : List UInt8
  origin : List Char
  host : List Char

namespace Request

variable (req : Request)

/-- The text behind `Bearer`. -/
def bearer : Option (List Char) :=
  if "Bearer ".toList.isPrefixOf req.authorization then some (req.authorization.drop 7) else none

/-- `extractSessionToken`. -/
def sessionToken : List Char :=
  match req.bearer with
  | some token => token
  | none => req.sessionCookie.getD []

/-- `portalClaimsDesktop`. -/
def claimsDesktop : Bool :=
  Go.toLower (Go.trimSpace req.clientHeader) = "desktop".toList ||
    req.desktopCookie.any fun cookie => Go.toLower (Go.trimSpace cookie) = "desktop".toList

end Request

/-- The errors of `GetByToken`. -/
inductive TokenErr
  | revoked
  | unknown
  deriving DecidableEq, Repr

/-- The agent and its token, as `requireAgent` sets them. -/
structure AgentRef where
  id : String
  rawToken : List Char
  deriving DecidableEq, Repr

/-- What the middlewares ask: the sessions and accounts at a time, the agents, the gate and the contest; and
whether `cors` lets an origin through to a host, by its `AllowOriginFunc`. -/
structure Backend where
  allowedOrigins : List (List Char)
  cors : (List Char → Bool) → List Char → List Char → Bool
  hash : List UInt8 → Vector UInt8 32
  shouldBypassProctor : Bool
  ambient : Account.Ambient
  getByToken : List Char → Except TokenErr String
  net : Agent.Net
  gateRepository : Agent.Repository
  gateStart : ℤ
  gateNow : ℤ
  contest : Option Clock.Snapshot

/-- The stores of the middlewares. -/
inductive Limit
  | healthLimiter
  | readLimiter
  | proctorSelfLimiter
  | runLimiter
  | submissionLimiter
  | streamLimiter
  | submissionStatusLimiter
  | adminLimiter
  | agentHeartbeatLimiter
  | agentEventsLimiter
  deriving DecidableEq, Repr

/-- What a request may change before it reaches its handler. -/
structure World where
  server : Account.Server
  stores : Limit → LimiterStore
  gate : Agent.Gate

/-- The keys of a `gin.Context`, and the limits around its body. -/
structure Context where
  user : Option (String × UserRow)
  agent : Option AgentRef
  limits : List ℕ

/-- Why a request does not reach its handler. -/
inductive Stop
  /-- `AbortWithStatus`, with status 403 -/
  | forbidden
  | refused (reply : Account.Reply)
  | abort (status : ℕ) (error : String) (code : Option String)
  /-- `lockResponse`, with status 423. -/
  | locked (d : Agent.Decision)
  | panics

/-- `currentUser`. -/
def Context.currentUser (c : Context) : Except Stop (String × UserRow) :=
  match c.user with
  | some u => .ok u
  | none => .error .panics

/-- `io.ReadAll` of the body, which fails where it is too long for a `MaxBytesReader`. -/
def Context.readBody (c : Context) (req : Request) : Option (List UInt8) :=
  if c.limits.all fun maxBytes => req.body.length ≤ maxBytes then some req.body else none

/-! ## Middlewares -/

inductive KeyFunc
  | peerIP
  | userID
  | agentID
  deriving DecidableEq, Repr

def KeyFunc.key (req : Request) (c : Context) : KeyFunc → String
  | .peerIP => req.remoteIP
  | .userID => c.user.elim "" Prod.fst
  | .agentID => c.agent.elim "" AgentRef.id

inductive Middleware
  | cors
  | requireUser
  | requireAdmin
  | maxBodySize (maxBytes : ℕ)
  | rateLimit (limit : Limit) (keyFunc : KeyFunc)
  | requireProctorAccess
  | requireContestActive
  | requireContestSubmissionsAllowed
  | requireAgent
  | requireAgentSignature
  deriving DecidableEq, Repr

def isTauriOrigin (origin : List Char) : Bool :=
  origin = "tauri://localhost".toList || "tauri://".toList.isPrefixOf origin ||
    origin = "http://tauri.localhost".toList || origin = "https://tauri.localhost".toList

/-- The origins that `corsMiddleware` lets through: those of the application and of the settings. -/
def allowOrigin (origins : List (List Char)) (origin : List Char) : Bool :=
  isTauriOrigin origin ||
    ((origins.map Go.trimSpace).filter fun trimmed => trimmed ≠ [] && trimmed ≠ ['*']).contains origin

/-- The statuses that `requireContestActiveMiddleware` refuses. -/
def contestLocked : Clock.Status → Option Stop
  | .notStarted =>
      some (.abort 403 "contest has not started yet; challenges and execution are locked"
        (some "CONTEST_NOT_STARTED"))
  | .paused => some (.abort 403 "contest is currently paused" (some "CONTEST_PAUSED"))
  | .running | .ended => none

/-- The statuses that `requireContestSubmissionsAllowedMiddleware` refuses. -/
def submissionsClosed : Clock.Status → Option Stop
  | .notStarted => some (.abort 403 "contest has not started yet" (some "CONTEST_NOT_STARTED"))
  | .paused => some (.abort 403 "contest is currently paused" (some "CONTEST_PAUSED"))
  | .ended => some (.abort 403 "contest has ended; submissions are closed" (some "CONTEST_ENDED"))
  | .running => none

section Code

variable (b : Backend) (req : Request)

/-- `corsMiddleware` lets the request go on. -/
def originAllowed : Bool := b.cors (allowOrigin b.allowedOrigins) req.origin req.host

/-- The status of the contest, if there is a manager. -/
def Backend.status : Option Clock.Status := b.contest.map fun snap => (snap.getState b.ambient.now).status

/-- What both middlewares for the contest do: an administrator goes on. -/
def askContest (refused : Clock.Status → Option Stop) (c : Context) : Except Stop Context := do
  let u ← c.currentUser
  if u.2.role = .admin then return c
  match b.status.bind refused with
  | some stop => throw stop
  | none => return c

def requireAdmin (c : Context) : Except Stop Context := do
  let u ← c.currentUser
  if u.2.role ≠ .admin then throw (.abort 403 "admin only" none)
  return c

def requireAgent (c : Context) : Except Stop Context :=
  match req.bearer with
  | none | some [] => .error (.abort 401 "agent token required" none)
  | some token =>
      match b.getByToken token with
      | .error .revoked => .error (.abort 410 "enrollment revoked" (some "ENROLLMENT_REVOKED"))
      | .error .unknown => .error (.abort 401 "unknown agent token" none)
      | .ok id => .ok { c with agent := some ⟨id, token⟩ }

/-- The bytes of the token that the context has. -/
def Context.rawToken (c : Context) : List UInt8 :=
  (String.ofList (c.agent.elim [] AgentRef.rawToken)).toUTF8.toList

def requireAgentSignature (c : Context) : Except Stop Context :=
  match Agent.requireAgentSignature b.hash b.shouldBypassProctor c.rawToken req.agentSignature
    (c.readBody req) with
  | .next => .ok c
  | .abort status error code => .error (.abort status error code)

/-- `requireProctorAccess`, with the gate's `Status`. -/
def requireProctorAccess (c : Context) (gate : Agent.Gate) : Except Stop Context × Agent.Gate :=
  if b.shouldBypassProctor then (.ok c, gate)
  else
    match c.user with
    | none => (.error .panics, gate)
    | some u =>
        match gate.status b.net b.gateRepository u.1 req.claimsDesktop b.gateStart b.gateNow with
        | .error _ =>
            (.error (.abort 503 "Could not verify proctoring status. Retry in a moment."
              (some "GATE_UNAVAILABLE")), gate)
        | .ok (d, _, cache) =>
            (if d.allowed then .ok c else .error (.locked d), { gate with cache := cache })

def Middleware.apply (m : Middleware) (c : Context) (w : World) : Except Stop Context × World :=
  match m with
  | .cors => (if originAllowed b req then .ok c else .error .forbidden, w)
  | .requireUser =>
      match Account.requireUser b.ambient (String.ofList req.sessionToken) w.server with
      | .error (reply, server) => (.error (.refused reply), { w with server := server })
      | .ok u => (.ok { c with user := some u }, w)
  | .requireAdmin => (Api.requireAdmin c, w)
  | .maxBodySize maxBytes => (.ok { c with limits := maxBytes :: c.limits }, w)
  | .rateLimit limit keyFunc =>
      let (store, allowed) := (w.stores limit).rateLimit (keyFunc.key req c) req.clientIP b.ambient.now
      (if allowed then .ok c
        else .error (.abort 429 "Rate limit exceeded. Please slow down your requests." none),
        { w with stores := Function.update w.stores limit store })
  | .requireProctorAccess =>
      let (result, gate) := Api.requireProctorAccess b req c w.gate
      (result, { w with gate := gate })
  | .requireContestActive => (askContest b contestLocked c, w)
  | .requireContestSubmissionsAllowed => (askContest b submissionsClosed c, w)
  | .requireAgent => (Api.requireAgent b req c, w)
  | .requireAgentSignature => (Api.requireAgentSignature b req c, w)

/-- A request passes the middlewares of its route one after the other. -/
def serve (chain : List Middleware) (w : World) : Except Stop Context × World :=
  Go.pass (Middleware.apply b req) chain { user := none, agent := none, limits := [] } w

end Code

/-! ## What a chain asks -/

/-- The account of the session. -/
def session (b : Backend) (req : Request) (w : World) : Option (String × UserRow) :=
  (Account.requireUser b.ambient (String.ofList req.sessionToken) w.server).toOption

/-- The agent of the token. -/
def caller (b : Backend) (req : Request) : Option AgentRef :=
  match req.bearer with
  | none | some [] => none
  | some token => (b.getByToken token).toOption.map fun id => ⟨id, token⟩

/-- All there is to find out about a request. -/
def Context.known (b : Backend) (req : Request) (w : World) : Context where
  user := session b req w
  agent := caller b req
  limits := []

/-- The gate allows an account. -/
def GateOpen (b : Backend) (req : Request) (w : World) (u : String × UserRow) : Prop :=
  ∃ d port cache,
    w.gate.status b.net b.gateRepository u.1 req.claimsDesktop b.gateStart b.gateNow = .ok (d, port, cache) ∧
      d.allowed = true

/-- The contest does not refuse an account. -/
def ContestOpen (b : Backend) (refused : Clock.Status → Option Stop) (u : String × UserRow) : Prop :=
  u.2.role = .admin ∨ b.status.bind refused = none

/-- The agent has signed the body. -/
def Signed (b : Backend) (req : Request) (ag : AgentRef) : Prop :=
  Agent.verifyHMAC b.hash (String.ofList ag.rawToken).toUTF8.toList req.body req.agentSignature = true

/-- What a middleware asks of a request, whatever stands before it; the limits are those of its chain. -/
def Admits (b : Backend) (req : Request) (w : World) (limits : List ℕ) : Middleware → Prop
  | .cors => originAllowed b req = true
  | .requireUser => (session b req w).isSome
  | .requireAdmin => ∃ u, session b req w = some u ∧ u.2.role = .admin
  | .maxBodySize _ => True
  | .rateLimit limit keyFunc =>
      ((w.stores limit).rateLimit (keyFunc.key req (Context.known b req w)) req.clientIP b.ambient.now).2 = true
  | .requireProctorAccess =>
      b.shouldBypassProctor = true ∨ ∃ u, session b req w = some u ∧ GateOpen b req w u
  | .requireContestActive => ∃ u, session b req w = some u ∧ ContestOpen b contestLocked u
  | .requireContestSubmissionsAllowed => ∃ u, session b req w = some u ∧ ContestOpen b submissionsClosed u
  | .requireAgent => (caller b req).isSome
  | .requireAgentSignature =>
      b.shouldBypassProctor = true ∨
        ∃ ag, caller b req = some ag ∧ (∀ n ∈ limits, req.body.length ≤ n) ∧ Signed b req ag

/-! ## Chains that are in order -/

/-- The limits that a chain puts around a body. -/
def bodyLimits (chain : List Middleware) : List ℕ :=
  chain.filterMap fun
    | .maxBodySize maxBytes => some maxBytes
    | _ => none

/-- The stores in which a chain counts a request. -/
def countedIn (chain : List Middleware) : List Limit :=
  chain.filterMap fun
    | .rateLimit limit _ => some limit
    | _ => none

/-- A middleware stands behind those that find out what it needs: the account, the agent, and for a signature
all the limits of the body it reads.  A store counts a request once, and the gate is asked once. -/
def Placed (limits : List ℕ) (seen : List Middleware) : Middleware → Prop
  | .cors | .requireUser | .requireAgent | .maxBodySize _ => True
  | .requireAdmin | .requireContestActive | .requireContestSubmissionsAllowed => .requireUser ∈ seen
  | .rateLimit limit keyFunc =>
      limit ∉ countedIn seen ∧ (keyFunc = .userID → .requireUser ∈ seen) ∧
        (keyFunc = .agentID → .requireAgent ∈ seen)
  | .requireProctorAccess => .requireUser ∈ seen ∧ .requireProctorAccess ∉ seen
  | .requireAgentSignature => .requireAgent ∈ seen ∧ limits ≠ [] ∧ bodyLimits seen = limits

instance (limits : List ℕ) (seen : List Middleware) : ∀ m, Decidable (Placed limits seen m)
  | .cors | .requireUser | .requireAgent | .maxBodySize _ => inferInstanceAs (Decidable True)
  | .requireAdmin | .requireContestActive | .requireContestSubmissionsAllowed =>
      inferInstanceAs (Decidable (_ ∈ _))
  | .rateLimit _ _ => inferInstanceAs (Decidable (_ ∧ _ ∧ _))
  | .requireProctorAccess => inferInstanceAs (Decidable (_ ∧ _))
  | .requireAgentSignature => inferInstanceAs (Decidable (_ ∧ _ ∧ _))

/-- Where a request is once it has passed these middlewares. -/
structure After (b : Backend) (req : Request) (w : World) (limits : List ℕ) (seen : List Middleware)
    (c : Context) (w' : World) : Prop where
  admitted : ∀ m ∈ seen, Admits b req w limits m
  server : w'.server = w.server
  user : c.user = if .requireUser ∈ seen then session b req w else none
  agent : c.agent = if .requireAgent ∈ seen then caller b req else none
  limits : c.limits = bodyLimits seen
  uncounted : ∀ limit, limit ∉ countedIn seen → w'.stores limit = w.stores limit
  counted : ∀ limit keyFunc, .rateLimit limit keyFunc ∈ seen → w'.stores limit =
    ((w.stores limit).rateLimit (keyFunc.key req (Context.known b req w)) req.clientIP b.ambient.now).1
  gate : .requireProctorAccess ∉ seen → w'.gate = w.gate

/-- How a request is stopped: nobody is asked for in vain, and its own session may be gone. -/
structure Stopped (req : Request) (w : World) (stop : Stop) (w' : World) : Prop where
  answered : stop ≠ .panics
  server : w'.server = w.server ∨
    w'.server = { w.server with sessions := w.server.sessions.erase (String.ofList req.sessionToken) }

section Steps

variable {b : Backend} {req : Request} {w w' : World} {limits : List ℕ} {seen : List Middleware} {c : Context}

namespace After

variable (h : After b req w limits seen c w')

include h

/-- Behind `requireUser` the account is that of the session. -/
lemma user_of_mem (hmem : .requireUser ∈ seen) : ∃ u, session b req w = some u ∧ c.user = some u := by
  obtain ⟨u, hu⟩ := Option.isSome_iff_exists.mp (h.admitted _ hmem)
  refine ⟨u, hu, ?_⟩
  rw [h.user, if_pos hmem, hu]

/-- Behind `requireAgent` the agent is that of the token. -/
lemma agent_of_mem (hmem : .requireAgent ∈ seen) : ∃ ag, caller b req = some ag ∧ c.agent = some ag := by
  obtain ⟨ag, hag⟩ := Option.isSome_iff_exists.mp (h.admitted _ hmem)
  refine ⟨ag, hag, ?_⟩
  rw [h.agent, if_pos hmem, hag]

/-- A middleware that asks and finds out nothing. -/
lemma asked {m : Middleware} (hadmits : Admits b req w limits m) (huser : m ≠ .requireUser)
    (hagent : m ≠ .requireAgent) (hlimits : bodyLimits [m] = []) (hcounted : countedIn [m] = []) :
    After b req w limits (m :: seen) c w' where
  admitted := List.forall_mem_cons.mpr ⟨hadmits, h.admitted⟩
  server := h.server
  user := by simpa [huser.symm] using h.user
  agent := by simpa [hagent.symm] using h.agent
  limits := by
    rw [h.limits, bodyLimits, bodyLimits, ← List.singleton_append, List.filterMap_append]
    exact (congrArg (· ++ bodyLimits seen) hlimits).symm
  uncounted := fun limit hlimit => h.uncounted limit fun hmem => hlimit <| by
    rw [countedIn, ← List.singleton_append, List.filterMap_append]
    exact List.mem_append_right _ hmem
  counted := fun limit keyFunc hmem => by
    rcases List.mem_cons.mp hmem with rfl | hmem
    · exact absurd hcounted (by simp [countedIn])
    · exact h.counted limit keyFunc hmem
  gate := fun hgate => h.gate fun hmem => hgate (List.mem_cons_of_mem _ hmem)

end After

end Steps

/-- A refused session leaves the accounts, and may be deleted itself. -/
lemma requireUser_error {a : Account.Ambient} {token : String} {server server' : Account.Server}
    {reply : Account.Reply} (h : Account.requireUser a token server = .error (reply, server')) :
    server' = server ∨ server' = { server with sessions := server.sessions.erase token } := by
  have hdeleted : ∀ {failed : Bool},
      (if failed then server else { server with sessions := server.sessions.erase token }) = server ∨
        (if failed then server else { server with sessions := server.sessions.erase token }) =
          { server with sessions := server.sessions.erase token } := by
    intro failed
    cases failed
    · exact .inr rfl
    · exact .inl rfl
  simp only [Account.requireUser] at h
  split at h
  · exact .inl (Prod.mk.inj (Except.error.inj h)).2.symm
  · split at h
    · exact .inl (Prod.mk.inj (Except.error.inj h)).2.symm
    · split at h
      · rw [← (Prod.mk.inj (Except.error.inj h)).2]
        exact hdeleted
      · split at h
        · exact .inl (Prod.mk.inj (Except.error.inj h)).2.symm
        · split at h
          · rw [← (Prod.mk.inj (Except.error.inj h)).2]
            exact hdeleted
          · cases h

section Steps

variable {b : Backend} {req : Request} {w w' : World} {limits : List ℕ} {seen : List Middleware} {c : Context}

/-- The accounts are as they were. -/
lemma After.stopped (h : After b req w limits seen c w') {stop : Stop} (hstop : stop ≠ .panics) :
    Stopped req w stop w' :=
  ⟨hstop, .inl h.server⟩

/-- What a middleware does behind `seen`. -/
abbrev Passes (b : Backend) (req : Request) (w : World) (limits : List ℕ) :
    List Middleware → Middleware → Context → World → Prop :=
  Go.Stage (Middleware.apply b req) (Admits b req w limits) (After b req w limits) (Stopped req w)

lemma cors_passes (h : After b req w limits seen c w') : Passes b req w limits seen .cors c w' := by
  by_cases hallowed : originAllowed b req = true
  · refine .inl ⟨hallowed, c, w', ?_, h.asked hallowed nofun nofun rfl rfl⟩
    rw [Middleware.apply, if_pos hallowed]
  · refine .inr ⟨hallowed, .forbidden, w', ?_, h.stopped nofun⟩
    rw [Middleware.apply, if_neg hallowed]

lemma requireUser_passes (h : After b req w limits seen c w') :
    Passes b req w limits seen .requireUser c w' := by
  cases hsession : Account.requireUser b.ambient (String.ofList req.sessionToken) w.server with
  | error refused =>
      obtain ⟨reply, server⟩ := refused
      have hnone : session b req w = none := by
        rw [session, hsession]
        rfl
      refine .inr ⟨by simp [Admits, hnone], .refused reply, { w' with server := server }, ?_, nofun, ?_⟩
      · simp only [Middleware.apply, h.server, hsession]
      · exact requireUser_error hsession
  | ok u =>
      have hsome : session b req w = some u := by
        rw [session, hsession]
        rfl
      have hadmits : Admits b req w limits .requireUser := by simp [Admits, hsome]
      refine .inl ⟨hadmits, { c with user := some u }, w', ?_, ?_⟩
      · simp only [Middleware.apply, h.server, hsession]
      · exact
          { admitted := List.forall_mem_cons.mpr ⟨hadmits, h.admitted⟩
            server := h.server
            user := by simp [hsome]
            agent := by simpa using h.agent
            limits := h.limits
            uncounted := h.uncounted
            counted := fun limit keyFunc hmem => h.counted limit keyFunc (by simpa using hmem)
            gate := fun hgate => h.gate (by simpa using hgate) }

/-- `requireAgent` finds out the agent of the token, or refuses. -/
lemma requireAgent_cases (b : Backend) (req : Request) (c : Context) :
    (∃ ag, caller b req = some ag ∧ requireAgent b req c = .ok { c with agent := some ag }) ∨
      caller b req = none ∧ ∃ status error code, requireAgent b req c = .error (.abort status error code) := by
  cases hbearer : req.bearer with
  | none => exact .inr ⟨by simp [caller, hbearer], _, _, _, by rw [requireAgent, hbearer]⟩
  | some token =>
      cases token with
      | nil => exact .inr ⟨by simp [caller, hbearer], _, _, _, by rw [requireAgent, hbearer]⟩
      | cons ch token =>
          cases htoken : b.getByToken (ch :: token) with
          | error err =>
              refine .inr ⟨by simp [caller, hbearer, htoken, Except.toOption], ?_⟩
              cases err with
              | revoked =>
                  refine ⟨410, "enrollment revoked", some "ENROLLMENT_REVOKED", ?_⟩
                  simp only [requireAgent, hbearer, htoken]
              | unknown =>
                  refine ⟨401, "unknown agent token", none, ?_⟩
                  simp only [requireAgent, hbearer, htoken]
          | ok id =>
              refine .inl ⟨⟨id, ch :: token⟩, by simp [caller, hbearer, htoken, Except.toOption], ?_⟩
              simp only [requireAgent, hbearer, htoken]

lemma requireAgent_passes (h : After b req w limits seen c w') :
    Passes b req w limits seen .requireAgent c w' := by
  rcases requireAgent_cases b req c with ⟨ag, hcaller, hcode⟩ | ⟨hcaller, status, error, code, hcode⟩
  · have hadmits : Admits b req w limits .requireAgent := by simp [Admits, hcaller]
    refine .inl ⟨hadmits, { c with agent := some ag }, w', by rw [Middleware.apply, hcode], ?_⟩
    exact
      { admitted := List.forall_mem_cons.mpr ⟨hadmits, h.admitted⟩
        server := h.server
        user := by simpa using h.user
        agent := by simp [hcaller]
        limits := h.limits
        uncounted := h.uncounted
        counted := fun limit keyFunc hmem => h.counted limit keyFunc (by simpa using hmem)
        gate := fun hgate => h.gate (by simpa using hgate) }
  · refine .inr ⟨by simp [Admits, hcaller], .abort status error code, w', ?_, h.stopped nofun⟩
    rw [Middleware.apply, hcode]

lemma maxBodySize_passes (h : After b req w limits seen c w') (maxBytes : ℕ) :
    Passes b req w limits seen (.maxBodySize maxBytes) c w' := by
  refine .inl ⟨trivial, { c with limits := maxBytes :: c.limits }, w', rfl, ?_⟩
  exact
    { admitted := List.forall_mem_cons.mpr ⟨trivial, h.admitted⟩
      server := h.server
      user := by simpa using h.user
      agent := by simpa using h.agent
      limits := congrArg (maxBytes :: ·) h.limits
      uncounted := h.uncounted
      counted := fun limit keyFunc hmem => h.counted limit keyFunc (by simpa using hmem)
      gate := fun hgate => h.gate (by simpa using hgate) }

lemma requireAdmin_of_user {u : String × UserRow} (huser : c.user = some u) :
    requireAdmin c = if u.2.role = .admin then .ok c else .error (.abort 403 "admin only" none) := by
  rw [requireAdmin, Context.currentUser, huser]
  by_cases hrole : u.2.role = .admin
  · rw [if_pos hrole]
    simp [bind, Except.bind, pure, Except.pure, hrole]
  · rw [if_neg hrole]
    simp [bind, Except.bind, throw, throwThe, MonadExceptOf.throw, hrole]

lemma requireAdmin_passes (h : After b req w limits seen c w') (hmem : .requireUser ∈ seen) :
    Passes b req w limits seen .requireAdmin c w' := by
  obtain ⟨u, hsession, huser⟩ := h.user_of_mem hmem
  have hcode := requireAdmin_of_user huser
  by_cases hrole : u.2.role = .admin
  · have hadmits : Admits b req w limits .requireAdmin := ⟨u, hsession, hrole⟩
    refine .inl ⟨hadmits, c, w', ?_, h.asked hadmits nofun nofun rfl rfl⟩
    rw [Middleware.apply, hcode, if_pos hrole]
  · refine .inr ⟨?_, .abort 403 "admin only" none, w', ?_, h.stopped nofun⟩
    · rintro ⟨v, hv, hadmin⟩
      rw [hsession, Option.some_inj] at hv
      exact hrole (hv ▸ hadmin)
    · rw [Middleware.apply, hcode, if_neg hrole]

/-- Both middlewares for the contest refuse what the contest refuses. -/
lemma askContest_of_user (b : Backend) (refused : Clock.Status → Option Stop) {u : String × UserRow}
    (huser : c.user = some u) :
    ContestOpen b refused u ∧ askContest b refused c = .ok c ∨
      ¬ ContestOpen b refused u ∧ ∃ st stop, refused st = some stop ∧ askContest b refused c = .error stop := by
  rw [askContest, Context.currentUser, huser]
  by_cases hrole : u.2.role = .admin
  · refine .inl ⟨.inl hrole, ?_⟩
    simp [bind, Except.bind, pure, Except.pure, hrole]
  · cases hasked : b.status.bind refused with
    | none =>
        refine .inl ⟨.inr hasked, ?_⟩
        simp [bind, Except.bind, pure, Except.pure, hrole]
    | some stop =>
        obtain ⟨st, _, hst⟩ := Option.bind_eq_some_iff.mp hasked
        refine .inr ⟨?_, st, stop, hst, ?_⟩
        · rintro (hadmin | hnone)
          · exact hrole hadmin
          · rw [hasked] at hnone
            cases hnone
        · simp [bind, Except.bind, throw, throwThe, MonadExceptOf.throw, hrole]

lemma askContest_passes {m : Middleware} {refused : Clock.Status → Option Stop}
    (h : After b req w limits seen c w') (hmem : .requireUser ∈ seen)
    (happly : m.apply b req c w' = (askContest b refused c, w'))
    (hadmits : Admits b req w limits m ↔ ∃ u, session b req w = some u ∧ ContestOpen b refused u)
    (hanswer : ∀ st stop, refused st = some stop → stop ≠ .panics)
    (huser : m ≠ .requireUser) (hagent : m ≠ .requireAgent) (hlimits : bodyLimits [m] = [])
    (hcounted : countedIn [m] = []) : Passes b req w limits seen m c w' := by
  obtain ⟨u, hsession, hset⟩ := h.user_of_mem hmem
  have hiff : Admits b req w limits m ↔ ContestOpen b refused u := by
    rw [hadmits, hsession]
    simp
  rcases askContest_of_user b refused hset with ⟨hopen, hcode⟩ | ⟨hclosed, st, stop, hst, hcode⟩
  · refine .inl ⟨hiff.mpr hopen, c, w', ?_, h.asked (hiff.mpr hopen) huser hagent hlimits hcounted⟩
    rw [happly, hcode]
  · refine .inr ⟨fun hadm => hclosed (hiff.mp hadm), stop, w', ?_, h.stopped (hanswer st stop hst)⟩
    rw [happly, hcode]

/-- No refusal of the contest is a panic. -/
lemma contestLocked_answers {st : Clock.Status} {stop : Stop} (h : contestLocked st = some stop) :
    stop ≠ .panics := by
  rintro rfl
  cases st <;> cases h

lemma submissionsClosed_answers {st : Clock.Status} {stop : Stop} (h : submissionsClosed st = some stop) :
    stop ≠ .panics := by
  rintro rfl
  cases st <;> cases h

/-- What is found out so far is enough for the key of a store. -/
lemma key_eq (h : After b req w limits seen c w') {keyFunc : KeyFunc}
    (huser : keyFunc = .userID → .requireUser ∈ seen) (hagent : keyFunc = .agentID → .requireAgent ∈ seen) :
    keyFunc.key req c = keyFunc.key req (Context.known b req w) := by
  cases keyFunc with
  | peerIP => rfl
  | userID =>
      obtain ⟨u, hsession, hset⟩ := h.user_of_mem (huser rfl)
      simp [KeyFunc.key, Context.known, hsession, hset]
  | agentID =>
      obtain ⟨ag, hcaller, hset⟩ := h.agent_of_mem (hagent rfl)
      simp [KeyFunc.key, Context.known, hcaller, hset]

lemma mem_countedIn {limit : Limit} {keyFunc : KeyFunc} (hmem : .rateLimit limit keyFunc ∈ seen) :
    limit ∈ countedIn seen :=
  List.mem_filterMap.mpr ⟨.rateLimit limit keyFunc, hmem, rfl⟩

lemma rateLimit_passes (h : After b req w limits seen c w') {limit : Limit} {keyFunc : KeyFunc}
    (hplaced : Placed limits seen (.rateLimit limit keyFunc)) :
    Passes b req w limits seen (.rateLimit limit keyFunc) c w' := by
  obtain ⟨hnew, huser, hagent⟩ := hplaced
  have hstore := h.uncounted limit hnew
  have hkey := key_eq h huser hagent
  set counted := (w.stores limit).rateLimit (keyFunc.key req (Context.known b req w)) req.clientIP b.ambient.now
    with hcounted
  have happly : (Middleware.rateLimit limit keyFunc).apply b req c w' =
      (if counted.2 = true then .ok c
        else .error (.abort 429 "Rate limit exceeded. Please slow down your requests." none),
        { w' with stores := Function.update w'.stores limit counted.1 }) := by
    rw [Middleware.apply, hstore, hkey, hcounted]
  by_cases hallowed : counted.2 = true
  · refine .inl ⟨hallowed, c, _, by rw [happly, if_pos hallowed], ?_⟩
    exact
      { admitted := List.forall_mem_cons.mpr ⟨hallowed, h.admitted⟩
        server := h.server
        user := by simpa using h.user
        agent := by simpa using h.agent
        limits := h.limits
        uncounted := fun other hother => by
          have hne : other ≠ limit := fun heq => hother (heq ▸ List.mem_cons_self)
          have hold := h.uncounted other fun hmem => hother (List.mem_cons_of_mem _ hmem)
          exact (Function.update_of_ne hne ..).trans hold
        counted := fun other otherKey hmem => by
          rcases List.mem_cons.mp hmem with heq | hmem
          · obtain ⟨rfl, rfl⟩ := Middleware.rateLimit.inj heq
            exact Function.update_self ..
          · -- what has been counted before is another store
            have hne : other ≠ limit := fun heq => hnew (heq ▸ mem_countedIn hmem)
            exact (Function.update_of_ne hne ..).trans (h.counted other otherKey hmem)
        gate := fun hgate => h.gate (by simpa using hgate) }
  · refine .inr ⟨hallowed, .abort 429 "Rate limit exceeded. Please slow down your requests." none,
      { w' with stores := Function.update w'.stores limit counted.1 }, ?_, nofun, .inl h.server⟩
    rw [happly, if_neg hallowed]

/-- `requireProctorAccess` asks the gate for the account, and refuses where the gate does. -/
lemma requireProctorAccess_of_user (b : Backend) (req : Request) {u : String × UserRow} {gate : Agent.Gate}
    (huser : c.user = some u) (hgate : gate = w.gate) :
    (b.shouldBypassProctor = true ∨ GateOpen b req w u) ∧
        (∃ gate', requireProctorAccess b req c gate = (.ok c, gate')) ∨
      ¬ (b.shouldBypassProctor = true ∨ GateOpen b req w u) ∧
        ∃ stop gate', requireProctorAccess b req c gate = (.error stop, gate') ∧ stop ≠ .panics := by
  subst hgate
  by_cases hbypass : b.shouldBypassProctor = true
  · exact .inl ⟨.inl hbypass, w.gate, by rw [requireProctorAccess, if_pos hbypass]⟩
  · cases hstatus : w.gate.status b.net b.gateRepository u.1 req.claimsDesktop b.gateStart b.gateNow with
    | error err =>
        refine .inr ⟨?_, ?_⟩
        · rintro (hyes | ⟨d, port, cache, hok, _⟩)
          · exact hbypass hyes
          · rw [hstatus] at hok
            cases hok
        · refine ⟨.abort 503 "Could not verify proctoring status. Retry in a moment."
            (some "GATE_UNAVAILABLE"), w.gate, ?_, nofun⟩
          rw [requireProctorAccess, if_neg hbypass, huser]
          simp only [hstatus]
    | ok answer =>
        obtain ⟨d, port, cache⟩ := answer
        have hcode : requireProctorAccess b req c w.gate =
            (if d.allowed then .ok c else .error (.locked d), { w.gate with cache := cache }) := by
          rw [requireProctorAccess, if_neg hbypass, huser]
          simp only [hstatus]
        by_cases hallowed : d.allowed = true
        · refine .inl ⟨.inr ⟨d, port, cache, hstatus, hallowed⟩, { w.gate with cache := cache }, ?_⟩
          rw [hcode, if_pos hallowed]
        · refine .inr ⟨?_, .locked d, { w.gate with cache := cache }, ?_, nofun⟩
          · rintro (hyes | ⟨d', port', cache', hok, hallowed'⟩)
            · exact hbypass hyes
            · rw [hstatus] at hok
              obtain ⟨rfl, _⟩ := Prod.mk.inj (Except.ok.inj hok)
              exact hallowed hallowed'
          · rw [hcode, if_neg hallowed]

lemma requireProctorAccess_passes (h : After b req w limits seen c w')
    (hplaced : Placed limits seen .requireProctorAccess) :
    Passes b req w limits seen .requireProctorAccess c w' := by
  obtain ⟨hmem, hnew⟩ := hplaced
  obtain ⟨u, hsession, huser⟩ := h.user_of_mem hmem
  have hiff : Admits b req w limits .requireProctorAccess ↔
      b.shouldBypassProctor = true ∨ GateOpen b req w u := by
    simp [Admits, hsession]
  rcases requireProctorAccess_of_user b req huser (h.gate hnew) with
    ⟨hopen, gate', hcode⟩ | ⟨hclosed, stop, gate', hcode, hstop⟩
  · have hadmits := hiff.mpr hopen
    have hasked := h.asked hadmits nofun nofun rfl rfl
    refine .inl ⟨hadmits, c, { w' with gate := gate' }, by rw [Middleware.apply, hcode], ?_⟩
    exact { hasked with gate := fun hgate => absurd List.mem_cons_self hgate }
  · refine .inr ⟨fun hadm => hclosed (hiff.mp hadm), stop, { w' with gate := gate' }, ?_, hstop,
      .inl h.server⟩
    rw [Middleware.apply, hcode]

/-- An empty header signs nothing. -/
lemma not_verifyHMAC_nil (hash : List UInt8 → Vector UInt8 32) (key data : List UInt8) :
    ¬ Agent.verifyHMAC hash key data [] = true := by
  intro h
  have hlength := congrArg List.length ((Agent.verifyHMAC_iff hash key data []).mp h)
  rw [Agent.computeHMAC, Go.length_hexEncode, Vector.length_toList] at hlength
  cases hlength

lemma readBody_eq (h : After b req w limits seen c w') (hlimits : bodyLimits seen = limits) :
    c.readBody req = if ∀ n ∈ limits, req.body.length ≤ n then some req.body else none := by
  rw [Context.readBody, h.limits, hlimits]
  simp [List.all_eq_true]

/-- `requireAgentSignature` reads the body and checks it. -/
lemma requireAgentSignature_of_agent (b : Backend) {ag : AgentRef} (hagent : c.agent = some ag)
    (hbody : c.readBody req = if ∀ n ∈ limits, req.body.length ≤ n then some req.body else none) :
    (b.shouldBypassProctor = true ∨ (∀ n ∈ limits, req.body.length ≤ n) ∧ Signed b req ag) ∧
        requireAgentSignature b req c = .ok c ∨
      ¬ (b.shouldBypassProctor = true ∨ (∀ n ∈ limits, req.body.length ≤ n) ∧ Signed b req ag) ∧
        ∃ status error code, requireAgentSignature b req c = .error (.abort status error code) := by
  have hraw : c.rawToken = (String.ofList ag.rawToken).toUTF8.toList := by
    rw [Context.rawToken, hagent, Option.elim_some]
  rw [requireAgentSignature, Agent.requireAgentSignature.eq_def, hraw, hbody]
  by_cases hbypass : b.shouldBypassProctor = true
  · exact .inl ⟨.inl hbypass, by rw [if_pos hbypass]⟩
  · rw [if_neg hbypass]
    by_cases hmissing : req.agentSignature.isEmpty = true
    · refine .inr ⟨?_, 401, "agent payload signature required", some "SIGNATURE_MISSING",
        by rw [if_pos hmissing]⟩
      rintro (hyes | ⟨_, hsigned⟩)
      · exact hbypass hyes
      · rw [Signed, List.isEmpty_iff.mp hmissing] at hsigned
        exact not_verifyHMAC_nil _ _ _ hsigned
    · rw [if_neg hmissing]
      by_cases hread : ∀ n ∈ limits, req.body.length ≤ n
      · rw [if_pos hread]
        by_cases hsigned : Signed b req ag
        · refine .inl ⟨.inr ⟨hread, hsigned⟩, ?_⟩
          rw [Signed] at hsigned
          simp only [hsigned, Bool.not_true, Bool.false_eq_true, if_false]
        · refine .inr ⟨?_, 401, "invalid payload signature", some "TAMPERED_PAYLOAD", ?_⟩
          · rintro (hyes | ⟨_, hyes⟩)
            · exact hbypass hyes
            · exact hsigned hyes
          · rw [Signed, Bool.not_eq_true] at hsigned
            simp only [hsigned, Bool.not_false, if_true]
      · refine .inr ⟨?_, 400, "failed to read request body", none, by rw [if_neg hread]⟩
        rintro (hyes | ⟨hyes, _⟩)
        · exact hbypass hyes
        · exact hread hyes

lemma requireAgentSignature_passes (h : After b req w limits seen c w')
    (hplaced : Placed limits seen .requireAgentSignature) :
    Passes b req w limits seen .requireAgentSignature c w' := by
  obtain ⟨hmem, _, hlimits⟩ := hplaced
  obtain ⟨ag, hcaller, hagent⟩ := h.agent_of_mem hmem
  have hiff : Admits b req w limits .requireAgentSignature ↔
      b.shouldBypassProctor = true ∨ (∀ n ∈ limits, req.body.length ≤ n) ∧ Signed b req ag := by
    simp [Admits, hcaller]
  rcases requireAgentSignature_of_agent b hagent (readBody_eq h hlimits) with
    ⟨hsigned, hcode⟩ | ⟨hnot, status, error, code, hcode⟩
  · have hadmits := hiff.mpr hsigned
    refine .inl ⟨hadmits, c, w', by rw [Middleware.apply, hcode], h.asked hadmits nofun nofun rfl rfl⟩
  · refine .inr ⟨fun hadm => hnot (hiff.mp hadm), .abort status error code, w', ?_, h.stopped nofun⟩
    rw [Middleware.apply, hcode]

/-- What every middleware does behind those that find out what it needs. -/
lemma middleware_passes {m : Middleware} (hplaced : Placed limits seen m) (h : After b req w limits seen c w') :
    Passes b req w limits seen m c w' := by
  cases m with
  | cors => exact cors_passes h
  | requireUser => exact requireUser_passes h
  | requireAdmin => exact requireAdmin_passes h hplaced
  | maxBodySize maxBytes => exact maxBodySize_passes h maxBytes
  | rateLimit limit keyFunc => exact rateLimit_passes h hplaced
  | requireProctorAccess => exact requireProctorAccess_passes h hplaced
  | requireContestActive =>
      exact askContest_passes h hplaced rfl Iff.rfl (fun _ _ => contestLocked_answers) nofun nofun rfl rfl
  | requireContestSubmissionsAllowed =>
      exact askContest_passes h hplaced rfl Iff.rfl (fun _ _ => submissionsClosed_answers) nofun nofun rfl rfl
  | requireAgent => exact requireAgent_passes h
  | requireAgentSignature => exact requireAgentSignature_passes h hplaced

/-- Nothing has been passed yet. -/
lemma after_nil (b : Backend) (req : Request) (w : World) (limits : List ℕ) :
    After b req w limits [] { user := none, agent := none, limits := [] } w where
  admitted := by simp
  server := rfl
  user := rfl
  agent := rfl
  limits := rfl
  uncounted := fun _ _ => rfl
  counted := by simp
  gate := fun _ => rfl

end Steps

/-! ## The tables -/

inductive Method
  | get
  | post
  | put
  | patch
  | delete
  deriving DecidableEq, Repr

inductive Endpoint
  | health | metrics | swagger
  | login | logout | me | changePassword
  | listPublishedProblems | getPublishedProblemBySlug | getLeaderboard | getProctorDisclosure
  | getProctorSelfStatus | recordBrowserEvent | leaveContest | getContestState | runCode
  | createSubmission | listUserSubmissions | streamSubmissions | getSubmission
  | enrollAgent | agentHeartbeat | agentEvents | agentShutdown | agentRules
  | listUsers | createUser | bulkCreateUsers | bulkUserAction | resetPassword | updateRole | suspendUser
  | updateUserProctorExemption | updateUserProctorAccess | unlockUser | deleteUser
  | listAdminTeams | createTeam | bulkCreateTeams | updateTeam | deleteTeam | addTeamMember
  | removeTeamMember
  | listAllProblems | createProblem | getAdminProblemByID | updateProblem | setProblemPublished
  | deleteProblem | getAdminProblemTests | addSingleTestCase | updateSingleTestCase
  | deleteSingleTestCase | updateTestPoints | getAdminSingleTestInput | getAdminSingleTestExpected
  | exportProblemTestsZip | replaceTestCases | rejudgeProblem
  | listAdminSubmissions | getAdminSubmission | rejudgeSubmission | cancelSubmission | reviewSubmission
  | unstickTeamSubmissions | getAdminMonitoring
  | listAdminTelemetry | listAdminProctorRisk | getAdminProctorFindings | getAdminProctorOverview
  | getAdminProctorTimeline | listAdminAgents | revokeAgent | readmitContestant | listAuditLogs
  | adminStartContest | adminPauseContest | adminResumeContest | adminExtendContest
  | adminFreezeContest | adminUnfreezeContest | adminResetContest | adminEndContest
  | adminUpdateContestSettings
  deriving DecidableEq, Repr

structure Route where
  method : Method
  path : List String
  chain : List Middleware
  handler : Endpoint
  deriving DecidableEq, Repr

/-- `Group`. -/
def group (base : List String) (chain : List Middleware) (routes : List Route) : List Route :=
  routes.map fun r => { r with path := base ++ r.path, chain := chain ++ r.chain }

def publicRoutes (isProduction : Bool) : List Route :=
  [⟨.get, ["healthz"], [.rateLimit .healthLimiter .peerIP], .health⟩, ⟨.get, ["metrics"], [], .metrics⟩] ++
    if isProduction then [] else [⟨.get, ["swagger", "*any"], [], .swagger⟩]

/-- `rateLimitMiddleware(readLimiter, userIDKeyFunc)`. -/
def limitedReads : Middleware := .rateLimit .readLimiter .userID

def competitorRoutes : List Route :=
  [⟨.post, ["auth", "login"], [.maxBodySize 4096], .login⟩,
   ⟨.post, ["auth", "logout"], [], .logout⟩,
   ⟨.get, ["me"], [.requireUser, limitedReads], .me⟩,
   ⟨.post, ["me", "password"], [.requireUser, .maxBodySize 4096], .changePassword⟩,
   ⟨.get, ["problems"], [.requireUser, limitedReads, .requireProctorAccess], .listPublishedProblems⟩,
   ⟨.get, ["problems", ":slug"],
     [.requireUser, limitedReads, .requireProctorAccess, .requireContestActive],
     .getPublishedProblemBySlug⟩,
   ⟨.get, ["leaderboard"], [.requireUser, limitedReads, .requireProctorAccess], .getLeaderboard⟩,
   ⟨.get, ["proctor", "disclosure"], [], .getProctorDisclosure⟩,
   ⟨.get, ["telemetry", "self"], [.requireUser, .rateLimit .proctorSelfLimiter .userID],
     .getProctorSelfStatus⟩,
   ⟨.post, ["telemetry", "browser-event"], [.requireUser, .maxBodySize 64000], .recordBrowserEvent⟩,
   ⟨.post, ["telemetry", "leave-contest"], [.requireUser], .leaveContest⟩,
   ⟨.get, ["contest", "state"], [], .getContestState⟩,
   ⟨.post, ["run"],
     [.requireUser, .maxBodySize 20000000, .rateLimit .runLimiter .userID, .requireProctorAccess,
      .requireContestActive], .runCode⟩,
   ⟨.post, ["submissions"],
     [.requireUser, .maxBodySize 2000000, .rateLimit .submissionLimiter .userID,
      .requireContestSubmissionsAllowed], .createSubmission⟩,
   ⟨.get, ["submissions"], [.requireUser, limitedReads, .requireProctorAccess], .listUserSubmissions⟩,
   ⟨.get, ["submissions", "stream"], [.requireUser, .rateLimit .streamLimiter .userID],
     .streamSubmissions⟩,
   ⟨.get, ["submissions", ":id"],
     [.requireUser, .rateLimit .submissionStatusLimiter .userID, .requireProctorAccess],
     .getSubmission⟩]

def agentRoutes : List Route :=
  [⟨.post, ["enroll"], [.maxBodySize 4096], .enrollAgent⟩,
   ⟨.post, ["heartbeat"],
     [.requireAgent, .maxBodySize 64000, .requireAgentSignature,
      .rateLimit .agentHeartbeatLimiter .agentID], .agentHeartbeat⟩,
   ⟨.post, ["events"],
     [.requireAgent, .maxBodySize 1000000, .requireAgentSignature,
      .rateLimit .agentEventsLimiter .agentID], .agentEvents⟩,
   ⟨.post, ["shutdown"], [.requireAgent, .maxBodySize 4096, .requireAgentSignature], .agentShutdown⟩,
   ⟨.get, ["rules"], [.requireAgent], .agentRules⟩]

def adminRoutes : List Route :=
  [⟨.get, ["users"], [], .listUsers⟩,
   ⟨.post, ["users"], [], .createUser⟩,
   ⟨.post, ["users", "bulk"], [], .bulkCreateUsers⟩,
   ⟨.post, ["users", "bulk-action"], [], .bulkUserAction⟩,
   ⟨.post, ["users", ":id", "reset-password"], [], .resetPassword⟩,
   ⟨.patch, ["users", ":id", "role"], [], .updateRole⟩,
   ⟨.patch, ["users", ":id", "suspend"], [], .suspendUser⟩,
   ⟨.patch, ["users", ":id", "exemption"], [], .updateUserProctorExemption⟩,
   ⟨.patch, ["users", ":id", "access"], [], .updateUserProctorAccess⟩,
   ⟨.post, ["users", ":id", "unlock"], [], .unlockUser⟩,
   ⟨.delete, ["users", ":id"], [], .deleteUser⟩,
   ⟨.get, ["teams"], [], .listAdminTeams⟩,
   ⟨.post, ["teams"], [], .createTeam⟩,
   ⟨.post, ["teams", "bulk"], [], .bulkCreateTeams⟩,
   ⟨.put, ["teams", ":id"], [], .updateTeam⟩,
   ⟨.delete, ["teams", ":id"], [], .deleteTeam⟩,
   ⟨.post, ["teams", ":id", "members"], [], .addTeamMember⟩,
   ⟨.delete, ["teams", ":id", "members", ":userId"], [], .removeTeamMember⟩,
   ⟨.get, ["problems"], [], .listAllProblems⟩,
   ⟨.post, ["problems"], [], .createProblem⟩,
   ⟨.get, ["problems", ":id"], [], .getAdminProblemByID⟩,
   ⟨.put, ["problems", ":id"], [], .updateProblem⟩,
   ⟨.patch, ["problems", ":id", "publish"], [], .setProblemPublished⟩,
   ⟨.delete, ["problems", ":id"], [], .deleteProblem⟩,
   ⟨.get, ["problems", ":id", "tests"], [], .getAdminProblemTests⟩,
   ⟨.post, ["problems", ":id", "tests"], [], .addSingleTestCase⟩,
   ⟨.put, ["problems", ":id", "tests", ":ordinal"], [], .updateSingleTestCase⟩,
   ⟨.delete, ["problems", ":id", "tests", ":ordinal"], [], .deleteSingleTestCase⟩,
   ⟨.patch, ["problems", ":id", "tests", "points"], [], .updateTestPoints⟩,
   ⟨.get, ["problems", ":id", "tests", ":ordinal", "input"], [], .getAdminSingleTestInput⟩,
   ⟨.get, ["problems", ":id", "tests", ":ordinal", "expected"], [], .getAdminSingleTestExpected⟩,
   ⟨.get, ["problems", ":id", "tests", "export"], [], .exportProblemTestsZip⟩,
   ⟨.put, ["problems", ":id", "tests"], [], .replaceTestCases⟩,
   ⟨.post, ["problems", ":id", "rejudge"], [], .rejudgeProblem⟩,
   ⟨.get, ["submissions"], [], .listAdminSubmissions⟩,
   ⟨.get, ["submissions", ":id"], [], .getAdminSubmission⟩,
   ⟨.post, ["submissions", ":id", "rejudge"], [], .rejudgeSubmission⟩,
   ⟨.post, ["submissions", ":id", "cancel"], [], .cancelSubmission⟩,
   ⟨.post, ["submissions", ":id", "review"], [], .reviewSubmission⟩,
   ⟨.post, ["teams", ":id", "unstick"], [], .unstickTeamSubmissions⟩,
   ⟨.get, ["monitoring"], [], .getAdminMonitoring⟩,
   ⟨.get, ["telemetry"], [], .listAdminTelemetry⟩,
   ⟨.get, ["proctor", "risk"], [], .listAdminProctorRisk⟩,
   ⟨.get, ["proctor", "findings", ":userId"], [], .getAdminProctorFindings⟩,
   ⟨.get, ["proctor", "overview"], [], .getAdminProctorOverview⟩,
   ⟨.get, ["proctor", "timeline", ":userId"], [], .getAdminProctorTimeline⟩,
   ⟨.get, ["proctor", "agents"], [], .listAdminAgents⟩,
   ⟨.post, ["proctor", "agents", ":id", "revoke"], [], .revokeAgent⟩,
   ⟨.post, ["proctor", "users", ":id", "readmit"], [], .readmitContestant⟩,
   ⟨.get, ["audit-logs"], [], .listAuditLogs⟩,
   ⟨.get, ["contest", "state"], [], .getContestState⟩,
   ⟨.post, ["contest", "start"], [], .adminStartContest⟩,
   ⟨.post, ["contest", "pause"], [], .adminPauseContest⟩,
   ⟨.post, ["contest", "resume"], [], .adminResumeContest⟩,
   ⟨.post, ["contest", "extend"], [], .adminExtendContest⟩,
   ⟨.post, ["contest", "freeze"], [], .adminFreezeContest⟩,
   ⟨.post, ["contest", "unfreeze"], [], .adminUnfreezeContest⟩,
   ⟨.post, ["contest", "reset"], [], .adminResetContest⟩,
   ⟨.post, ["contest", "end"], [], .adminEndContest⟩,
   ⟨.put, ["contest", "settings"], [], .adminUpdateContestSettings⟩]

/-- The middlewares of the group for administrators. -/
def adminChain : List Middleware :=
  [.requireUser, .requireAdmin, .maxBodySize (64 * 1024 * 1024), .rateLimit .adminLimiter .userID]

/-- `NewRouter`. -/
def router (isProduction : Bool) : List Route :=
  group [] [.cors] <| publicRoutes isProduction ++
    group ["api", "v1"] []
      (competitorRoutes ++ group ["agent"] [] agentRoutes ++ group ["admin"] adminChain adminRoutes)

/-! ## What the handlers rest on -/

namespace Endpoint

/-- The handlers that ask for the account of the request. -/
def asksUser (h : Endpoint) : Bool :=
  [me, changePassword, listPublishedProblems, getPublishedProblemBySlug, getLeaderboard, getProctorSelfStatus,
    recordBrowserEvent, leaveContest, runCode, createSubmission, streamSubmissions, getSubmission,
    bulkUserAction, resetPassword, updateRole, suspendUser, updateUserProctorExemption,
    updateUserProctorAccess, unlockUser, deleteUser, reviewSubmission, readmitContestant].contains h

/-- The handlers that ask for the agent of the request. -/
def asksAgent (h : Endpoint) : Bool := [agentHeartbeat, agentEvents, agentShutdown].contains h

/-- The handlers that read the body. -/
def readsBody (h : Endpoint) : Bool :=
  [login, changePassword, recordBrowserEvent, runCode, createSubmission, enrollAgent, agentHeartbeat,
    agentEvents, agentShutdown, createUser, bulkCreateUsers, bulkUserAction, resetPassword, updateRole,
    suspendUser, updateUserProctorExemption, updateUserProctorAccess, createTeam, bulkCreateTeams, updateTeam,
    addTeamMember, createProblem, updateProblem, setProblemPublished, addSingleTestCase, updateSingleTestCase,
    updateTestPoints, replaceTestCases, reviewSubmission, revokeAgent, adminStartContest, adminExtendContest,
    adminUpdateContestSettings].contains h

/-- The handlers for everybody. -/
def isOpen (h : Endpoint) : Bool :=
  [health, metrics, swagger, login, logout, getProctorDisclosure, getContestState, enrollAgent].contains h

/-- The handlers behind the gate. -/
def isGated (h : Endpoint) : Bool :=
  [listPublishedProblems, getPublishedProblemBySlug, getLeaderboard, runCode, listUserSubmissions,
    getSubmission].contains h

/-- The handlers that are closed before the contest and in its pauses. -/
def isContest (h : Endpoint) : Bool := [getPublishedProblemBySlug, runCode].contains h

end Endpoint

namespace Route

/-- The limits around the body of a request on this route, the innermost first. -/
def limits (r : Route) : List ℕ := bodyLimits r.chain.reverse

/-- A route in order: its middlewares stand behind what they need, and so does its handler. -/
structure Sound (r : Route) : Prop where
  ordered : Go.Ordered (Placed r.limits) [] r.chain
  user : r.handler.asksUser → .requireUser ∈ r.chain
  agent : r.handler.asksAgent → .requireAgent ∈ r.chain
  body : r.handler.readsBody → r.limits ≠ []

/-- A route that keeps everybody out who is not meant. -/
structure Guarded (r : Route) : Prop where
  origin : .cors ∈ r.chain
  known : ¬ r.handler.isOpen → .requireUser ∈ r.chain ∨ .requireAgent ∈ r.chain
  admin : ["api", "v1", "admin"] <+: r.path → .requireUser ∈ r.chain ∧ .requireAdmin ∈ r.chain
  gated : r.handler.isGated → .requireUser ∈ r.chain ∧ .requireProctorAccess ∈ r.chain
  contest : r.handler.isContest → .requireUser ∈ r.chain ∧ .requireContestActive ∈ r.chain
  submitting : r.handler = .createSubmission →
    .requireUser ∈ r.chain ∧ .requireContestSubmissionsAllowed ∈ r.chain
  signed : r.handler.asksAgent → .requireAgent ∈ r.chain ∧ .requireAgentSignature ∈ r.chain

instance (r : Route) : Decidable r.Sound :=
  decidable_of_iff
    (Go.Ordered (Placed r.limits) [] r.chain ∧ (r.handler.asksUser → .requireUser ∈ r.chain) ∧
      (r.handler.asksAgent → .requireAgent ∈ r.chain) ∧ (r.handler.readsBody → r.limits ≠ []))
    ⟨fun ⟨h₁, h₂, h₃, h₄⟩ => ⟨h₁, h₂, h₃, h₄⟩, fun ⟨h₁, h₂, h₃, h₄⟩ => ⟨h₁, h₂, h₃, h₄⟩⟩

set_option synthInstance.maxSize 256 in
instance (r : Route) : Decidable r.Guarded :=
  decidable_of_iff
    (.cors ∈ r.chain ∧ (¬ r.handler.isOpen → .requireUser ∈ r.chain ∨ .requireAgent ∈ r.chain) ∧
      (["api", "v1", "admin"] <+: r.path → .requireUser ∈ r.chain ∧ .requireAdmin ∈ r.chain) ∧
      (r.handler.isGated → .requireUser ∈ r.chain ∧ .requireProctorAccess ∈ r.chain) ∧
      (r.handler.isContest → .requireUser ∈ r.chain ∧ .requireContestActive ∈ r.chain) ∧
      (r.handler = .createSubmission →
        .requireUser ∈ r.chain ∧ .requireContestSubmissionsAllowed ∈ r.chain) ∧
      (r.handler.asksAgent → .requireAgent ∈ r.chain ∧ .requireAgentSignature ∈ r.chain))
    ⟨fun ⟨h₁, h₂, h₃, h₄, h₅, h₆, h₇⟩ => ⟨h₁, h₂, h₃, h₄, h₅, h₆, h₇⟩,
      fun ⟨h₁, h₂, h₃, h₄, h₅, h₆, h₇⟩ => ⟨h₁, h₂, h₃, h₄, h₅, h₆, h₇⟩⟩

end Route

set_option maxRecDepth 4000 in
lemma router_guarded (isProduction : Bool) : ∀ r ∈ router isProduction, r.Guarded := by
  cases isProduction <;> decide

set_option maxRecDepth 4000 in
lemma router_sound (isProduction : Bool) : ∀ r ∈ router isProduction, r.Sound := by
  cases isProduction <;> decide

/-! ## Main results -/

section Served

variable {b : Backend} {req : Request} {w w' : World} {r : Route} {c : Context} {p : Bool}

/-- A route in order is passed exactly if each of its middlewares admits. -/
lemma serve_spec (h : r.Sound) (b : Backend) (req : Request) (w : World) :
    (∀ m ∈ r.chain, Admits b req w r.limits m) ∧
        (∃ c w', serve b req r.chain w = (.ok c, w') ∧ After b req w r.limits r.chain.reverse c w') ∨
      ¬ (∀ m ∈ r.chain, Admits b req w r.limits m) ∧
        ∃ stop w', serve b req r.chain w = (.error stop, w') ∧ Stopped req w stop w' :=
  Go.pass_spec (fun _ _ _ _ hplaced hafter => middleware_passes hplaced hafter) h.ordered
    (after_nil b req w r.limits)

lemma serve_ok (h : r.Sound) (hserve : serve b req r.chain w = (.ok c, w')) :
    After b req w r.limits r.chain.reverse c w' := by
  rcases serve_spec h b req w with ⟨_, c', w'', hcode, hafter⟩ | ⟨_, stop, w'', hcode, _⟩
  · obtain ⟨hc, rfl⟩ := Prod.mk.inj (hcode.symm.trans hserve)
    obtain rfl := Except.ok.inj hc
    exact hafter
  · cases (Prod.mk.inj (hcode.symm.trans hserve)).1

lemma caller_eq_some {ag : AgentRef} (h : caller b req = some ag) :
    req.bearer = some ag.rawToken ∧ b.getByToken ag.rawToken = .ok ag.id := by
  rw [caller] at h
  split at h
  · cases h
  · cases h
  · rename_i token _ hbearer
    cases htoken : b.getByToken token with
    | error err => simp [htoken, Except.toOption] at h
    | ok id =>
        obtain rfl : ⟨id, token⟩ = ag := by simpa [htoken, Except.toOption] using h
        exact ⟨hbearer, htoken⟩

/-- A status that is not refused. -/
lemma not_refused {refused : Clock.Status → Option Stop} {st : Clock.Status}
    (h : b.status.bind refused = none) (hst : b.status = some st) : refused st = none := by
  rwa [hst] at h

lemma contestLocked_eq_none {st : Clock.Status} (h : contestLocked st = none) :
    st = .running ∨ st = .ended := by
  cases st with
  | notStarted => cases h
  | running => exact .inl rfl
  | paused => cases h
  | ended => exact .inr rfl

lemma submissionsClosed_eq_none {st : Clock.Status} (h : submissionsClosed st = none) : st = .running := by
  cases st with
  | notStarted => cases h
  | running => rfl
  | paused => cases h
  | ended => cases h

/-- Who passes has a session that has not expired. -/
lemma not_expired {a : Account.Ambient} {token : String} {server : Account.Server} {u : String × UserRow}
    {s : Account.Session} (h : Account.requireUser a token server = .ok u)
    (hs : server.sessions.lookup token = some s) : a.now ≤ s.expiresAt := by
  by_contra hexpired
  simp only [Account.requireUser, hs] at h
  split at h
  · cases h
  · split at h
    · cases h
    · rename_i session hsession
      obtain rfl := Option.some.inj (Option.filter_eq_some_iff.mp hsession).1
      rw [if_pos (lt_of_not_ge hexpired)] at h
      cases h

/-- The session of a request is one of the server's, not expired, of an account that is not suspended. -/
lemma session_eq_some {u : String × UserRow} (h : session b req w = some u) :
    ∃ s, w.server.sessions.lookup (String.ofList req.sessionToken) = some s ∧ s.userID = u.1 ∧
      b.ambient.now ≤ s.expiresAt ∧ w.server.users.lookup u.1 = some u.2 ∧ u.2.isSuspended = false := by
  rw [session] at h
  cases hcode : Account.requireUser b.ambient (String.ofList req.sessionToken) w.server with
  | error refused =>
      rw [hcode] at h
      cases h
  | ok v =>
      rw [hcode] at h
      obtain rfl := Option.some.inj h
      obtain ⟨s, hs, hid, hrow, hactive⟩ := Account.requireUser_ok hcode
      refine ⟨s, hs, hid, ?_, hrow, hactive⟩
      exact not_expired hcode hs

/-- **Reached exactly when admitted**: on every route, whatever the request and the state, the handler is
reached exactly if each middleware admits, each asked alone and of the state as it was. -/
theorem reached_iff (b : Backend) (req : Request) (w : World) (hr : r ∈ router p) :
    (∃ c w', serve b req r.chain w = (.ok c, w')) ↔ ∀ m ∈ r.chain, Admits b req w r.limits m := by
  rcases serve_spec (router_sound p r hr) b req w with
    ⟨hadmits, c, w', hcode, _⟩ | ⟨hnot, stop, w', hcode, _⟩
  · exact ⟨fun _ => hadmits, fun _ => ⟨c, w', hcode⟩⟩
  · constructor
    · rintro ⟨c, w'', hserve⟩
      cases (Prod.mk.inj (hcode.symm.trans hserve)).1
    · exact fun hadmits => absurd hadmits hnot

/-- What holds of a request once it is with its handler. -/
structure Mediated (b : Backend) (req : Request) (w : World) (r : Route) (c : Context) (w' : World) : Prop where
  origin : originAllowed b req = true
  user : ∀ u, c.user = some u → ∃ s, w.server.sessions.lookup (String.ofList req.sessionToken) = some s ∧
    s.userID = u.1 ∧ b.ambient.now ≤ s.expiresAt ∧ w.server.users.lookup u.1 = some u.2 ∧
    u.2.isSuspended = false
  agent : ∀ ag, c.agent = some ag → req.bearer = some ag.rawToken ∧ b.getByToken ag.rawToken = .ok ag.id
  known : ¬ r.handler.isOpen → c.user.isSome ∨ c.agent.isSome
  admin : ["api", "v1", "admin"] <+: r.path → ∃ u, c.user = some u ∧ u.2.role = .admin
  gated : r.handler.isGated → b.shouldBypassProctor = true ∨ ∃ u, c.user = some u ∧ GateOpen b req w u
  contest : r.handler.isContest → ∃ u, c.user = some u ∧
    (u.2.role = .admin ∨ ∀ st, b.status = some st → st = .running ∨ st = .ended)
  submitting : r.handler = .createSubmission → ∃ u, c.user = some u ∧
    (u.2.role = .admin ∨ ∀ st, b.status = some st → st = .running)
  signed : r.handler.asksAgent → b.shouldBypassProctor = true ∨ ∃ ag, c.agent = some ag ∧ Signed b req ag
  counted : ∀ limit keyFunc, .rateLimit limit keyFunc ∈ r.chain →
    (w.stores limit).rateLimit (keyFunc.key req c) req.clientIP b.ambient.now = (w'.stores limit, true)
  server : w'.server = w.server

/-- **Mediation**: a handler is reached only by those it is for, from an origin that is let through: all but
a few by somebody known, those for administrators by an administrator, those of the contest by an
administrator or while it runs or has ended, submissions by an administrator or while it runs, and, unless the
checks of proctoring are switched off, those behind the gate by whom the gate allows and those of the agents
with a signed body; and each store on the way has counted the request once. -/
theorem mediated (hr : r ∈ router p) (hserve : serve b req r.chain w = (.ok c, w')) :
    Mediated b req w r c w' := by
  have hafter := serve_ok (router_sound p r hr) hserve
  have hguarded := router_guarded p r hr
  have hordered := (router_sound p r hr).ordered
  have hadmitted : ∀ {m}, m ∈ r.chain → Admits b req w r.limits m :=
    fun hm => hafter.admitted _ (List.mem_reverse.mpr hm)
  have huser : .requireUser ∈ r.chain → c.user = session b req w :=
    fun hm => by rw [hafter.user, if_pos (List.mem_reverse.mpr hm)]
  have hagent : .requireAgent ∈ r.chain → c.agent = caller b req :=
    fun hm => by rw [hafter.agent, if_pos (List.mem_reverse.mpr hm)]
  constructor
  case origin => exact hadmitted hguarded.origin
  case user =>
    intro u hu
    by_cases hm : .requireUser ∈ r.chain
    · exact session_eq_some ((huser hm).symm.trans hu)
    · rw [hafter.user, if_neg (by simpa using hm)] at hu
      cases hu
  case agent =>
    intro ag hag
    by_cases hm : .requireAgent ∈ r.chain
    · exact caller_eq_some ((hagent hm).symm.trans hag)
    · rw [hafter.agent, if_neg (by simpa using hm)] at hag
      cases hag
  case known =>
    intro hopen
    rcases hguarded.known hopen with hm | hm
    · rw [huser hm]
      exact .inl (hadmitted hm)
    · rw [hagent hm]
      exact .inr (hadmitted hm)
  case admin =>
    intro hpath
    obtain ⟨hm, hadmin⟩ := hguarded.admin hpath
    rw [huser hm]
    exact hadmitted hadmin
  case gated =>
    intro hgated
    obtain ⟨hm, hgate⟩ := hguarded.gated hgated
    rw [huser hm]
    exact hadmitted hgate
  case contest =>
    intro hcontest
    obtain ⟨hm, hactive⟩ := hguarded.contest hcontest
    obtain ⟨u, hu, hopen⟩ := hadmitted hactive
    rw [huser hm]
    exact ⟨u, hu, hopen.imp_right fun hnone st hst => contestLocked_eq_none (not_refused hnone hst)⟩
  case submitting =>
    intro hsubmitting
    obtain ⟨hm, hallowed⟩ := hguarded.submitting hsubmitting
    obtain ⟨u, hu, hopen⟩ := hadmitted hallowed
    rw [huser hm]
    exact ⟨u, hu, hopen.imp_right fun hnone st hst => submissionsClosed_eq_none (not_refused hnone hst)⟩
  case signed =>
    intro hasks
    obtain ⟨hm, hsignature⟩ := hguarded.signed hasks
    rw [hagent hm]
    exact (hadmitted hsignature).imp_right fun ⟨ag, hag, _, hsigned⟩ => ⟨ag, hag, hsigned⟩
  case counted =>
    intro limit keyFunc hm
    obtain ⟨before, ⟨_, hplacedUser, hplacedAgent⟩, hbefore⟩ := hordered.placed_of_mem hm
    have hpassed : ∀ {m}, m ∈ before → m ∈ r.chain.reverse :=
      fun hmem => List.mem_reverse.mpr ((hbefore _ hmem).resolve_left List.not_mem_nil)
    rw [key_eq hafter (fun hk => hpassed (hplacedUser hk)) fun hk => hpassed (hplacedAgent hk)]
    exact Prod.ext (hafter.counted limit keyFunc (List.mem_reverse.mpr hm)).symm (hadmitted hm)
  case server => exact hafter.server

/-- **Nobody is asked for in vain**: on every route, whatever the request and the state, a middleware never
asks for an account or an agent that has not been found out, nor does the handler, and no handler reads a body
without a limit; a request that is stopped leaves the accounts, but for a session of its own. -/
theorem no_panics (b : Backend) (req : Request) (w : World) (hr : r ∈ router p) :
    match serve b req r.chain w with
    | (.error stop, w') => Stopped req w stop w'
    | (.ok c, _) => (r.handler.asksUser → c.user.isSome) ∧ (r.handler.asksAgent → c.agent.isSome) ∧
        (r.handler.readsBody → c.limits ≠ []) := by
  have hsound := router_sound p r hr
  rcases serve_spec hsound b req w with ⟨_, c, w', hcode, hafter⟩ | ⟨_, stop, w', hcode, hstopped⟩
  · rw [hcode]
    refine ⟨fun hasks => ?_, fun hasks => ?_, fun hreads => ?_⟩
    · obtain ⟨u, _, hu⟩ := hafter.user_of_mem (List.mem_reverse.mpr (hsound.user hasks))
      rw [hu]
      rfl
    · obtain ⟨ag, _, hag⟩ := hafter.agent_of_mem (List.mem_reverse.mpr (hsound.agent hasks))
      rw [hag]
      rfl
    · rw [hafter.limits]
      exact hsound.body hreads
  · rw [hcode]
    exact hstopped

end Served

/-! ### An administrator and a stranger -/

/-- A request that is none of a browser's, or comes from the host itself, is let through. -/
def sampleBackend : Backend where
  allowedOrigins := ["http://localhost:3000".toList, ['*']]
  cors allowed origin host := origin = [] || origin = "http://".toList ++ host ||
    origin = "https://".toList ++ host || allowed origin
  hash _ := .replicate 32 0
  shouldBypassProctor := false
  ambient := ⟨100, 100, true, true, none, 0, ⟨false, false, false, false, false, false, false⟩⟩
  getByToken _ := .error .unknown
  net := Agent.sampleNet
  gateRepository := Agent.sampleRepository
  gateStart := 100
  gateNow := 100
  contest := none

def sampleRequest : Request where
  authorization := "Bearer s1".toList
  sessionCookie := none
  remoteIP := "10.0.0.7"
  clientIP := "10.0.0.7"
  clientHeader := []
  desktopCookie := none
  agentSignature := []
  body := []
  origin := "http://localhost:3000".toList
  host := "localhost:8080".toList

/-- One account with one session, and nothing has been counted yet. -/
def sampleWorld : World where
  server := .start ((∅ : Account.Users).insert "root" ⟨"root", .admin, "", false, "", none⟩)
    ((∅ : Sql.Table String Account.Session).insert "s1" ⟨"root", 200⟩) ∅
  stores _ := .new 1 10
  gate := Agent.sampleGate

def sampleRoute : Route :=
  ⟨.get, ["api", "v1", "admin", "monitoring"], .cors :: adminChain, .getAdminMonitoring⟩

theorem reached_iff_sample :
    (∃ c w', serve sampleBackend sampleRequest sampleRoute.chain sampleWorld = (.ok c, w')) ↔
      ∀ m ∈ sampleRoute.chain, Admits sampleBackend sampleRequest sampleWorld sampleRoute.limits m :=
  reached_iff (p := true) sampleBackend sampleRequest sampleWorld (by decide)

theorem mediated_sample : ∃ c w',
    serve sampleBackend sampleRequest sampleRoute.chain sampleWorld = (.ok c, w') ∧
      Mediated sampleBackend sampleRequest sampleWorld sampleRoute c w' := by
  have hserved :
      (serve sampleBackend sampleRequest sampleRoute.chain sampleWorld).1.toOption.isSome = true := by
    decide +kernel
  cases hrun : serve sampleBackend sampleRequest sampleRoute.chain sampleWorld with
  | mk result w' =>
      rw [hrun] at hserved
      cases result with
      | error stop => cases hserved
      | ok c => exact ⟨c, w', rfl, mediated (p := true) (by decide) hrun⟩

/-- Without a session nobody gets there. -/
theorem no_panics_sample : ∃ stop,
    serve sampleBackend { sampleRequest with authorization := [] } sampleRoute.chain sampleWorld =
        (.error stop, sampleWorld) ∧
      Stopped { sampleRequest with authorization := [] } sampleWorld stop sampleWorld :=
  ⟨.refused .unauthenticated, rfl,
    no_panics (p := true) (r := sampleRoute) sampleBackend { sampleRequest with authorization := [] } sampleWorld
      (by decide)⟩

end Api

end Labyrithm
