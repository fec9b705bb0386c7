import Labyrithm.Account.Tracker
import Labyrithm.Account.Users
import Labyrithm.Agent.Enrollment
import Labyrithm.Go.Seconds

/-!
# Blocks of an account

The three endpoints of `backend/internal/api` that check a password: `login`, `enrollAgent` and
`changePassword`, with `requireUser` before the last.  The login looks at the lock of the name before it
looks for the account, and at the suspension after the password; `requireUser` looks at the suspension;
enrolling looks at neither.  A history is of these requests, evictions of the tracker, and any others, which
may leave anything in the database and clear names of the tracker.  They are served one at a time: nothing
comes between the look at the lock and the session at the end of a login.

* `marks` — what a request does to the tracker: a failed check at the login is a failure of its name.
* `kept_run` — in every history, the record of a name is made of the failures since it was last cleared.
* **`blocks_hold`** — what a lock and a suspension of an account keep from whom, after every history.
-/

namespace Labyrithm

namespace Account

/-! ## The server -/

/-- A row of `sessions`. -/
structure Session where
  userID : String
  expiresAt : ℤ
  deriving DecidableEq, Repr

/-- What the three endpoints read and write; the sessions are by token. -/
structure Server where
  users : Users
  sessions : Sql.Table String Session
  enrollments : Sql.Table String (List Agent.Enrollment)
  tracker : Tracker

/-- The settings, and bcrypt: `CheckPassword hash plain`, and `HashPassword`, which may fail. -/
structure Config where
  checkPassword : String → String → Bool
  hashPassword : String → Option String
  sessionTTL : ℤ
  adminSessionTTL : ℤ
  enrollSettings : Option Agent.EnrollSettings

/-- Which store operations of a request fail. -/
structure Faults where
  getSession : Bool
  getByID : Bool
  getForLogin : Bool
  createSession : Bool
  deleteSession : Bool
  updatePassword : Bool
  enroll : Bool
  deriving DecidableEq, Repr

/-- What a request draws from elsewhere: the times of the server and of the database, the verdicts of the
limiters, a random token, the id of a new row. -/
structure Ambient where
  now : ℤ
  dbNow : ℤ
  ipAllows : Bool
  userAllows : Bool
  token : Option String
  agentID : ℕ
  faults : Faults
  deriving DecidableEq, Repr

inductive Reply
  | invalidPayload
  | locked (remaining : ℤ)
  | tooManyLogins
  | tooManyEnrollments
  | invalidCredentials
  | suspended (reason : String)
  | sessionFailed
  | session (userID token : String) (ttl : ℤ)
  | enrollRefused (refusal : Agent.EnrollRefusal)
  | agentTokenFailed
  | enrollFailed
  | agentCredential (userID token : String)
  | unauthenticated
  | invalidSession
  | sessionExpired
  | userNotFound
  | accountSuspended
  | newPasswordLength (least : ℕ)
  | passwordIsUsername
  | credentialsFailed
  | incorrectPassword
  | hashFailed
  | updateFailed
  | passwordUpdated
  deriving DecidableEq, Repr

namespace Reply

def status : Reply → ℕ
  | session _ _ _ | agentCredential _ _ | passwordUpdated => 200
  | invalidPayload | newPasswordLength _ | passwordIsUsername | incorrectPassword => 400
  | invalidCredentials | unauthenticated | invalidSession | sessionExpired | userNotFound => 401
  | suspended _ | accountSuspended => 403
  | locked _ | tooManyLogins | tooManyEnrollments => 429
  | enrollRefused refusal => refusal.status
  | _ => 500

/-- The message of an error. -/
def message : Reply → String
  | invalidPayload => "invalid payload"
  | locked remaining =>
      let remainingSec := Go.seconds remaining
      "Account temporarily locked due to too many failed attempts. Try again in " ++
        if 60 < remainingSec then Int.repr (remaining.tdiv Go.minute + 1) ++ " minute(s)."
        else Int.repr remainingSec ++ " seconds."
  | tooManyLogins => "Too many login attempts. Please wait a moment."
  | tooManyEnrollments => "Too many enrollment attempts. Please wait a moment."
  | invalidCredentials => "invalid username or password"
  | suspended reason =>
      "Account has been suspended by an administrator." ++
        if reason = "" then "" else " Reason: " ++ reason
  | sessionFailed => "failed to create session"
  | enrollRefused refusal => refusal.message
  | agentTokenFailed => "failed to issue agent token"
  | enrollFailed => "failed to enroll agent"
  | unauthenticated => "unauthenticated"
  | invalidSession => "invalid session"
  | sessionExpired => "session expired"
  | userNotFound => "user not found"
  | accountSuspended => "Account has been suspended by an administrator."
  | newPasswordLength least => "new password must be at least " ++ Nat.repr least ++ " characters"
  | passwordIsUsername => "password cannot match username"
  | credentialsFailed => "failed to load user credentials"
  | incorrectPassword => "current password is incorrect"
  | hashFailed => "failed to hash new password"
  | updateFailed => "failed to update password"
  | session _ _ _ | agentCredential _ _ | passwordUpdated => ""

end Reply

/-! ## The endpoints -/

/-- `strings.ToLower(strings.TrimSpace(req.Username))`. -/
def normalizedUsername (username : String) : String :=
  String.ofList (Go.toLower (Go.trimSpace username.toList))

/-- `GetForLogin`: the name is compared as it is. -/
def getForLogin (a : Ambient) (username : String) (users : Users) : Option (String × UserRow) :=
  if a.faults.getForLogin then none else users.rows.find? fun p => p.2.username = username

/-- `GetForLogin` and `CheckPassword`, which fail in the same way. -/
def authenticate (cfg : Config) (a : Ambient) (username password : String) (s : Server) :
    Option (String × UserRow) :=
  (getForLogin a username s.users).filter fun p => cfg.checkPassword p.2.passwordHash password

/-- `session.Repository.Create`. -/
def createSession (token userID : String) (expiresAt : ℤ) (shouldRevokePriorSessions : Bool)
    (sessions : Sql.Table String Session) : Sql.Table String Session :=
  let kept := if shouldRevokePriorSessions then
      sessions.filterMapRows fun _ session => if session.userID = userID then none else some session
    else sessions
  kept.insert token ⟨userID, expiresAt⟩

def login (cfg : Config) (a : Ambient) (username password : String) (s : Server) : Reply × Server :=
  if username = "" ∨ password = "" then (.invalidPayload, s)
  else
    match s.tracker.isLocked (normalizedUsername username) a.now with
    | some remaining => (.locked remaining, s)
    | none =>
        if !a.ipAllows || !a.userAllows then (.tooManyLogins, s)
        else
          match authenticate cfg a username password s with
          | none =>
              (.invalidCredentials,
                { s with tracker := s.tracker.recordFailure (normalizedUsername username) a.now })
          | some (userID, row) =>
              let s := { s with tracker := s.tracker.recordSuccess (normalizedUsername username) }
              if row.isSuspended then (.suspended row.suspendedReason, s)
              else
                let isAdmin : Bool := row.role = .admin
                let ttl := if isAdmin then cfg.adminSessionTTL else cfg.sessionTTL
                match a.token with
                | none => (.sessionFailed, s)
                | some token =>
                    if a.faults.createSession then (.sessionFailed, s)
                    else (.session userID token ttl,
                      { s with sessions := createSession token userID (a.now + ttl) (!isAdmin) s.sessions })

def enrollAgent (cfg : Config) (a : Ambient) (username password : String) (req : Agent.EnrollRequest)
    (s : Server) : Reply × Server :=
  if username = "" ∨ password = "" ∨ req.machineId = "" then (.invalidPayload, s)
  else if !a.ipAllows || !a.userAllows then (.tooManyEnrollments, s)
  else
    match authenticate cfg a username password s with
    | none => (.invalidCredentials, s)
    | some (userID, row) =>
        match Agent.enrollRefusal cfg.enrollSettings (row.role = .competitor) req with
        | some refusal => (.enrollRefused refusal, s)
        | none =>
            match a.token with
            | none => (.agentTokenFailed, s)
            | some token =>
                if a.faults.enroll then (.enrollFailed, s)
                else
                  let enrollments := (s.enrollments.lookup userID).getD []
                  (.agentCredential userID token,
                    { s with
                      enrollments := s.enrollments.insert userID
                        (Agent.enroll a.agentID req a.dbNow enrollments) })

/-- `requireUser`: the account of a session, or the refusal. -/
def requireUser (a : Ambient) (token : String) (s : Server) : Except (Reply × Server) (String × UserRow) :=
  let deleted := if a.faults.deleteSession then s else { s with sessions := s.sessions.erase token }
  if token = "" then .error (.unauthenticated, s)
  else
    match (s.sessions.lookup token).filter fun session => !a.faults.getSession && a.dbNow ≤ session.expiresAt with
    | none => .error (.invalidSession, s)
    | some session =>
        if session.expiresAt < a.now then .error (.sessionExpired, deleted)
        else
          match (s.users.lookup session.userID).filter fun _ => !a.faults.getByID with
          | none => .error (.userNotFound, s)
          | some row =>
              if row.isSuspended then .error (.accountSuspended, deleted) else .ok (session.userID, row)

def changePassword (cfg : Config) (a : Ambient) (token currentPassword newPassword : String)
    (s : Server) : Reply × Server :=
  match requireUser a token s with
  | .error refused => refused
  | .ok (userID, row) =>
      let least := if row.role = .admin then 12 else 8
      if currentPassword = "" ∨ newPassword = "" then (.invalidPayload, s)
      else if Go.len newPassword.toList < least then (.newPasswordLength least, s)
      else if Go.equalFold (Go.trimSpace newPassword.toList) row.username.toList then (.passwordIsUsername, s)
      else
        match getForLogin a row.username s.users with
        | none => (.credentialsFailed, s)
        | some (_, stored) =>
            if !cfg.checkPassword stored.passwordHash currentPassword then (.incorrectPassword, s)
            else
              match cfg.hashPassword newPassword with
              | none => (.hashFailed, s)
              | some hash =>
                  match s.users.lookup userID with
                  | none => (.updateFailed, s)
                  | some old =>
                      if a.faults.updatePassword then (.updateFailed, s)
                      else (.passwordUpdated,
                        { s with
                          users := s.users.insert userID { old with passwordHash := hash }
                          sessions := if a.faults.deleteSession then s.sessions
                            else s.sessions.filterMapRows fun _ session =>
                              if session.userID = userID then none else some session })

/-! ## Histories -/

inductive Event
  | login (username password : String)
  | enrollAgent (username password : String) (req : Agent.EnrollRequest)
  | changePassword (token currentPassword newPassword : String)
  | evictIdle
  /-- another request: what it leaves in the database, and the names that it clears of the tracker, as an
  administrator does who restores an account or resets its password -/
  | other (users : Users) (sessions : Sql.Table String Session)
      (enrollments : Sql.Table String (List Agent.Enrollment)) (cleared : List String)

/-- The reply of one of the three endpoints, and the server after an event, which is served from its first
check to its reply before the next one. -/
def serve (cfg : Config) (s : Server) : Ambient × Event → Option Reply × Server
  | (a, .login username password) => (login cfg a username password s).map some id
  | (a, .enrollAgent username password req) => (enrollAgent cfg a username password req s).map some id
  | (a, .changePassword token currentPassword newPassword) =>
      (changePassword cfg a token currentPassword newPassword s).map some id
  | (a, .evictIdle) => (none, { s with tracker := s.tracker.evictIdle a.now })
  | (_, .other users sessions enrollments cleared) =>
      (none, ⟨users, sessions, enrollments, cleared.foldl (fun t name => t.recordSuccess name) s.tracker⟩)

/-- The server when it comes up. -/
def Server.start (users : Users) (sessions : Sql.Table String Session)
    (enrollments : Sql.Table String (List Agent.Enrollment)) : Server :=
  ⟨users, sessions, enrollments, .new Tracker.defaultMaxFailedLogins Tracker.defaultLockoutDuration⟩

def run (cfg : Config) (es : List (Ambient × Event)) (s : Server) : Server :=
  es.foldl (fun s e => (serve cfg s e).2) s

/-- The login gets to the check of the password. -/
def reachesCheck (a : Ambient) (username password : String) (s : Server) : Bool :=
  username ≠ "" && password ≠ "" && (s.tracker.isLocked (normalizedUsername username) a.now).isNone
    && a.ipAllows && a.userAllows

/-- What an event does to the record of a name. -/
def mark (cfg : Config) (s : Server) (name : String) : Ambient × Event → Option Tracker.Mark
  | (a, .login username password) =>
      if reachesCheck a username password s ∧ Tracker.key (normalizedUsername username) = name then
        match authenticate cfg a username password s with
        | none => some (.failed a.now)
        | some _ => some .cleared
      else none
  | (a, .evictIdle) => if s.tracker.evicts a.now name then some .cleared else none
  | (_, .other _ _ _ cleared) => if name ∈ cleared.map Tracker.key then some .cleared else none
  | _ => none

/-- What the events of a history do to the record of a name. -/
def marks (cfg : Config) (name : String) : List (Ambient × Event) → Server → List Tracker.Mark
  | [], _ => []
  | e :: es, s => (mark cfg s name e).toList ++ marks cfg name es (serve cfg s e).2

variable {cfg : Config} {a : Ambient} {username password name token userID : String} {row : UserRow}
  {s : Server} {before : List ℤ}

/-! ## What the login does -/

lemma login_of_locked {remaining : ℤ} (hname : username ≠ "") (hpassword : password ≠ "")
    (hlocked : s.tracker.isLocked (normalizedUsername username) a.now = some remaining) :
    login cfg a username password s = (.locked remaining, s) := by
  simp [login, hname, hpassword, hlocked]

/-- A login that does not get to its check changes nothing, whatever the password. -/
lemma login_of_not_reaches (h : reachesCheck a username password s = false) (hpassword : password ≠ "") :
    ∃ reply, (∀ cfg password', password' ≠ "" → login cfg a username password' s = (reply, s))
      ∧ ∀ userID token ttl, reply ≠ .session userID token ttl := by
  by_cases hname : username = ""
  · refine ⟨.invalidPayload, fun cfg password' _ => by simp [login, hname], ?_⟩
    rintro userID token ttl ⟨⟩
  · cases hlocked : s.tracker.isLocked (normalizedUsername username) a.now with
    | some remaining =>
        refine ⟨.locked remaining, fun cfg password' hp => login_of_locked hname hp hlocked, ?_⟩
        rintro userID token ttl ⟨⟩
    | none =>
        have hlimited : (!a.ipAllows || !a.userAllows) = true := by
          simp [reachesCheck, hname, hpassword, hlocked] at h
          cases hip : a.ipAllows with
          | false => rfl
          | true => simp [h hip]
        refine ⟨.tooManyLogins, fun cfg password' hp => by simp [login, hname, hp, hlocked, hlimited], ?_⟩
        rintro userID token ttl ⟨⟩

lemma reachesCheck_iff : reachesCheck a username password s = true ↔
    username ≠ "" ∧ password ≠ "" ∧ s.tracker.isLocked (normalizedUsername username) a.now = none
      ∧ a.ipAllows = true ∧ a.userAllows = true := by
  simp [reachesCheck, and_assoc]

lemma login_of_failed (h : reachesCheck a username password s)
    (hauth : authenticate cfg a username password s = none) :
    login cfg a username password s = (.invalidCredentials,
      { s with tracker := s.tracker.recordFailure (normalizedUsername username) a.now }) := by
  obtain ⟨hname, hpassword, hlocked, hip, huser⟩ := reachesCheck_iff.mp h
  simp [login, hname, hpassword, hlocked, hip, huser, hauth]

/-- With the right password the record goes, and only an account that is not suspended gets a
session. -/
lemma login_of_passed (h : reachesCheck a username password s)
    (hauth : authenticate cfg a username password s = some (userID, row)) :
    (login cfg a username password s).2.tracker = s.tracker.recordSuccess (normalizedUsername username)
      ∧ (row.isSuspended → (login cfg a username password s).1 = .suspended row.suspendedReason)
      ∧ ∀ userID' token ttl, (login cfg a username password s).1 = .session userID' token ttl →
        userID' = userID := by
  obtain ⟨hname, hpassword, hlocked, hip, huser⟩ := reachesCheck_iff.mp h
  by_cases hsuspended : row.isSuspended
  · simp [login, hname, hpassword, hlocked, hip, huser, hauth, hsuspended]
  · cases htoken : a.token with
    | none => simp [login, hname, hpassword, hlocked, hip, huser, hauth, hsuspended, htoken]
    | some token =>
        cases hcreate : a.faults.createSession with
        | true => simp [login, hname, hpassword, hlocked, hip, huser, hauth, hsuspended, htoken, hcreate]
        | false =>
            simp [login, hname, hpassword, hlocked, hip, huser, hauth, hsuspended, htoken, hcreate]

/-- The account that has been found has the name. -/
lemma getForLogin_eq_some {users : Users} (h : getForLogin a username users = some (userID, row)) :
    users.lookup userID = some row ∧ row.username = username := by
  unfold getForLogin at h
  split_ifs at h
  have hname := List.find?_some h
  exact ⟨Sql.Table.mem_rows.mp (List.mem_of_find?_eq_some h), by simpa using hname⟩

lemma authenticate_eq_some (h : authenticate cfg a username password s = some (userID, row)) :
    getForLogin a username s.users = some (userID, row)
      ∧ cfg.checkPassword row.passwordHash password = true := by
  unfold authenticate at h
  obtain ⟨hget, hcheck⟩ := Option.filter_eq_some_iff.mp h
  exact ⟨hget, hcheck⟩

/-! ## What the others do -/

/-- An outcome that notes nothing of a name and begins no session. -/
structure Spares (s : Server) (o : Reply × Server) : Prop where
  tracker : o.2.tracker = s.tracker
  reply : ∀ userID token ttl, o.1 ≠ .session userID token ttl

lemma Spares.ite {c : Prop} [Decidable c] {x y : Reply × Server} (hx : Spares s x) (hy : Spares s y) :
    Spares s (if c then x else y) :=
  iteInduction (fun _ => hx) fun _ => hy

lemma enrollAgent_spares (req : Agent.EnrollRequest) :
    Spares s (enrollAgent cfg a username password req s) := by
  refine .ite ⟨rfl, nofun⟩ (.ite ⟨rfl, nofun⟩ ?_)
  cases authenticate cfg a username password s with
  | none => exact ⟨rfl, nofun⟩
  | some p =>
      obtain ⟨userID, row⟩ := p
      dsimp only
      cases Agent.enrollRefusal cfg.enrollSettings (row.role = .competitor) req with
      | some refusal => exact ⟨rfl, nofun⟩
      | none =>
          cases a.token with
          | none => exact ⟨rfl, nofun⟩
          | some token => exact .ite ⟨rfl, nofun⟩ ⟨rfl, nofun⟩

lemma requireUser_error {refused : Reply × Server} (h : requireUser a token s = .error refused) :
    Spares s refused := by
  unfold requireUser at h
  by_cases hfault : a.faults.deleteSession
  all_goals
    simp only [hfault, if_true, Bool.false_eq_true, if_false] at h
    repeat' split at h
    all_goals
      cases h
      try exact ⟨rfl, nofun⟩

/-- Who passes has a session of an account that is not suspended. -/
lemma requireUser_ok (h : requireUser a token s = .ok (userID, row)) :
    ∃ session, s.sessions.lookup token = some session ∧ session.userID = userID
      ∧ s.users.lookup userID = some row ∧ row.isSuspended = false := by
  unfold requireUser at h
  by_cases htoken : token = ""
  · simp [htoken] at h
  · rw [if_neg htoken] at h
    split at h
    · cases h
    · next session hsession =>
      by_cases hexpired : session.expiresAt < a.now
      · rw [if_pos hexpired] at h
        cases h
      · rw [if_neg hexpired] at h
        split at h
        · cases h
        · next row' hrow =>
          by_cases hsuspended : row'.isSuspended
          · rw [if_pos hsuspended] at h
            cases h
          · rw [if_neg hsuspended] at h
            cases h
            exact ⟨session, (Option.filter_eq_some_iff.mp hsession).1, rfl,
              (Option.filter_eq_some_iff.mp hrow).1, Bool.not_eq_true _ ▸ hsuspended⟩

lemma requireUser_suspended {session : Session} (hsession : s.sessions.lookup token = some session)
    (hrow : s.users.lookup session.userID = some row) (hsuspended : row.isSuspended) :
    ∃ refused, requireUser a token s = .error refused := by
  cases h : requireUser a token s with
  | error refused => exact ⟨refused, rfl⟩
  | ok p =>
      obtain ⟨found, row'⟩ := p
      obtain ⟨session', hsession', hid, hrow', hnot⟩ := requireUser_ok h
      obtain rfl := Option.some.inj (hsession.symm.trans hsession')
      rw [hid] at hrow
      obtain rfl := Option.some.inj (hrow.symm.trans hrow')
      rw [hnot] at hsuspended
      cases hsuspended

lemma changePassword_of_refused {refused : Reply × Server} (h : requireUser a token s = .error refused)
    (currentPassword newPassword : String) :
    changePassword cfg a token currentPassword newPassword s = refused := by
  unfold changePassword
  rw [h]

lemma changePassword_spares (currentPassword newPassword : String) :
    Spares s (changePassword cfg a token currentPassword newPassword s) := by
  cases h : requireUser a token s with
  | error refused =>
      rw [changePassword_of_refused h]
      exact requireUser_error h
  | ok p =>
      obtain ⟨userID, row⟩ := p
      rw [changePassword, h]
      refine .ite ⟨rfl, nofun⟩ (.ite ⟨rfl, nofun⟩ (.ite ⟨rfl, nofun⟩ ?_))
      cases getForLogin a row.username s.users with
      | none => exact ⟨rfl, nofun⟩
      | some found =>
          refine .ite ⟨rfl, nofun⟩ ?_
          cases cfg.hashPassword newPassword with
          | none => exact ⟨rfl, nofun⟩
          | some hash =>
              cases s.users.lookup userID with
              | none => exact ⟨rfl, nofun⟩
              | some old => exact .ite ⟨rfl, nofun⟩ ⟨rfl, nofun⟩

/-! ## The records of the tracker -/

lemma Tracker.Kept.foldl_recordSuccess {t : Tracker} (h : t.Kept name before) (cleared : List String) :
    (cleared.foldl (fun t name => t.recordSuccess name) t).Kept name
      (if name ∈ cleared.map Tracker.key then [] else before) := by
  induction cleared generalizing t before with
  | nil => simpa using h
  | cons username cleared ih =>
      have hcons := ih (h.recordSuccess username)
      rw [List.foldl_cons]
      by_cases hname : Tracker.key username = name
      · simpa [hname] using hcons
      · simpa [hname, Ne.symm hname] using hcons

/-- A login fails or passes the check, or does not reach it. -/
lemma kept_login (h : s.tracker.Kept name before) (a : Ambient) (username password : String) :
    (login cfg a username password s).2.tracker.Kept name
      ((mark cfg s name (a, .login username password)).toList.foldl Tracker.Mark.note before) := by
  by_cases hreaches : reachesCheck a username password s
  · cases hauth : authenticate cfg a username password s with
    | none =>
        rw [login_of_failed hreaches hauth]
        have hkept := h.recordFailure (normalizedUsername username) a.now
        by_cases hname : Tracker.key (normalizedUsername username) = name
        · simpa [mark, hreaches, hname, hauth, Tracker.Mark.note] using hkept
        · simpa [mark, hname] using hkept
    | some p =>
        obtain ⟨userID, row⟩ := p
        rw [(login_of_passed hreaches hauth).1]
        have hkept := h.recordSuccess (normalizedUsername username)
        by_cases hname : Tracker.key (normalizedUsername username) = name
        · simpa [mark, hreaches, hname, hauth, Tracker.Mark.note] using hkept
        · simpa [mark, hname] using hkept
  · have hsame : (login cfg a username password s).2 = s := by
      by_cases hpassword : password = ""
      · simp [login, hpassword]
      · obtain ⟨reply, hreply, -⟩ := login_of_not_reaches (Bool.not_eq_true _ ▸ hreaches) hpassword
        rw [hreply cfg password hpassword]
    rw [hsame]
    simpa [mark, hreaches] using h

/-- An event does to the record of a name what its mark says. -/
lemma kept_serve (h : s.tracker.Kept name before) (e : Ambient × Event) :
    (serve cfg s e).2.tracker.Kept name ((mark cfg s name e).toList.foldl Tracker.Mark.note before) := by
  obtain ⟨a, e⟩ := e
  cases e with
  | login username password =>
      exact kept_login h a username password
  | enrollAgent username password req =>
      show (enrollAgent cfg a username password req s).2.tracker.Kept name _
      rw [(enrollAgent_spares req).tracker]
      exact h
  | changePassword token currentPassword newPassword =>
      show (changePassword cfg a token currentPassword newPassword s).2.tracker.Kept name _
      rw [(changePassword_spares currentPassword newPassword).tracker]
      exact h
  | evictIdle =>
      have hkept := h.evictIdle a.now
      by_cases hevicts : s.tracker.evicts a.now name
      · simpa [serve, mark, hevicts, Tracker.Mark.note] using hkept
      · simpa [serve, mark, hevicts] using hkept
  | other users sessions enrollments cleared =>
      have hkept := h.foldl_recordSuccess cleared
      show (cleared.foldl (fun t name => t.recordSuccess name) s.tracker).Kept name _
      by_cases hname : name ∈ cleared.map Tracker.key
      · rw [if_pos hname] at hkept
        have hmark : mark cfg s name (a, .other users sessions enrollments cleared) = some .cleared :=
          if_pos hname
        rw [hmark]
        exact hkept
      · rw [if_neg hname] at hkept
        have hmark : mark cfg s name (a, .other users sessions enrollments cleared) = none := if_neg hname
        rw [hmark]
        exact hkept

lemma kept_run_from (es : List (Ambient × Event)) (h : s.tracker.Kept name before) :
    (run cfg es s).tracker.Kept name ((marks cfg name es s).foldl Tracker.Mark.note before) := by
  induction es generalizing s before with
  | nil => exact h
  | cons e es ih =>
      have hstep : (serve cfg s e).2.tracker.Kept name
          ((mark cfg s name e).toList.foldl Tracker.Mark.note before) := kept_serve h e
      rw [marks, List.foldl_append]
      exact ih hstep

lemma kept_run (cfg : Config) (users : Users) (sessions : Sql.Table String Session)
    (enrollments : Sql.Table String (List Agent.Enrollment)) (es : List (Ambient × Event)) (name : String) :
    (run cfg es (.start users sessions enrollments)).tracker.Kept name
      (Tracker.failures (marks cfg name es (.start users sessions enrollments))) :=
  kept_run_from es (Tracker.kept_new _ _ name)

/-- The limits of the tracker stay. -/
def SameLimits (t t' : Tracker) : Prop := t'.maxFailures = t.maxFailures ∧ t'.lockout = t.lockout

lemma sameLimits_foldl_recordSuccess (cleared : List String) (t : Tracker) :
    SameLimits t (cleared.foldl (fun t name => t.recordSuccess name) t) := by
  induction cleared generalizing t with
  | nil => exact ⟨rfl, rfl⟩
  | cons username cleared ih => exact ih (t.recordSuccess username)

lemma sameLimits_serve (cfg : Config) (s : Server) (e : Ambient × Event) :
    SameLimits s.tracker (serve cfg s e).2.tracker := by
  obtain ⟨a, e⟩ := e
  cases e with
  | login username password =>
      show SameLimits s.tracker (login cfg a username password s).2.tracker
      unfold login
      repeat' split
      all_goals exact ⟨rfl, rfl⟩
  | enrollAgent username password req =>
      show SameLimits s.tracker (enrollAgent cfg a username password req s).2.tracker
      rw [(enrollAgent_spares req).tracker]
      exact ⟨rfl, rfl⟩
  | changePassword token currentPassword newPassword =>
      show SameLimits s.tracker (changePassword cfg a token currentPassword newPassword s).2.tracker
      rw [(changePassword_spares currentPassword newPassword).tracker]
      exact ⟨rfl, rfl⟩
  | evictIdle => exact ⟨rfl, rfl⟩
  | other users sessions enrollments cleared => exact sameLimits_foldl_recordSuccess cleared s.tracker

lemma sameLimits_run (cfg : Config) (es : List (Ambient × Event)) (s : Server) :
    SameLimits s.tracker (run cfg es s).tracker := by
  induction es generalizing s with
  | nil => exact ⟨rfl, rfl⟩
  | cons e es ih =>
      obtain ⟨hmax, hlockout⟩ := sameLimits_serve cfg s e
      obtain ⟨hmax', hlockout'⟩ := ih (serve cfg s e).2
      exact ⟨hmax'.trans hmax, hlockout'.trans hlockout⟩

/-! ## What the blocks keep -/

/-- The outcome is the same for every password that is submitted. -/
def Hidden {α : Type} (f : String → α) : Prop :=
  ∀ password password', password ≠ "" → password' ≠ "" → f password = f password'

/-- The login says no more of a password than that it is wrong, or that the account is suspended. -/
lemma login_of_suspended (hget : getForLogin a username s.users = some (userID, row))
    (hsuspended : row.isSuspended) {password password' : String} (hpassword : password ≠ "")
    (hpassword' : password' ≠ "") (hwrong : cfg.checkPassword row.passwordHash password' = false) :
    (login cfg a username password s).1 = .suspended row.suspendedReason
      ∨ login cfg a username password s = login cfg a username password' s := by
  have hauth' : authenticate cfg a username password' s = none := by
    simp [authenticate, hget, hwrong]
  by_cases hreaches : reachesCheck a username password s
  · have hreaches' : reachesCheck a username password' s := by
      obtain ⟨hname, -, hrest⟩ := reachesCheck_iff.mp hreaches
      exact reachesCheck_iff.mpr ⟨hname, hpassword', hrest⟩
    cases hauth : authenticate cfg a username password s with
    | none =>
        right
        rw [login_of_failed hreaches hauth, login_of_failed hreaches' hauth']
    | some p =>
        left
        obtain ⟨found, row'⟩ := p
        obtain ⟨hget', -⟩ := authenticate_eq_some hauth
        obtain rfl : row = row' := congrArg Prod.snd (Option.some.inj (hget.symm.trans hget'))
        exact (login_of_passed hreaches hauth).2.1 hsuspended
  · right
    obtain ⟨reply, hreply, -⟩ := login_of_not_reaches (Bool.not_eq_true _ ▸ hreaches) hpassword
    rw [hreply cfg password hpassword, hreply cfg password' hpassword']

/-- A session is for an account that is neither suspended nor locked. -/
lemma serve_session {e : Ambient × Event} {ttl : ℤ}
    (h : (serve cfg s e).1 = some (.session userID token ttl)) :
    ∃ row, s.users.lookup userID = some row ∧ row.isSuspended = false
      ∧ s.tracker.isLocked (normalizedUsername row.username) e.1.now = none := by
  obtain ⟨a, e⟩ := e
  cases e with
  | login username password =>
      have hreply : (login cfg a username password s).1 = .session userID token ttl := Option.some.inj h
      by_cases hpassword : password = ""
      · simp [login, hpassword] at hreply
      by_cases hreaches : reachesCheck a username password s
      · cases hauth : authenticate cfg a username password s with
        | none =>
            rw [login_of_failed hreaches hauth] at hreply
            cases hreply
        | some p =>
            obtain ⟨found, row⟩ := p
            obtain ⟨-, hsuspended, hid⟩ := login_of_passed hreaches hauth
            obtain rfl := hid userID token ttl hreply
            obtain ⟨hget, -⟩ := authenticate_eq_some hauth
            obtain ⟨hlookup, hname⟩ := getForLogin_eq_some hget
            refine ⟨row, hlookup, ?_, ?_⟩
            · cases hrow : row.isSuspended with
              | false => rfl
              | true =>
                  rw [hsuspended hrow] at hreply
                  cases hreply
            · rw [hname]
              exact (reachesCheck_iff.mp hreaches).2.2.1
      · obtain ⟨reply, hsame, hnot⟩ := login_of_not_reaches (Bool.not_eq_true _ ▸ hreaches) hpassword
        rw [hsame cfg password hpassword] at hreply
        exact absurd hreply (hnot userID token ttl)
  | enrollAgent username password req =>
      exact absurd (Option.some.inj h) ((enrollAgent_spares req).reply _ _ ttl)
  | changePassword token' currentPassword newPassword =>
      exact absurd (Option.some.inj h) ((changePassword_spares currentPassword newPassword).reply _ token ttl)
  | evictIdle => cases h
  | other users sessions enrollments cleared => cases h

/-- What holds of the blocks in a state, with what has happened to the names of the tracker. -/
structure BlocksHold (cfg : Config) (s : Server) (marks : String → List Tracker.Mark) : Prop where
  /-- A name is locked for a minute by the twentieth failed check in a row, and by each after it. -/
  locked_iff : ∀ username now, (s.tracker.isLocked (normalizedUsername username) now).isSome ↔
    20 ≤ (Tracker.failures (marks (Tracker.key (normalizedUsername username)))).length
      ∧ ∃ last ∈ (Tracker.failures (marks (Tracker.key (normalizedUsername username)))).head?,
        now < last + Go.minute
  /-- The login neither checks the password of a locked name nor does anything else. -/
  locked_login : ∀ a username, (s.tracker.isLocked (normalizedUsername username) a.now).isSome →
    (Hidden fun password => login cfg a username password s)
      ∧ ∀ password, (login cfg a username password s).2 = s
  /-- The login of a suspended account gives the reason for the right password, and no more. -/
  suspended_login : ∀ a username userID row,
    getForLogin a username s.users = some (userID, row) → row.isSuspended →
    ∀ password password', password ≠ "" → password' ≠ "" →
      cfg.checkPassword row.passwordHash password' = false →
      (login cfg a username password s).1 = .suspended row.suspendedReason
        ∨ login cfg a username password s = login cfg a username password' s
  /-- A suspended account does not get to the check of its old password. -/
  suspended_change : ∀ a token session row, s.sessions.lookup token = some session →
    s.users.lookup session.userID = some row → row.isSuspended →
    ∀ newPassword, Hidden fun password => changePassword cfg a token password newPassword s
  /-- No session is for an account that is suspended or locked. -/
  session_open : ∀ e userID token ttl, (serve cfg s e).1 = some (.session userID token ttl) →
    ∃ row, s.users.lookup userID = some row ∧ row.isSuspended = false
      ∧ s.tracker.isLocked (normalizedUsername row.username) e.1.now = none

/-- **After every history** of requests that are served one at a time. -/
theorem blocks_hold (cfg : Config) (users : Users) (sessions : Sql.Table String Session)
    (enrollments : Sql.Table String (List Agent.Enrollment)) (es : List (Ambient × Event)) :
    BlocksHold cfg (run cfg es (.start users sessions enrollments)) fun name =>
      marks cfg name es (.start users sessions enrollments) where
  locked_iff := by
    intro username now
    have hkept := kept_run cfg users sessions enrollments es (Tracker.key (normalizedUsername username))
    obtain ⟨hmax, hlockout⟩ := sameLimits_run cfg es (.start users sessions enrollments)
    rw [Tracker.isLocked_iff hkept, hmax, hlockout]
    simp [Server.start, Tracker.new, Tracker.defaultMaxFailedLogins, Tracker.defaultLockoutDuration]
  locked_login := by
    intro a username hlocked
    obtain ⟨remaining, hremaining⟩ := Option.isSome_iff_exists.mp hlocked
    by_cases hname : username = ""
    · exact ⟨fun _ _ _ _ => by simp [login, hname], fun _ => by simp [login, hname]⟩
    · constructor
      · intro password password' hp hp'
        show login cfg a username password _ = login cfg a username password' _
        rw [login_of_locked hname hp hremaining, login_of_locked hname hp' hremaining]
      · intro password
        by_cases hp : password = ""
        · simp [login, hp]
        · rw [login_of_locked hname hp hremaining]
  suspended_login := fun _ _ _ _ hget hsuspended _ _ hp hp' hwrong =>
    login_of_suspended hget hsuspended hp hp' hwrong
  suspended_change := by
    intro a token session row hsession hrow hsuspended newPassword password password' _ _
    obtain ⟨refused, hrefused⟩ := requireUser_suspended (a := a) hsession hrow hsuspended
    show changePassword cfg a token password newPassword _ = changePassword cfg a token password' newPassword _
    rw [changePassword_of_refused hrefused, changePassword_of_refused hrefused]
  session_open := fun _ _ _ _ h => serve_session h

/-- A suspended account gets an agent credential; enrolling and the login tell its right password from a
wrong one, and the wrong one is not counted where it enrolls. -/
theorem suspended_enrolls :
    ∃ (cfg : Config) (users : Users) (a : Ambient) (req : Agent.EnrollRequest) (row : UserRow),
      users.lookup "1" = some row ∧ row.isSuspended = true ∧
      (enrollAgent cfg a row.username "right" req (.start users ∅ ∅)).1 = .agentCredential "1" "t" ∧
      (enrollAgent cfg a row.username "wrong" req (.start users ∅ ∅)).1 = .invalidCredentials ∧
      mark cfg (.start users ∅ ∅) row.username (a, .enrollAgent row.username "wrong" req) = none ∧
      (login cfg a row.username "right" (.start users ∅ ∅)).1
        ≠ (login cfg a row.username "wrong" (.start users ∅ ∅)).1 := by
  let row : UserRow := ⟨"bob", .competitor, "right", true, "", some 0⟩
  let cfg : Config := ⟨fun hash plain => hash = plain, some, 0, 0, none⟩
  let a : Ambient := ⟨0, 0, true, true, some "t", 0, ⟨false, false, false, false, false, false, false⟩⟩
  let req : Agent.EnrollRequest := ⟨"m", "", "", Agent.consentVersion, ""⟩
  exact ⟨cfg, (∅ : Users).insert "1" row, a, req, row, by decide +kernel⟩

end Account

end Labyrithm
