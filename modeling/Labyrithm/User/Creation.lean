import Labyrithm.Go.Strings
import Labyrithm.Sql.Table

/-!
# Creating a user

`createUser` and `createOne` in `backend/internal/api/admin_users.go`, with what they call of the
repositories of teams and users, over a store that may fail.  A user is created in a team; a team that is
only named and is not there is created first, by a statement of its own.

* `createOne` — the handler, `createUser` its reply.
* `LeavesTeam` — the team has been created, and the user is not.
* **`createUser_unchanged_iff`** — a reply with an error leaves the tables as they were in all other
  cases, and only in these.
-/

namespace Labyrithm

namespace User

open Go

def minPasswordLength : ℕ := 8
def minUsernameLength : ℕ := 3
def maxUsernameLength : ℕ := 50
def maxDisplayNameLength : ℕ := 100
def maxTeamNameLength : ℕ := 100
def maxTeamMembers : ℕ := 3
def roleCompetitor : String := "competitor"

/-- A row of `teams`, without its id. -/
structure TeamRow where
  name : List Char
  createdAt : ℤ
  deriving DecidableEq, Repr

/-- A row of `users`, without its id and what has a default. -/
structure UserRow where
  username : List Char
  displayName : List Char
  passwordHash : String
  role : String
  createdAt : ℤ
  teamId : Option String
  deriving DecidableEq, Repr

/-- The teams and the users, by their ids. -/
structure Accounts where
  teams : Sql.Table String TeamRow
  users : Sql.Table String UserRow

/-- `Team`. -/
structure Team where
  id : String
  name : List Char
  members : List (String × UserRow)

/-- `createUserRequest`. -/
structure CreateUserRequest where
  username : List Char
  displayName : List Char := []
  role : String := ""
  password : List Char := []
  teamId : String := ""
  teamName : List Char := []

/-- What comes from elsewhere: the ids and the time from the database, a generated password, and the
hash. -/
structure Drawn where
  teamId : String
  userId : String
  now : ℤ
  password : List Char
  hashPassword : List Char → Except String String

inductive Err
  | usernameRequired
  | usernameLength
  | usernameInvalid
  | displayNameLength
  | teamNameTooLong
  | adminCreationNotAllowed
  | passwordTooShort
  | teamRequired
  | teamNotFound
  | teamFull
  | duplicateTeamName
  | duplicateUsername
  | hash (cause : String)
  | store (text : String)
  deriving DecidableEq, Repr

def Err.message : Err → String
  | usernameRequired => "username is required"
  | usernameLength => "username must be between 3 and 50 characters"
  | usernameInvalid => "username can only contain letters, numbers, underscores, and hyphens"
  | displayNameLength => "display name cannot exceed 100 characters"
  | teamNameTooLong => "team name cannot exceed 100 characters"
  | adminCreationNotAllowed => "admin accounts cannot be created via API; use server CLI"
  | passwordTooShort => "password too short"
  | teamRequired => "team is required for competitor users"
  | teamNotFound => "team not found"
  | teamFull => "team capacity reached (max 3 members)"
  | duplicateTeamName => "team name already exists"
  | duplicateUsername => "username already exists"
  | hash cause => cause
  | store text => text

/-! ## Checks -/

/-- `ValidateUsername`. -/
def validateUsername (username : List Char) : Option Err :=
  let trimmed := trimSpace username
  if trimmed = [] then some .usernameRequired
  else if len trimmed < minUsernameLength ∨ len trimmed > maxUsernameLength then some .usernameLength
  else if trimmed.all fun ch => ch.isAlphanum || ch = '_' || ch = '-' then none
  else some .usernameInvalid

/-- `CheckPasswordLength`. -/
def checkPasswordLength (password : List Char) : Option Err :=
  if password ≠ [] ∧ len password < minPasswordLength then some .passwordTooShort else none

/-- What `createOne` makes of the request before it looks for the team. -/
structure Prepared where
  username : List Char
  name : List Char
  teamName : List Char
  role : String
  password : List Char
  hash : String

namespace CreateUserRequest

/-- The role, or that of a competitor where none is given. -/
def givenRole (req : CreateUserRequest) : String := if req.role = "" then roleCompetitor else req.role

/-- The display name, or the username. -/
def givenName (req : CreateUserRequest) : List Char :=
  let displayName := trimSpace req.displayName
  if displayName = [] then trimSpace req.username else displayName

/-- The password, or a generated one. -/
def givenPassword (drawn : Drawn) (req : CreateUserRequest) : List Char :=
  if req.password = [] then drawn.password else req.password

/-- The checks of `createOne` that come first. -/
def prepare (drawn : Drawn) (req : CreateUserRequest) : Except Err Prepared :=
  let username := trimSpace req.username
  let teamName := trimSpace req.teamName
  match validateUsername username with
  | some err => .error err
  | none =>
      if len (trimSpace req.displayName) > maxDisplayNameLength then .error .displayNameLength
      else if len teamName > maxTeamNameLength then .error .teamNameTooLong
      else if req.givenRole ≠ roleCompetitor then .error .adminCreationNotAllowed
      else
        match checkPasswordLength req.password with
        | some err => .error err
        | none =>
            let password := req.givenPassword drawn
            match drawn.hashPassword password with
            | .error cause => .error (.hash cause)
            | .ok hash => .ok ⟨username, req.givenName, teamName, req.givenRole, password, hash⟩

end CreateUserRequest

/-! ## The repositories -/

/-- An operation on the store. -/
inductive StoreOp
  | getTeam
  | getTeamMembers
  | createTeam
  | createWithTeam
  deriving DecidableEq, Repr

/-- The errors of the operations that fail; and after how many rows the members of a team are no longer
read, which is no error. -/
structure Outage where
  fails : StoreOp → Option String
  scanned : Option ℕ

namespace Accounts

/-- `GetTeamMembers`. -/
def getTeamMembers (down : Outage) (teamId : String) (σ : Accounts) :
    Except Err (List (String × UserRow)) :=
  match down.fails .getTeamMembers with
  | some cause => .error (.store ("query team members: " ++ cause))
  | none =>
      let members := σ.users.rows.filter fun u => u.2.teamId = some teamId
      .ok (members.take (down.scanned.getD members.length))

/-- `GetByID`. -/
def getByID (down : Outage) (id : String) (σ : Accounts) : Except Err Team :=
  match down.fails .getTeam with
  | some cause => .error (.store ("get team by id: " ++ cause))
  | none =>
      match σ.teams.lookup id with
      | none => .error .teamNotFound
      | some row => (σ.getTeamMembers down id).map fun members => ⟨id, row.name, members⟩

/-- `GetByName`. -/
def getByName (down : Outage) (name : List Char) (σ : Accounts) : Except Err Team :=
  match down.fails .getTeam with
  | some cause => .error (.store ("get team by name: " ++ cause))
  | none =>
      match σ.teams.rows.find? fun t => t.2.name = name with
      | none => .error .teamNotFound
      | some (id, _) => (σ.getTeamMembers down id).map fun members => ⟨id, name, members⟩

/-- `CreateTeam`; neither the id nor the name may be there. -/
def createTeam (down : Outage) (id : String) (team : TeamRow) (σ : Accounts) : Except Err Accounts :=
  match down.fails .createTeam with
  | some cause => .error (.store ("create team: " ++ cause))
  | none =>
      if σ.teams.lookup id ≠ none ∨ σ.teams.rows.any (·.2.name = team.name) then
        .error .duplicateTeamName
      else .ok { σ with teams := σ.teams.insert id team }

/-- There is a user with this id or name. -/
def Taken (id : String) (username : List Char) (σ : Accounts) : Prop :=
  σ.users.lookup id ≠ none ∨ σ.users.rows.any (·.2.username = username)

instance (id : String) (username : List Char) (σ : Accounts) : Decidable (σ.Taken id username) :=
  inferInstanceAs (Decidable (_ ∨ _))

/-- `CreateWithTeam`; the team has just been read or created, so it is there. -/
def createWithTeam (down : Outage) (id : String) (user : UserRow) (σ : Accounts) :
    Except Err Accounts :=
  match down.fails .createWithTeam with
  | some cause => .error (.store ("create user: " ++ cause))
  | none =>
      if σ.Taken id user.username then .error .duplicateUsername
      else .ok { σ with users := σ.users.insert id user }

end Accounts

/-! ## The handler -/

/-- The team, unless it is full. -/
def Team.withRoom (t : Team) : Except Err (String × List Char) :=
  if t.members.length ≥ maxTeamMembers then .error .teamFull else .ok (t.id, t.name)

/-- The part of `createOne` that finds the team, or creates it. -/
def targetTeam (drawn : Drawn) (down : Outage) (teamId : String) (teamName : List Char) (σ : Accounts) :
    Accounts × Except Err (String × List Char) :=
  if teamId ≠ "" then (σ, (σ.getByID down teamId).bind Team.withRoom)
  else if teamName ≠ [] then
    match σ.getByName down teamName with
    | .ok team => (σ, team.withRoom)
    | .error err =>
        if err ≠ .teamNotFound then (σ, .error err)
        else
          match σ.createTeam down drawn.teamId ⟨teamName, drawn.now⟩ with
          | .error err => (σ, .error err)
          | .ok σ' => (σ', .ok (drawn.teamId, teamName))
  else (σ, .error .teamRequired)

/-- The row of a new user. -/
def Prepared.row (drawn : Drawn) (teamId : String) (new : Prepared) : UserRow where
  username := new.username
  displayName := new.name
  passwordHash := new.hash
  role := new.role
  createdAt := drawn.now
  teamId := if teamId = "" then none else some teamId

/-- What `createOne` returns. -/
structure Created where
  id : String
  user : UserRow
  teamName : List Char
  password : List Char
  deriving DecidableEq, Repr

/-- `createOne`. -/
def createOne (drawn : Drawn) (down : Outage) (req : CreateUserRequest) (σ : Accounts) :
    Accounts × Except Err Created :=
  match req.prepare drawn with
  | .error err => (σ, .error err)
  | .ok new =>
      match targetTeam drawn down req.teamId new.teamName σ with
      | (σ, .error err) => (σ, .error err)
      | (σ, .ok (teamId, teamName)) =>
          match σ.createWithTeam down drawn.userId (new.row drawn teamId) with
          | .error err => (σ, .error err)
          | .ok σ' => (σ', .ok ⟨drawn.userId, new.row drawn teamId, teamName, new.password⟩)

inductive Reply
  | error (status : ℕ) (text : String)
  | created (created : Created)
  deriving DecidableEq, Repr

def Reply.isError : Reply → Bool
  | error .. => true
  | created _ => false

/-- `writeCreateError`. -/
def writeCreateError : Err → Reply
  | .duplicateUsername => .error 409 "username already exists"
  | .adminCreationNotAllowed => .error 403 "admin accounts cannot be created via API; use server CLI"
  | .usernameRequired => .error 400 Err.usernameRequired.message
  | .usernameLength => .error 400 Err.usernameLength.message
  | .usernameInvalid => .error 400 Err.usernameInvalid.message
  | .displayNameLength => .error 400 Err.displayNameLength.message
  | .teamNameTooLong => .error 400 Err.teamNameTooLong.message
  | .passwordTooShort => .error 400 "password too short (min 8 characters)"
  | .teamRequired => .error 400 "team is required for competitor users"
  | .teamNotFound => .error 404 "team not found"
  | .teamFull => .error 400 "team capacity reached (max 3 members)"
  | .duplicateTeamName | .hash _ | .store _ => .error 500 "failed to create user"

/-- `createUser`. -/
def createUser (drawn : Drawn) (down : Outage) (req : CreateUserRequest) (σ : Accounts) :
    Reply × Accounts :=
  match createOne drawn down req σ with
  | (σ', .error err) => (writeCreateError err, σ')
  | (σ', .ok created) => (.created created, σ')

/-! ## A team that is left -/

/-- Both tables hold what they held. -/
def Accounts.Same (σ' σ : Accounts) : Prop :=
  (∀ id, σ'.teams.lookup id = σ.teams.lookup id) ∧ ∀ id, σ'.users.lookup id = σ.users.lookup id

section LeavesTeam

variable (drawn : Drawn) (down : Outage) (req : CreateUserRequest) (σ : Accounts)

/-- The request passes the checks that come first. -/
def CreateUserRequest.Valid : Prop :=
  validateUsername (trimSpace req.username) = none ∧
    len (trimSpace req.displayName) ≤ maxDisplayNameLength ∧
    len (trimSpace req.teamName) ≤ maxTeamNameLength ∧
    req.givenRole = roleCompetitor ∧ checkPasswordLength req.password = none ∧
    (drawn.hashPassword (req.givenPassword drawn)).isOk = true

/-- The request names a team that is not there and can be created. -/
def NewTeam : Prop :=
  req.teamId = "" ∧ trimSpace req.teamName ≠ [] ∧ down.fails .getTeam = none ∧
    down.fails .createTeam = none ∧ σ.teams.lookup drawn.teamId = none ∧
    ∀ t ∈ σ.teams.rows, t.2.name ≠ trimSpace req.teamName

/-- The team is created, and the user is not. -/
def LeavesTeam : Prop :=
  req.Valid drawn ∧ NewTeam drawn down req σ ∧
    (down.fails .createWithTeam ≠ none ∨ σ.Taken drawn.userId (trimSpace req.username))

end LeavesTeam

variable {drawn : Drawn} {down : Outage} {req : CreateUserRequest} {σ σ' : Accounts} {new : Prepared}

lemma valid_of_prepare (h : req.prepare drawn = .ok new) :
    req.Valid drawn ∧ new.username = trimSpace req.username ∧ new.teamName = trimSpace req.teamName := by
  simp only [CreateUserRequest.prepare] at h
  split at h
  case h_1 => cases h
  case h_2 husername =>
    split_ifs at h with hdisplay hteam hrole
    split at h
    case h_1 => cases h
    case h_2 hpassword =>
      split at h
      case h_1 => cases h
      case h_2 hash hhash =>
        obtain rfl := Except.ok.inj h
        have hdone : (drawn.hashPassword (req.givenPassword drawn)).isOk = true := by rw [hhash]; rfl
        exact ⟨⟨husername, not_lt.mp hdisplay, not_lt.mp hteam, not_not.mp hrole, hpassword, hdone⟩,
          rfl, rfl⟩

lemma prepare_of_valid (h : req.Valid drawn) : ∃ new, req.prepare drawn = .ok new := by
  obtain ⟨husername, hdisplay, hteam, hrole, hpassword, hdone⟩ := h
  simp only [CreateUserRequest.prepare, husername, if_neg (not_lt.mpr hdisplay),
    if_neg (not_lt.mpr hteam), if_neg (not_not.mpr hrole), hpassword]
  cases hhash : drawn.hashPassword (req.givenPassword drawn) with
  | error cause =>
      rw [hhash] at hdone
      cases hdone
  | ok hash => exact ⟨_, rfl⟩

lemma getTeamMembers_error {teamId : String} {err : Err}
    (h : σ.getTeamMembers down teamId = .error err) : err ≠ .teamNotFound := by
  unfold Accounts.getTeamMembers at h
  split at h
  · obtain rfl := Except.error.inj h
    intro hfalse
    cases hfalse
  · cases h

lemma getByName_notFound_iff {name : List Char} :
    σ.getByName down name = .error .teamNotFound ↔
      down.fails .getTeam = none ∧ ∀ t ∈ σ.teams.rows, t.2.name ≠ name := by
  have hnone : (∀ t ∈ σ.teams.rows, t.2.name ≠ name) ↔
      σ.teams.rows.find? (fun t => t.2.name = name) = none := by
    simp [List.find?_eq_none]
  rw [hnone, Accounts.getByName]
  cases down.fails .getTeam with
  | some cause => simp
  | none =>
      cases σ.teams.rows.find? fun t => t.2.name = name with
      | none => simp
      | some t =>
          cases hmembers : σ.getTeamMembers down t.1 with
          | ok members => simp [hmembers, Except.map]
          | error err => simp [hmembers, Except.map, getTeamMembers_error hmembers]

lemma createTeam_eq_ok_iff {id : String} {team : TeamRow} :
    σ.createTeam down id team = .ok σ' ↔
      down.fails .createTeam = none ∧ σ.teams.lookup id = none ∧
        (∀ t ∈ σ.teams.rows, t.2.name ≠ team.name) ∧
        { σ with teams := σ.teams.insert id team } = σ' := by
  have hfree : ¬ (σ.teams.lookup id ≠ none ∨ σ.teams.rows.any (·.2.name = team.name)) ↔
      σ.teams.lookup id = none ∧ ∀ t ∈ σ.teams.rows, t.2.name ≠ team.name := by
    simp
  unfold Accounts.createTeam
  cases down.fails .createTeam with
  | some cause => simp
  | none =>
      dsimp only
      split_ifs with htaken
      · simp only [true_and, false_iff]
        rintro ⟨hid, hname, -⟩
        exact hfree.mpr ⟨hid, hname⟩ htaken
      · obtain ⟨hid, hname⟩ := hfree.mp htaken
        rw [Except.ok.injEq]
        exact ⟨fun h => ⟨rfl, hid, hname, h⟩, fun h => h.2.2.2⟩

/-- A new team is created. -/
lemma targetTeam_of_newTeam (h : NewTeam drawn down req σ) :
    targetTeam drawn down req.teamId (trimSpace req.teamName) σ =
      ({ σ with teams := σ.teams.insert drawn.teamId ⟨trimSpace req.teamName, drawn.now⟩ },
        .ok (drawn.teamId, trimSpace req.teamName)) := by
  obtain ⟨hid, hname, hget, hcreate, hfree, hnew⟩ := h
  have hmissing : σ.getByName down (trimSpace req.teamName) = .error .teamNotFound :=
    getByName_notFound_iff.mpr ⟨hget, hnew⟩
  have hcreated : σ.createTeam down drawn.teamId ⟨trimSpace req.teamName, drawn.now⟩ = .ok _ :=
    createTeam_eq_ok_iff.mpr ⟨hcreate, hfree, hnew, rfl⟩
  simp [targetTeam, hid, hname, hmissing, hcreated]

/-- Otherwise the tables stay as they are. -/
lemma targetTeam_of_not_newTeam (h : ¬ NewTeam drawn down req σ) :
    (targetTeam drawn down req.teamId (trimSpace req.teamName) σ).1 = σ := by
  unfold targetTeam
  split_ifs with hid hname
  · rfl
  · cases hget : σ.getByName down (trimSpace req.teamName) with
    | ok team => rfl
    | error err =>
        dsimp only
        split_ifs with herr
        · rfl
        obtain rfl := not_not.mp herr
        cases hcreate : σ.createTeam down drawn.teamId ⟨trimSpace req.teamName, drawn.now⟩ with
        | error err => rfl
        | ok σ' =>
            obtain ⟨hup, hnew⟩ := getByName_notFound_iff.mp hget
            obtain ⟨hcreates, hfree, -⟩ := createTeam_eq_ok_iff.mp hcreate
            exact absurd ⟨not_not.mp hid, hname, hup, hcreates, hfree, hnew⟩ h
  · rfl

lemma createWithTeam_error_iff {id : String} {user : UserRow} :
    (∃ err, σ.createWithTeam down id user = .error err) ↔
      down.fails .createWithTeam ≠ none ∨ σ.Taken id user.username := by
  unfold Accounts.createWithTeam
  cases down.fails .createWithTeam with
  | some cause => simp
  | none =>
      dsimp only
      split_ifs with htaken <;> simp [htaken]

lemma writeCreateError_isError (err : Err) : (writeCreateError err).isError = true := by
  cases err <;> rfl

/-- **A reply with an error leaves the teams and users as they were if and only if no team is left.** -/
theorem createUser_unchanged_iff (drawn : Drawn) (down : Outage) (req : CreateUserRequest)
    (σ : Accounts) :
    ((createUser drawn down req σ).1.isError → (createUser drawn down req σ).2.Same σ) ↔
      ¬ LeavesTeam drawn down req σ := by
  have hsame : σ.Same σ := ⟨fun _ => rfl, fun _ => rfl⟩
  unfold createUser createOne
  cases hprepare : req.prepare drawn with
  | error err =>
      refine iff_of_true (fun _ => hsame) ?_
      rintro ⟨hvalid, -⟩
      obtain ⟨new, hnew⟩ := prepare_of_valid hvalid
      rw [hprepare] at hnew
      cases hnew
  | ok new =>
      obtain ⟨hvalid, husername, hteam⟩ := valid_of_prepare hprepare
      dsimp only
      rw [hteam]
      by_cases hnew : NewTeam drawn down req σ
      · -- the team is there before the user is
        let σ₁ : Accounts :=
          { σ with teams := σ.teams.insert drawn.teamId ⟨trimSpace req.teamName, drawn.now⟩ }
        have hchanged : ¬ σ₁.Same σ := by
          intro h
          have hrow : σ₁.teams.lookup drawn.teamId = none := (h.1 _).trans hnew.2.2.2.2.1
          simp [σ₁] at hrow
        have hfails : (∃ err, σ₁.createWithTeam down drawn.userId (new.row drawn drawn.teamId) = .error err) ↔
            down.fails .createWithTeam ≠ none ∨ σ.Taken drawn.userId (trimSpace req.username) := by
          rw [createWithTeam_error_iff, ← husername]
          exact Iff.rfl
        have htarget : targetTeam drawn down req.teamId (trimSpace req.teamName) σ =
            (σ₁, .ok (drawn.teamId, trimSpace req.teamName)) := targetTeam_of_newTeam hnew
        rw [htarget]
        dsimp only
        cases hcreate : σ₁.createWithTeam down drawn.userId (new.row drawn drawn.teamId) with
        | error err =>
            have hleft : LeavesTeam drawn down req σ := ⟨hvalid, hnew, hfails.mp ⟨err, hcreate⟩⟩
            exact iff_of_false (fun h => hchanged (h (writeCreateError_isError err))) (not_not.mpr hleft)
        | ok σ' =>
            refine iff_of_true (fun h => absurd h (by simp [Reply.isError])) ?_
            rintro ⟨-, -, hleft⟩
            obtain ⟨err, herr⟩ := hfails.mpr hleft
            rw [hcreate] at herr
            cases herr
      · refine iff_of_true ?_ fun h => hnew h.2.1
        have hkept := targetTeam_of_not_newTeam hnew
        rcases htarget : targetTeam drawn down req.teamId (trimSpace req.teamName) σ with ⟨σ₁, target⟩
        rw [htarget] at hkept
        obtain rfl : σ₁ = σ := hkept
        cases target with
        | error err => exact fun _ => hsame
        | ok target =>
            dsimp only
            cases σ₁.createWithTeam down drawn.userId (new.row drawn target.1) with
            | error err => exact fun _ => hsame
            | ok σ' => exact fun h => absurd h (by simp [Reply.isError])

end User

end Labyrithm
