import Labyrithm.Sql.Overlap
import Labyrithm.User.Creation

/-!
# Who is in a team

The calls that create teams and move users in and out of them, as programs over a store that others
use at the same time: the four of `backend/internal/team/repository.go`, and `createOne` of
`backend/internal/api/admin_users.go`, which reads and writes outside any transaction.

* An `INSERT` waits for those of the same key, and fails where the key is there (`insertTeam`,
  `insertUser`).
* An `UPDATE` of a user waits for the others that change the row, and matches its latest version.
* A `SELECT` waits for nobody, so that what has been counted may have changed at the next statement.

**`createOne_alone`** — with nobody else around the program of `createOne` is the function of
`User/Creation.lean`.
-/

namespace Labyrithm

namespace Teams

open Sql Tx
open User (TeamRow UserRow Accounts CreateUserRequest Drawn maxTeamMembers roleCompetitor)

/-! ## The rows -/

/-- What a statement does to one row. -/
inductive RowWrite
  | insertTeam (id : String) (team : TeamRow)
  | insertUser (id : String) (user : UserRow)
  /-- `UPDATE users SET team_id = $1 WHERE id = $2 AND role = 'competitor'`. -/
  | setTeam (userID teamID : String)
  /-- `UPDATE users SET team_id = NULL WHERE id = $1 AND team_id = $2`. -/
  | clearTeam (userID teamID : String)

/-- A row, or a key of an index, that one transaction at a time can write. -/
inductive Lock
  | team (id : String)
  | teamName (name : List Char)
  | user (id : String)
  | username (name : List Char)
  deriving DecidableEq

/-- The `UPDATE` that adds a user matches the row. -/
def Addable (user : UserRow) : Bool := user.role = roleCompetitor

/-- The `UPDATE` that removes a user matches the row. -/
def Removable (teamID : String) (user : UserRow) : Bool := user.teamId = some teamID

/-- Change the row of a user, if it is there and matches. -/
def updateUser (applies : UserRow → Bool) (set : UserRow → UserRow) (userID : String) (σ : Accounts) :
    Accounts :=
  match σ.users.lookup userID with
  | none => σ
  | some user => if applies user then { σ with users := σ.users.insert userID (set user) } else σ

/-- Where a row is inserted the key is not there. -/
def RowWrite.apply : RowWrite → Accounts → Accounts
  | insertTeam id team, σ =>
      if σ.teams.lookup id = none then { σ with teams := σ.teams.insert id team } else σ
  | insertUser id user, σ =>
      if σ.users.lookup id = none then { σ with users := σ.users.insert id user } else σ
  | setTeam userID teamID, σ =>
      updateUser Addable (fun user => { user with teamId := some teamID }) userID σ
  | clearTeam userID teamID, σ =>
      updateUser (Removable teamID) (fun user => { user with teamId := none }) userID σ

instance : Store Accounts RowWrite where
  apply := RowWrite.apply

/-- The users of a team. -/
def membersOf (teamID : String) (σ : Accounts) : List (String × UserRow) :=
  σ.users.rows.filter fun user => user.2.teamId = some teamID

/-! ## The calls -/

/-- The errors: those of `createOne`, and those of adding and removing members. -/
inductive Refusal
  | user (err : User.Err)
  | userNotFound
  | onlyCompetitors
  | userAlreadyInTeam
  deriving DecidableEq, Repr

def Refusal.message : Refusal → String
  | user err => err.message
  | userNotFound => "user not found"
  | onlyCompetitors => "only competitors can be added to teams"
  | userAlreadyInTeam => "user is already assigned to a team"

/-- A call, or a part of it. -/
abbrev Call (α : Type) := ExceptT Refusal (Tx Accounts RowWrite Lock) α

/-- `CreateMemberParams`. -/
structure CreateMemberParams where
  username : List Char
  displayName : List Char
  passwordHash : String
  role : String

/-- The row of a user who is created in a team. -/
def CreateMemberParams.row (now : ℤ) (teamID : String) (m : CreateMemberParams) : UserRow where
  username := m.username
  displayName := m.displayName
  passwordHash := m.passwordHash
  role := m.role
  createdAt := now
  teamId := some teamID

/-- There is a team with this id or name. -/
def HasTeam (id : String) (name : List Char) (σ : Accounts) : Bool :=
  σ.teams.lookup id ≠ none ∨ σ.teams.rows.any fun team => team.2.name = name

/-- `INSERT INTO teams`, with the id that it draws. -/
def insertTeam (id : String) (team : TeamRow) : Call Unit := do
  acquire (.team id)
  acquire (.teamName team.name)
  let taken ← select (HasTeam id team.name)
  if taken then throw (.user .duplicateTeamName) else put (.insertTeam id team)

/-- `INSERT INTO users`, with the id that it draws. -/
def insertUser (id : String) (user : UserRow) : Call Unit := do
  acquire (.user id)
  acquire (.username user.username)
  let taken ← select fun σ => decide (σ.Taken id user.username)
  if taken then throw (.user .duplicateUsername) else put (.insertUser id user)

/-- The `UPDATE` of a user, and whether it has changed a row. -/
def changeUser (applies : UserRow → Bool) (w : RowWrite) (userID : String) : Call Bool := do
  acquire (.user userID)
  let affected ← select fun σ => (σ.users.lookup userID).any applies
  put w
  return affected

/-- One pass of the loop of `CreateTeamWithMembers`. -/
def createMember (now : ℤ) (teamID : String) (m : String × CreateMemberParams) :
    Call (String × UserRow) := do
  insertUser m.1 (m.2.row now teamID)
  return (m.1, m.2.row now teamID)

/-- `CreateTeamWithMembers`, with the ids that it draws and the time. -/
def createTeamWithMembers (now : ℤ) (teamID : String) (name : List Char)
    (members : List (String × CreateMemberParams)) : Call User.Team :=
  if members.length > maxTeamMembers then throw (.user .teamFull)
  else transaction do
    insertTeam teamID ⟨name, now⟩
    let createdUsers ← forEach (createMember now teamID) members
    finish
    return ⟨teamID, name, createdUsers⟩

/-- The part of `AddMember` that follows the checks of the team and the user. -/
def joinTeam (teamID userID : String) : Call Unit := do
  let count ← select fun σ => (membersOf teamID σ).length
  if count ≥ maxTeamMembers then throw (.user .teamFull)
  else do
    let affected ← changeUser Addable (.setTeam userID teamID) userID
    if affected then finish else throw .userNotFound

/-- `AddMember`. -/
def addMember (teamID userID : String) : Call Unit := transaction do
  let teamExists ← select fun σ => (σ.teams.lookup teamID).isSome
  if !teamExists then throw (.user .teamNotFound)
  else do
    let found ← select fun σ => σ.users.lookup userID
    match found with
    | none => throw .userNotFound
    | some user =>
        if user.role ≠ roleCompetitor then throw .onlyCompetitors
        else
          match user.teamId with
          | some currentTeamID =>
              if currentTeamID = teamID then return () else throw .userAlreadyInTeam
          | none => joinTeam teamID userID

/-- What is returned of a user who has been created. -/
structure CreatedMember where
  id : String
  user : UserRow
  teamName : List Char

/-- `CreateAndAddMember`, with the id that it draws and the time. -/
def createAndAddMember (now : ℤ) (userID teamID : String) (m : CreateMemberParams) :
    Call CreatedMember := transaction do
  let count ← select fun σ => (membersOf teamID σ).length
  if count ≥ maxTeamMembers then throw (.user .teamFull)
  else do
    let found ← select fun σ => σ.teams.lookup teamID
    match found with
    | none => throw (.user .teamNotFound)
    | some team => do
        insertUser userID (m.row now teamID)
        finish
        return ⟨userID, m.row now teamID, team.name⟩

/-- `RemoveMember`. -/
def removeMember (teamID userID : String) : Call Unit := do
  let affected ← autocommit (changeUser (Removable teamID) (.clearTeam userID teamID) userID)
  if affected then return () else throw .userNotFound

/-- A team that `createOne` has found, unless it is full. -/
def withRoom (id : String) (name : List Char) : Call (String × List Char) := do
  let members ← select (membersOf id)
  if members.length ≥ maxTeamMembers then throw (.user .teamFull) else return (id, name)

/-- The part of `createOne` that finds the team, or creates it. -/
def targetTeam (drawn : Drawn) (teamId : String) (teamName : List Char) :
    Call (String × List Char) :=
  if teamId ≠ "" then do
    let found ← select fun σ => σ.teams.lookup teamId
    match found with
    | none => throw (.user .teamNotFound)
    | some team => withRoom teamId team.name
  else if teamName ≠ [] then do
    let found ← select fun σ => σ.teams.rows.find? fun team => team.2.name = teamName
    match found with
    | some (id, _) => withRoom id teamName
    | none => do
        autocommit (insertTeam drawn.teamId ⟨teamName, drawn.now⟩)
        return (drawn.teamId, teamName)
  else throw (.user .teamRequired)

/-- `createOne`. -/
def createOne (drawn : Drawn) (req : CreateUserRequest) : Call User.Created :=
  match req.prepare drawn with
  | .error err => throw (.user err)
  | .ok new => do
      let (teamId, teamName) ← targetTeam drawn req.teamId new.teamName
      autocommit (insertUser drawn.userId (new.row drawn teamId))
      return ⟨drawn.userId, new.row drawn teamId, teamName, new.password⟩

/-- A call in progress. -/
inductive Op
  | createTeamWithMembers (now : ℤ) (teamID : String) (name : List Char)
      (members : List (String × CreateMemberParams))
  | addMember (teamID userID : String)
  | createAndAddMember (now : ℤ) (userID teamID : String) (m : CreateMemberParams)
  | createOne (drawn : Drawn) (req : CreateUserRequest)
  | removeMember (teamID userID : String)

inductive Reply
  | done
  | team (team : User.Team)
  | member (member : CreatedMember)
  | created (created : User.Created)

/-- The program of a call. -/
def Op.program : Op → Tx Accounts RowWrite Lock (Except Refusal Reply)
  | createTeamWithMembers now teamID name members =>
      (Reply.team <$> Teams.createTeamWithMembers now teamID name members).run
  | addMember teamID userID => ((fun _ => Reply.done) <$> Teams.addMember teamID userID).run
  | createAndAddMember now userID teamID m =>
      (Reply.member <$> Teams.createAndAddMember now userID teamID m).run
  | createOne drawn req => (Reply.created <$> Teams.createOne drawn req).run
  | removeMember teamID userID =>
      ((fun _ => Reply.done) <$> Teams.removeMember teamID userID).run

/-! ## `createOne` alone -/

/-- Nothing fails. -/
def allUp : User.Outage := ⟨fun _ => none, none⟩

lemma exec_insertUser (id : String) (user : UserRow) (σ : Accounts) :
    exec (insertUser id user).run σ σ =
      match σ.createWithTeam allUp id user with
      | .ok σ' => (.ok (), σ, σ')
      | .error err => (.error (.user err), σ, σ) := by
  show exec (ExceptT.run (if decide (σ.Taken id user.username) = true then throw (.user .duplicateUsername)
    else put (.insertUser id user) : Call Unit)) σ σ = _
  simp only [User.Accounts.createWithTeam, allUp, decide_eq_true_eq]
  split_ifs with htaken
  · rfl
  · have hfree : σ.users.lookup id = none := by
      by_contra h
      exact htaken (Or.inl h)
    show (Except.ok (), σ, RowWrite.apply _ σ) = _
    simp [RowWrite.apply, hfree]


lemma exec_insertTeam (id : String) (team : TeamRow) (σ : Accounts) :
    exec (insertTeam id team).run σ σ =
      match σ.createTeam allUp id team with
      | .ok σ' => (.ok (), σ, σ')
      | .error err => (.error (.user err), σ, σ) := by
  show exec (ExceptT.run (if HasTeam id team.name σ = true then throw (.user .duplicateTeamName)
    else put (.insertTeam id team) : Call Unit)) σ σ = _
  simp only [User.Accounts.createTeam, allUp, HasTeam, decide_eq_true_eq]
  split_ifs with htaken
  · rfl
  · have hfree : σ.teams.lookup id = none := by
      by_contra h
      exact htaken (Or.inl h)
    show (Except.ok (), σ, RowWrite.apply _ σ) = _
    simp [RowWrite.apply, hfree]

lemma exec_withRoom (id : String) (name : List Char) (σ : Accounts) :
    exec (withRoom id name).run σ σ =
      (((User.Team.mk id name (membersOf id σ)).withRoom).mapError .user, σ, σ) := by
  show exec (ExceptT.run (if (membersOf id σ).length ≥ maxTeamMembers then throw (.user .teamFull)
    else return (id, name) : Call _)) σ σ = _
  simp only [User.Team.withRoom]
  split_ifs <;> rfl

lemma getByID_allUp (id : String) (σ : Accounts) :
    σ.getByID allUp id =
      match σ.teams.lookup id with
      | none => .error .teamNotFound
      | some row => .ok ⟨id, row.name, membersOf id σ⟩ := by
  unfold User.Accounts.getByID
  cases σ.teams.lookup id <;> simp [User.Accounts.getTeamMembers, allUp, membersOf, Except.map]

lemma getByName_allUp (name : List Char) (σ : Accounts) :
    σ.getByName allUp name =
      match σ.teams.rows.find? fun team => team.2.name = name with
      | none => .error .teamNotFound
      | some (id, _) => .ok ⟨id, name, membersOf id σ⟩ := by
  unfold User.Accounts.getByName
  cases σ.teams.rows.find? fun team => team.2.name = name <;>
    simp [User.Accounts.getTeamMembers, allUp, membersOf, Except.map]

lemma exec_targetTeam (drawn : Drawn) (teamId : String) (teamName : List Char) (σ : Accounts) :
    exec (targetTeam drawn teamId teamName).run σ σ =
      ((User.targetTeam drawn allUp teamId teamName σ).2.mapError .user,
        (User.targetTeam drawn allUp teamId teamName σ).1,
        (User.targetTeam drawn allUp teamId teamName σ).1) := by
  simp only [targetTeam, User.targetTeam]
  split_ifs with hid hname
  · rw [getByID_allUp]
    show exec (ExceptT.run (match σ.teams.lookup teamId with
      | none => _
      | some team => _ : Call _)) σ σ = _
    cases σ.teams.lookup teamId with
    | none => rfl
    | some team => exact exec_withRoom teamId team.name σ
  · rw [getByName_allUp]
    show exec (ExceptT.run (match σ.teams.rows.find? fun team => team.2.name = teamName with
      | some (id, _) => _
      | none => _ : Call _)) σ σ = _
    cases σ.teams.rows.find? fun team => team.2.name = teamName with
    | some team => exact exec_withRoom team.1 teamName σ
    | none =>
        show exec ((autocommit (insertTeam drawn.teamId ⟨teamName, drawn.now⟩)).run >>= _) σ σ = _
        rw [exec_bind, exec_autocommit, exec_insertTeam]
        cases hcreate : σ.createTeam allUp drawn.teamId ⟨teamName, drawn.now⟩ with
        | ok σ' => rfl
        | error err => rfl
  · rfl

/-- **Alone, the program of `createOne` is the function.** -/
theorem createOne_alone (drawn : Drawn) (req : CreateUserRequest) (σ : Accounts) :
    atomically (createOne drawn req).run σ =
      ((User.createOne drawn allUp req σ).2.mapError .user, (User.createOne drawn allUp req σ).1) := by
  simp only [createOne, User.createOne]
  cases hprepare : req.prepare drawn with
  | error err => rfl
  | ok new =>
      have htarget := exec_targetTeam drawn req.teamId new.teamName σ
      show atomically ((targetTeam drawn req.teamId new.teamName).run >>= _) σ = _
      rw [atomically, exec_bind, htarget]
      dsimp only
      rcases User.targetTeam drawn allUp req.teamId new.teamName σ with ⟨σ₁, target⟩
      cases target with
      | error err => rfl
      | ok target =>
          show ((exec ((autocommit (insertUser drawn.userId (new.row drawn target.1))).run >>= _) σ₁ σ₁).1,
            (exec ((autocommit (insertUser drawn.userId (new.row drawn target.1))).run >>= _) σ₁ σ₁).2.1) = _
          rw [exec_bind, exec_autocommit, exec_insertUser]
          dsimp only
          cases σ₁.createWithTeam allUp drawn.userId (new.row drawn target.1) with
          | error err => rfl
          | ok σ' => rfl

end Teams

end Labyrithm
