import Labyrithm.Sql.Table

/-!
# Accounts

The rows of `users`, and the statements of `backend/internal/user/repository.go` on a role, a password
and a suspension.  A request names an account by a text: PostgreSQL takes more than one text for a uuid,
while the handlers compare texts (`PathId`).

* `lookup_updateByID`, `lookup_delete`, `lookup_bulk` — the row of an account after a statement.
-/

namespace Labyrithm

namespace Account

inductive Role
  | competitor
  | admin
  deriving DecidableEq, Repr

/-- `RoleCompetitor` and `RoleAdmin`; others are not valid. -/
def Role.ofText (s : String) : Option Role :=
  if s = "competitor" then some .competitor else if s = "admin" then some .admin else none

/-- A row of `users`, without its id. -/
structure UserRow where
  username : String
  role : Role
  passwordHash : String
  isSuspended : Bool
  suspendedReason : String
  suspendedAt : Option ℤ
  deriving DecidableEq, Repr

/-- `users`, by id. -/
abbrev Users := Sql.Table String UserRow

/-- The text of an id in a request: what PostgreSQL takes it for, if it takes it, and whether it is
spelled as the server spells ids. -/
structure PathId where
  uuid : Option String
  canonical : Bool
  deriving DecidableEq, Repr

/-- `id == curr.ID`. -/
def PathId.is (id : PathId) (userID : String) : Bool := id.canonical && id.uuid = some userID

/-! ## The statements -/

inductive StoreErr
  | notFound
  /-- the text is not a uuid -/
  | invalidText
  deriving DecidableEq, Repr

/-- `GetByID`. -/
def getByID (id : PathId) (users : Users) : Except StoreErr (String × UserRow) :=
  match id.uuid with
  | none => .error .invalidText
  | some userID =>
      match users.lookup userID with
      | none => .error .notFound
      | some row => .ok (userID, row)

/-- An `UPDATE … WHERE id = $1` that is checked for its row. -/
def updateByID (id : PathId) (f : UserRow → UserRow) (users : Users) : Except StoreErr Users :=
  (getByID id users).map fun p => users.insert p.1 (f p.2)

def updatePassword (id : PathId) (passwordHash : String) : Users → Except StoreErr Users :=
  updateByID id fun row => { row with passwordHash := passwordHash }

def updateRole (id : PathId) (role : Role) : Users → Except StoreErr Users :=
  updateByID id fun row => { row with role := role }

/-- The columns of a suspension. -/
def UserRow.suspend (row : UserRow) (suspended : Bool) (reason : String) (now : ℤ) : UserRow :=
  { row with
    isSuspended := suspended
    suspendedReason := if suspended then reason else ""
    suspendedAt := if suspended then some now else none }

def updateSuspension (id : PathId) (suspended : Bool) (reason : String) (now : ℤ) :
    Users → Except StoreErr Users :=
  updateByID id fun row => row.suspend suspended reason now

/-- `Delete`. -/
def delete (id : PathId) (users : Users) : Except StoreErr Users :=
  (getByID id users).map fun p => users.erase p.1

/-- A statement `… WHERE id = ANY($1::uuid[]) AND role = 'competitor'`; one text that is no uuid fails
it. -/
def bulk (ids : List PathId) (f : UserRow → Option UserRow) (users : Users) :
    Except StoreErr Users :=
  if ids.any fun id => id.uuid.isNone then .error .invalidText
  else .ok (users.filterMapRows fun userID row =>
    if some userID ∈ ids.map PathId.uuid ∧ row.role = .competitor then f row else some row)

def bulkUpdateSuspension (ids : List PathId) (suspended : Bool) (reason : String) (now : ℤ) :
    Users → Except StoreErr Users :=
  bulk ids fun row => some (row.suspend suspended reason now)

def bulkDelete (ids : List PathId) : Users → Except StoreErr Users := bulk ids fun _ => none

/-! ## The row of an account after a statement -/

variable {users users' : Users} {id : PathId} {ids : List PathId} {userID : String} {row : UserRow}
  {f : UserRow → UserRow} {g : UserRow → Option UserRow}

lemma getByID_eq_ok (h : getByID id users = .ok (userID, row)) :
    id.uuid = some userID ∧ users.lookup userID = some row := by
  unfold getByID at h
  split at h
  · cases h
  · next u hid =>
    split at h
    · cases h
    · next r hrow =>
      cases h
      exact ⟨hid, hrow⟩

lemma lookup_updateByID (h : updateByID id f users = .ok users') (userID : String) :
    users'.lookup userID
      = if id.uuid = some userID then (users.lookup userID).map f else users.lookup userID := by
  unfold updateByID at h
  cases hget : getByID id users with
  | error e =>
      rw [hget] at h
      cases h
  | ok p =>
      obtain ⟨u, row⟩ := p
      obtain ⟨hid, hrow⟩ := getByID_eq_ok hget
      rw [hget] at h
      cases h
      show (users.insert u (f row)).lookup userID = _
      rw [Sql.Table.lookup_insert_eq, hid]
      by_cases hu : u = userID
      · subst hu
        simp [hrow]
      · simp [hu]

lemma lookup_delete (h : delete id users = .ok users') (userID : String) :
    users'.lookup userID = if id.uuid = some userID then none else users.lookup userID := by
  unfold delete at h
  cases hget : getByID id users with
  | error e =>
      rw [hget] at h
      cases h
  | ok p =>
      obtain ⟨u, row⟩ := p
      obtain ⟨hid, hrow⟩ := getByID_eq_ok hget
      rw [hget] at h
      cases h
      show (users.erase u).lookup userID = _
      rw [Sql.Table.lookup_erase_eq, hid]
      by_cases hu : u = userID
      · simp [hu]
      · simp [hu]

lemma lookup_bulk (h : bulk ids g users = .ok users') (userID : String) :
    users'.lookup userID = (users.lookup userID).bind fun row =>
      if some userID ∈ ids.map PathId.uuid ∧ row.role = .competitor then g row else some row := by
  unfold bulk at h
  split_ifs at h
  cases h
  exact Sql.Table.lookup_filterMapRows _ _ _

end Account

end Labyrithm
