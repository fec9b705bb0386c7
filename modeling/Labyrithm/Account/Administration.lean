import Labyrithm.Account.Users
import Labyrithm.Go.Runs
import Labyrithm.Go.Strings

/-!
# The administration of accounts

The handlers of `backend/internal/api/admin_users.go` (and `readmitContestant`) that change a role, a
password or a suspension, or delete an account, as far as they do.  They refuse to touch another
administrator's account, each in its own way; `updateRole` does not look at the account.  The requests
of one administrator come one after another, and she has to be one (`requireUser`, `requireAdmin`).

* `Gentle` — nobody becomes an administrator, and other administrators are left as they are.
* `serve_gentle` — every request is gentle, but for a role update that names another administrator.
* **`administrators_kept_iff`** — a sequence of requests never touches another administrator's account if
  and only if no role update in it names one.
-/

namespace Labyrithm

namespace Account

/-! ## Requests -/

inductive Request
  | resetPassword (id : PathId) (password : String)
  | updateRole (id : PathId) (role : String)
  | deleteUser (id : PathId)
  | suspendUser (id : PathId) (suspended : Bool) (reason : String)
  | unlockUser (id : PathId)
  | readmitContestant (id : PathId)
  /-- a blank entry is `none` -/
  | bulkUserAction (userIDs : List (Option PathId)) (action reason : String) (hoursValid : ℤ)
  deriving DecidableEq, Repr

/-- What a request draws from elsewhere: the time, a generated password of a length, and the hash. -/
structure Drawn where
  now : ℤ
  generatePassword : ℕ → String
  hashPassword : String → Option String

inductive Err
  | invalidSession
  | accountSuspended
  | adminOnly
  | invalidPayload
  | noUserIds
  | tooManyUsers
  | noValidTargets
  | hoursValid
  | invalidAction
  | userNotFound
  | resetAdmin
  | passwordLength (least : ℕ)
  | hashFailed
  | invalidRole
  | grantAdmin
  | demoteSelf
  | deleteSelf
  | deleteAdmin
  | suspendSelf
  | suspendAdmin
  /-- a bulk action gives the text of the store instead -/
  | operationFailed
  deriving DecidableEq, Repr

def Err.status : Err → ℕ
  | invalidSession => 401
  | accountSuspended | adminOnly | resetAdmin | grantAdmin | deleteAdmin | suspendAdmin => 403
  | userNotFound => 404
  | hashFailed | operationFailed => 500
  | _ => 400

def Err.message : Err → String
  | invalidSession => "invalid session"
  | accountSuspended => "Account has been suspended by an administrator."
  | adminOnly => "admin only"
  | invalidPayload => "invalid payload"
  | noUserIds => "no user ids provided"
  | tooManyUsers => "cannot process more than 500 users at once"
  | noValidTargets => "no valid target user ids provided"
  | hoursValid => "hoursValid must be between 0 and 168"
  | invalidAction => "invalid action"
  | userNotFound => "user not found"
  | resetAdmin => "cannot reset another admin's password via API; use server CLI"
  | passwordLength least => "password must be at least " ++ Nat.repr least ++ " characters"
  | hashFailed => "failed to hash password"
  | invalidRole => "invalid role"
  | grantAdmin => "admin role cannot be granted via API; use server CLI"
  | demoteSelf => "cannot demote yourself"
  | deleteSelf => "cannot delete yourself"
  | deleteAdmin => "admin accounts cannot be deleted via API; use server CLI"
  | suspendSelf => "cannot suspend yourself"
  | suspendAdmin => "admin accounts cannot be suspended via API; use server CLI"
  | operationFailed => "operation failed"

/-- `writeUpdateError`. -/
def updateErr : StoreErr → Err
  | .notFound => .userNotFound
  | .invalidText => .operationFailed

/-- The reply of a handler whose last statement is this one, and the table after it. -/
def reply (users : Users) : Except StoreErr Users → Option Err × Users
  | .ok users => (none, users)
  | .error e => (some (updateErr e), users)

/-! ## Handlers -/

def minPasswordLength : ℕ := 8
def minAdminPasswordLength : ℕ := 12
def generatedPasswordLength : ℕ := 10
def generatedAdminPasswordLength : ℕ := 14
def maxAccessGrantHours : ℤ := 168

/-- `restoreUserAccess`, on the row that the handler has read; an error is passed over. -/
def restoreUserAccess (id : PathId) (target : UserRow) (now : ℤ) (users : Users) : Users :=
  if target.isSuspended then
    match updateSuspension id false "Restored by administrator" now users with
    | .ok users => users
    | .error _ => users
  else users

def resetPassword (d : Drawn) (me : String) (id : PathId) (password : String) (users : Users) :
    Option Err × Users :=
  match getByID id users with
  | .error _ => (some .userNotFound, users)
  | .ok (_, target) =>
      let isAdmin : Bool := target.role = .admin
      let least := if isAdmin then minAdminPasswordLength else minPasswordLength
      let length := if isAdmin then generatedAdminPasswordLength else generatedPasswordLength
      if isAdmin && !id.is me then (some .resetAdmin, users)
      else if password ≠ "" ∧ Go.len password.toList < least then (some (.passwordLength least), users)
      else
        match d.hashPassword (if password = "" then d.generatePassword length else password) with
        | none => (some .hashFailed, users)
        | some hash => reply users (updatePassword id hash users)

def updateRoleHandler (me : String) (id : PathId) (role : String) (users : Users) :
    Option Err × Users :=
  if role = "" then (some .invalidPayload, users)
  else
    match Role.ofText role with
    | none => (some .invalidRole, users)
    | some .admin => (some .grantAdmin, users)
    | some .competitor =>
        if id.is me then (some .demoteSelf, users) else reply users (updateRole id .competitor users)

def deleteUser (me : String) (id : PathId) (users : Users) : Option Err × Users :=
  if id.is me then (some .deleteSelf, users)
  else
    match getByID id users with
    | .error _ => (some .userNotFound, users)
    | .ok (_, target) =>
        if target.role = .admin then (some .deleteAdmin, users) else reply users (delete id users)

def suspendUser (d : Drawn) (me : String) (id : PathId) (suspended : Bool) (reason : String)
    (users : Users) : Option Err × Users :=
  if id.is me && suspended then (some .suspendSelf, users)
  else
    match getByID id users with
    | .error _ => (some .userNotFound, users)
    | .ok (_, target) =>
        if target.role = .admin then (some .suspendAdmin, users)
        else
          match updateSuspension id suspended (String.ofList (Go.trimSpace reason.toList)) d.now users with
          | .error e => (some (updateErr e), users)
          | .ok users =>
              (none, if suspended then users else restoreUserAccess id target d.now users)

/-- `unlockUser`, and `readmitContestant`. -/
def unlockUser (d : Drawn) (id : PathId) (users : Users) : Option Err × Users :=
  match getByID id users with
  | .error _ => (some .userNotFound, users)
  | .ok (_, target) => (none, restoreUserAccess id target d.now users)

/-- The loop of the bulk action `restore`. -/
def restoreAll (now : ℤ) (ids : List PathId) (users : Users) : Users :=
  ids.foldl (fun users id =>
    match getByID id users with
    | .error _ => users
    | .ok (_, target) => restoreUserAccess id target now users) users

/-- `validIDs`. -/
def validIDs (me : String) (userIDs : List (Option PathId)) : List PathId :=
  ((userIDs.filterMap id).filter fun id => !id.is me).eraseDups

def bulkUserAction (d : Drawn) (me : String) (userIDs : List (Option PathId)) (action reason : String)
    (hoursValid : ℤ) (users : Users) : Option Err × Users :=
  let ids := validIDs me userIDs
  let trimmed := String.ofList (Go.trimSpace reason.toList)
  let reason := if trimmed = "" then "Bulk operation by administrator" else trimmed
  let bulkReply (old : Users) : Except StoreErr Users → Option Err × Users
    | .ok users => (none, users)
    | .error _ => (some .operationFailed, old)
  if action = "" then (some .invalidPayload, users)
  else if userIDs = [] then (some .noUserIds, users)
  else if userIDs.length > 500 then (some .tooManyUsers, users)
  else if ids = [] then (some .noValidTargets, users)
  else if hoursValid < 0 ∨ hoursValid > maxAccessGrantHours then (some .hoursValid, users)
  else if action = "suspend" then bulkReply users (bulkUpdateSuspension ids true reason d.now users)
  else if action = "restore" then
    let out := bulkReply users (bulkUpdateSuspension ids false "" d.now users)
    (out.1, restoreAll d.now ids out.2)
  else if action = "delete" then bulkReply users (bulkDelete ids users)
  -- these change columns of the proctor
  else if action ∈ ["allow_web_only", "require_desktop", "exempt_proctor", "enforce_proctor"] then
    bulkReply users (bulk ids some users)
  else (some .invalidAction, users)

/-- A handler, for an administrator. -/
def Request.handle (d : Drawn) (me : String) : Request → Users → Option Err × Users
  | .resetPassword id password => Account.resetPassword d me id password
  | .updateRole id role => updateRoleHandler me id role
  | .deleteUser id => Account.deleteUser me id
  | .suspendUser id suspended reason => Account.suspendUser d me id suspended reason
  | .unlockUser id | .readmitContestant id => Account.unlockUser d id
  | .bulkUserAction userIDs action reason hoursValid =>
      Account.bulkUserAction d me userIDs action reason hoursValid

/-- `requireUser` and `requireAdmin`, for an account with a session. -/
def authorize (me : String) (users : Users) : Option Err :=
  match users.lookup me with
  | none => some .invalidSession
  | some row =>
      if row.isSuspended then some .accountSuspended
      else if row.role = .admin then none
      else some .adminOnly

/-- A request of the account `me`. -/
def Request.serve (me : String) (users : Users) (e : Drawn × Request) : Option Err × Users :=
  match authorize me users with
  | some err => (some err, users)
  | none => e.2.handle e.1 me users

/-- The table after a request. -/
def after (me : String) (users : Users) (e : Drawn × Request) : Users :=
  (Request.serve me users e).2

/-! ## What a request leaves alone -/

/-- An administrator's account is there, with its role and its password, and is not suspended unless it
was. -/
def Spared (o o' : Option UserRow) : Prop :=
  ∀ row, o = some row → row.role = .admin → ∃ row', o' = some row' ∧ row'.role = .admin
    ∧ row'.passwordHash = row.passwordHash ∧ (row'.isSuspended → row.isSuspended)

/-- An account that is an administrator's was one. -/
def NotPromoted (o o' : Option UserRow) : Prop :=
  ∀ row', o' = some row' → row'.role = .admin → ∃ row, o = some row ∧ row.role = .admin

/-- Other administrators keep their accounts, and there are no new ones. -/
structure Gentle (me : String) (users users' : Users) : Prop where
  spared : ∀ userID, userID ≠ me → Spared (users.lookup userID) (users'.lookup userID)
  notPromoted : ∀ userID, NotPromoted (users.lookup userID) (users'.lookup userID)

variable {users users' users'' : Users} {me userID : String} {id : PathId} {ids : List PathId}
  {row : UserRow} {f : UserRow → UserRow} {g : UserRow → Option UserRow} {d : Drawn} {r : Request}

lemma Spared.trans {o o' o'' : Option UserRow} (h : Spared o o') (h' : Spared o' o'') :
    Spared o o'' := by
  intro row hrow hadmin
  obtain ⟨row', hrow', hadmin', hhash', hsuspended'⟩ := h row hrow hadmin
  obtain ⟨row'', hrow'', hadmin'', hhash'', hsuspended''⟩ := h' row' hrow' hadmin'
  exact ⟨row'', hrow'', hadmin'', hhash''.trans hhash', fun hs => hsuspended' (hsuspended'' hs)⟩

lemma NotPromoted.trans {o o' o'' : Option UserRow} (h : NotPromoted o o') (h' : NotPromoted o' o'') :
    NotPromoted o o'' := by
  intro row'' hrow'' hadmin''
  obtain ⟨row', hrow', hadmin'⟩ := h' row'' hrow'' hadmin''
  exact h row' hrow' hadmin'

lemma Gentle.refl (me : String) (users : Users) : Gentle me users users where
  spared := fun _ _ row hrow hadmin => ⟨row, hrow, hadmin, rfl, fun hs => hs⟩
  notPromoted := fun _ row hrow hadmin => ⟨row, hrow, hadmin⟩

lemma Gentle.trans (h : Gentle me users users') (h' : Gentle me users' users'') :
    Gentle me users users'' where
  spared := fun userID hne => (h.spared userID hne).trans (h'.spared userID hne)
  notPromoted := fun userID => (h.notPromoted userID).trans (h'.notPromoted userID)

/-- An update of one account keeps the role, and what else an administrator's account has. -/
lemma gentle_updateByID (h : updateByID id f users = .ok users') (hrole : ∀ row, (f row).role = row.role)
    (hkeeps : ∀ userID row, id.uuid = some userID → users.lookup userID = some row → userID ≠ me →
      row.role = .admin → (f row).passwordHash = row.passwordHash ∧ ((f row).isSuspended → row.isSuspended)) :
    Gentle me users users' := by
  refine ⟨fun userID hne row hrow hadmin => ?_, fun userID row' hrow' hadmin => ?_⟩
  · rw [lookup_updateByID h, hrow]
    split_ifs with hid
    · obtain ⟨hhash, hsuspended⟩ := hkeeps userID row hid hrow hne hadmin
      exact ⟨f row, rfl, (hrole row).trans hadmin, hhash, hsuspended⟩
    · exact ⟨row, rfl, hadmin, rfl, fun hs => hs⟩
  · rw [lookup_updateByID h] at hrow'
    split_ifs at hrow' with hid
    · obtain ⟨row, hrow, rfl⟩ := Option.map_eq_some_iff.mp hrow'
      exact ⟨row, hrow, (hrole row).symm.trans hadmin⟩
    · exact ⟨row', hrow', hadmin⟩

lemma gentle_delete (h : delete id users = .ok users')
    (hrole : ∀ userID row, id.uuid = some userID → users.lookup userID = some row → row.role ≠ .admin) :
    Gentle me users users' := by
  refine ⟨fun userID _ row hrow hadmin => ?_, fun userID row' hrow' hadmin => ?_⟩
  · rw [lookup_delete h, hrow, if_neg fun hid => hrole userID row hid hrow hadmin]
    exact ⟨row, rfl, hadmin, rfl, fun hs => hs⟩
  · rw [lookup_delete h] at hrow'
    split_ifs at hrow'
    exact ⟨row', hrow', hadmin⟩

/-- A bulk statement is for competitors. -/
lemma gentle_bulk (h : bulk ids g users = .ok users')
    (hrole : ∀ row row', g row = some row' → row'.role = row.role) : Gentle me users users' := by
  refine ⟨fun userID _ row hrow hadmin => ?_, fun userID row' hrow' hadmin => ?_⟩
  · have hnot : ¬(some userID ∈ ids.map PathId.uuid ∧ row.role = .competitor) := by
      rintro ⟨-, hcompetitor⟩
      rw [hcompetitor] at hadmin
      cases hadmin
    refine ⟨row, ?_, hadmin, rfl, fun hs => hs⟩
    rw [lookup_bulk h, hrow, Option.bind_some, if_neg hnot]
  · rw [lookup_bulk h] at hrow'
    obtain ⟨row, hrow, hg⟩ := Option.bind_eq_some_iff.mp hrow'
    split_ifs at hg with hcase
    · exact ⟨row, hrow, (hrole row row' hg).symm.trans hadmin⟩
    · obtain rfl := Option.some.inj hg
      exact ⟨row, hrow, hadmin⟩

lemma gentle_restoreUserAccess (id : PathId) (target : UserRow) (now : ℤ) (users : Users) :
    Gentle me users (restoreUserAccess id target now users) := by
  unfold restoreUserAccess
  split_ifs
  · cases h : updateSuspension id false "Restored by administrator" now users with
    | error e => exact Gentle.refl me users
    | ok users' =>
        refine gentle_updateByID h (fun _ => rfl) fun _ _ _ _ _ _ => ⟨rfl, fun hs => ?_⟩
        cases hs
  · exact Gentle.refl me users

lemma gentle_restoreAll (now : ℤ) (ids : List PathId) (users : Users) :
    Gentle me users (restoreAll now ids users) := by
  induction ids generalizing users with
  | nil => exact Gentle.refl me users
  | cons id ids ih =>
      cases h : getByID id users with
      | error e =>
          have hcons : restoreAll now (id :: ids) users = restoreAll now ids users := by
            simp [restoreAll, h]
          rw [hcons]
          exact ih users
      | ok p =>
          have hcons : restoreAll now (id :: ids) users
              = restoreAll now ids (restoreUserAccess id p.2 now users) := by
            simp [restoreAll, h]
          rw [hcons]
          exact (gentle_restoreUserAccess id p.2 now users).trans (ih _)

/-! ## Every request -/

/-- A role update, served, that names another administrator. -/
def Demotes (me : String) (users : Users) (e : Drawn × Request) : Prop :=
  authorize me users = none ∧ ∃ id userID row, e.2 = .updateRole id "competitor" ∧ ¬id.is me
    ∧ id.uuid = some userID ∧ userID ≠ me ∧ users.lookup userID = some row ∧ row.role = .admin

lemma gentle_reply {result : Except StoreErr Users}
    (h : ∀ users', result = .ok users' → Gentle me users users') :
    Gentle me users (reply users result).2 := by
  cases result with
  | error e => exact Gentle.refl me users
  | ok users' => exact h users' rfl

lemma gentle_ite {c : Prop} [Decidable c] {x y : Option Err × Users} (hx : c → Gentle me users x.2)
    (hy : ¬c → Gentle me users y.2) : Gentle me users (if c then x else y).2 := by
  by_cases hc : c
  · rw [if_pos hc]
    exact hx hc
  · rw [if_neg hc]
    exact hy hc

/-- What has been read of an account is its row. -/
lemma eq_of_getByID {target : UserRow} {u : String} (hget : getByID id users = .ok (u, target))
    (huserID : id.uuid = some userID) (hrow : users.lookup userID = some row) :
    u = userID ∧ target = row := by
  obtain ⟨hid, htarget⟩ := getByID_eq_ok hget
  obtain rfl := Option.some.inj (hid.symm.trans huserID)
  exact ⟨rfl, Option.some.inj (htarget.symm.trans hrow)⟩

lemma gentle_unlockUser (me : String) (d : Drawn) (id : PathId) (users : Users) :
    Gentle me users (unlockUser d id users).2 := by
  unfold unlockUser
  cases getByID id users with
  | error e => exact Gentle.refl me users
  | ok p => exact gentle_restoreUserAccess id p.2 d.now users

/-- Of administrators' passwords only one's own is reset. -/
lemma gentle_resetPassword (me : String) (d : Drawn) (id : PathId) (password : String) (users : Users) :
    Gentle me users (resetPassword d me id password users).2 := by
  unfold resetPassword
  cases hget : getByID id users with
  | error e => exact Gentle.refl me users
  | ok p =>
      refine gentle_ite (fun _ => Gentle.refl me users) fun hadmin => ?_
      refine gentle_ite (fun _ => Gentle.refl me users) fun _ => ?_
      split
      · exact Gentle.refl me users
      · refine gentle_reply fun users' h => gentle_updateByID h (fun _ => rfl) ?_
        intro userID row huserID hrow hne hrole
        obtain ⟨-, htarget⟩ := eq_of_getByID hget huserID hrow
        have hother : id.is me = false := by simp [PathId.is, huserID, hne]
        simp [htarget, hrole, hother] at hadmin

lemma gentle_deleteUser (me : String) (id : PathId) (users : Users) :
    Gentle me users (deleteUser me id users).2 := by
  unfold deleteUser
  refine gentle_ite (fun _ => Gentle.refl me users) fun _ => ?_
  cases hget : getByID id users with
  | error e => exact Gentle.refl me users
  | ok p =>
      refine gentle_ite (fun _ => Gentle.refl me users) fun hadmin => ?_
      refine gentle_reply fun users' h => gentle_delete h ?_
      intro userID row huserID hrow
      obtain ⟨-, htarget⟩ := eq_of_getByID hget huserID hrow
      rw [← htarget]
      exact hadmin

lemma gentle_suspendUser (me : String) (d : Drawn) (id : PathId) (suspended : Bool)
    (reason : String) (users : Users) : Gentle me users (suspendUser d me id suspended reason users).2 := by
  unfold suspendUser
  refine gentle_ite (fun _ => Gentle.refl me users) fun _ => ?_
  cases hget : getByID id users with
  | error e => exact Gentle.refl me users
  | ok p =>
      refine gentle_ite (fun _ => Gentle.refl me users) fun hadmin => ?_
      cases h : updateSuspension id suspended (String.ofList (Go.trimSpace reason.toList)) d.now users with
      | error e => exact Gentle.refl me users
      | ok users' =>
          have hfirst : Gentle me users users' := by
            refine gentle_updateByID h (fun _ => rfl) ?_
            intro userID row huserID hrow _ hrole
            obtain ⟨-, htarget⟩ := eq_of_getByID hget huserID hrow
            rw [← htarget] at hrole
            exact absurd hrole hadmin
          cases suspended with
          | true => exact hfirst
          | false => exact hfirst.trans (gentle_restoreUserAccess id p.2 d.now users')

lemma gentle_bulkUserAction (me : String) (d : Drawn) (userIDs : List (Option PathId))
    (action reason : String) (hoursValid : ℤ) (users : Users) :
    Gentle me users (bulkUserAction d me userIDs action reason hoursValid users).2 := by
  have hbulk : ∀ (ids : List PathId) (g : UserRow → Option UserRow),
      (∀ row row', g row = some row' → row'.role = row.role) →
      Gentle me users (match bulk ids g users with
        | .ok users' => ((none : Option Err), users')
        | .error _ => (some .operationFailed, users)).2 := by
    intro ids g hrole
    cases h : bulk ids g users with
    | error e => exact Gentle.refl me users
    | ok users' => exact gentle_bulk h hrole
  have hsuspend : ∀ suspended reason row row',
      some (UserRow.suspend row suspended reason d.now) = some row' → row'.role = row.role := by
    intro suspended reason row row' h
    cases h
    rfl
  unfold bulkUserAction
  refine gentle_ite (fun _ => Gentle.refl me users) fun _ => ?_
  refine gentle_ite (fun _ => Gentle.refl me users) fun _ => ?_
  refine gentle_ite (fun _ => Gentle.refl me users) fun _ => ?_
  refine gentle_ite (fun _ => Gentle.refl me users) fun _ => ?_
  refine gentle_ite (fun _ => Gentle.refl me users) fun _ => ?_
  refine gentle_ite (fun _ => hbulk _ _ (hsuspend _ _)) fun _ => ?_
  refine gentle_ite (fun _ => ?_) fun _ => ?_
  · exact (hbulk _ _ (hsuspend false "")).trans (gentle_restoreAll d.now _ _)
  refine gentle_ite (fun _ => hbulk _ _ ?_) fun _ => ?_
  · intro row row' h
    cases h
  refine gentle_ite (fun _ => hbulk _ _ ?_) fun _ => Gentle.refl me users
  intro row row' h
  obtain rfl := Option.some.inj h
  rfl

/-- A role update changes the account it names, to a competitor's. -/
lemma lookup_updateRoleHandler (me : String) (id : PathId) (role : String) (users : Users) (userID : String) :
    ((updateRoleHandler me id role users).2.lookup userID = users.lookup userID) ∨
      (role = "competitor" ∧ ¬id.is me ∧ id.uuid = some userID
        ∧ (updateRoleHandler me id role users).2.lookup userID
          = (users.lookup userID).map fun row => { row with role := .competitor }) := by
  unfold updateRoleHandler Role.ofText
  by_cases hempty : role = ""
  · exact .inl (by simp [hempty])
  by_cases hcompetitor : role = "competitor"
  · by_cases hme : id.is me
    · exact .inl (by simp [hcompetitor, hme])
    · cases h : updateRole id .competitor users with
      | error e => exact .inl (by simp [hcompetitor, hme, reply])
      | ok users' =>
          have hlookup := lookup_updateByID h userID
          by_cases huserID : id.uuid = some userID
          · rw [if_pos huserID] at hlookup
            exact .inr ⟨hcompetitor, hme, huserID, by simpa [hcompetitor, hme, h, reply] using hlookup⟩
          · rw [if_neg huserID] at hlookup
            exact .inl (by simpa [hcompetitor, hme, h, reply] using hlookup)
  · by_cases hadmin : role = "admin"
    · exact .inl (by simp [hadmin])
    · exact .inl (by simp [hempty, hcompetitor, hadmin])

/-- Nobody becomes an administrator. -/
lemma handle_notPromoted (me : String) (d : Drawn) (r : Request) (users : Users) (userID : String) :
    NotPromoted (users.lookup userID) ((r.handle d me users).2.lookup userID) := by
  cases r with
  | resetPassword id password => exact (gentle_resetPassword me d id password users).notPromoted userID
  | updateRole id role =>
      intro row' hrow' hadmin
      obtain hsame | ⟨-, -, -, hmap⟩ := lookup_updateRoleHandler me id role users userID
      · exact ⟨row', hsame.symm.trans hrow', hadmin⟩
      · obtain ⟨row, -, rfl⟩ := Option.map_eq_some_iff.mp (hmap.symm.trans hrow')
        cases hadmin
  | deleteUser id => exact (gentle_deleteUser me id users).notPromoted userID
  | suspendUser id suspended reason =>
      exact (gentle_suspendUser me d id suspended reason users).notPromoted userID
  | unlockUser id => exact (gentle_unlockUser me d id users).notPromoted userID
  | readmitContestant id => exact (gentle_unlockUser me d id users).notPromoted userID
  | bulkUserAction userIDs action reason hoursValid =>
      exact (gentle_bulkUserAction me d userIDs action reason hoursValid users).notPromoted userID

/-- Another administrator's account, once the role update has named it. -/
lemma handle_of_demotes {e : Drawn × Request} (h : Demotes me users e) :
    ∃ userID row row', userID ≠ me ∧ users.lookup userID = some row ∧ row.role = .admin
      ∧ (after me users e).lookup userID = some row' ∧ row'.role = .competitor := by
  obtain ⟨hauth, id, userID, row, hr, hme, huserID, hne, hrow, hadmin⟩ := h
  have hget : getByID id users = .ok (userID, row) := by
    unfold getByID
    rw [huserID]
    show (match users.lookup userID with
      | none => Except.error StoreErr.notFound
      | some row => .ok (userID, row)) = _
    rw [hrow]
  have hafter : after me users e = users.insert userID { row with role := .competitor } := by
    unfold after Request.serve
    rw [hauth, hr]
    simp [Request.handle, updateRoleHandler, Role.ofText, hme, updateRole, updateByID, hget, reply,
      Except.map]
  refine ⟨userID, row, { row with role := .competitor }, hne, hrow, hadmin, ?_, rfl⟩
  rw [hafter, Sql.Table.lookup_insert_eq, if_pos rfl]

/-- **The other requests are gentle.** -/
theorem serve_gentle {e : Drawn × Request} (h : ¬Demotes me users e) : Gentle me users (after me users e) := by
  unfold after Request.serve
  cases hauth : authorize me users with
  | some err => exact Gentle.refl me users
  | none =>
      obtain ⟨d, r⟩ := e
      show Gentle me users (r.handle d me users).2
      cases r with
      | resetPassword id password => exact gentle_resetPassword me d id password users
      | updateRole id role =>
          refine ⟨fun userID hne row hrow hadmin => ?_, handle_notPromoted me d (.updateRole id role) users⟩
          obtain hsame | ⟨rfl, hme, huserID, -⟩ := lookup_updateRoleHandler me id role users userID
          · exact ⟨row, hsame.trans hrow, hadmin, rfl, fun hs => hs⟩
          · exact absurd ⟨hauth, id, userID, row, rfl, hme, huserID, hne, hrow, hadmin⟩ h
      | deleteUser id => exact gentle_deleteUser me id users
      | suspendUser id suspended reason => exact gentle_suspendUser me d id suspended reason users
      | unlockUser id => exact gentle_unlockUser me d id users
      | readmitContestant id => exact gentle_unlockUser me d id users
      | bulkUserAction userIDs action reason hoursValid =>
          exact gentle_bulkUserAction me d userIDs action reason hoursValid users

lemma after_notPromoted (me : String) (users : Users) (e : Drawn × Request) (userID : String) :
    NotPromoted (users.lookup userID) ((after me users e).lookup userID) := by
  unfold after Request.serve
  cases authorize me users with
  | some err => exact (Gentle.refl me users).notPromoted userID
  | none => exact handle_notPromoted me e.1 e.2 users userID

lemma foldl_notPromoted (me : String) (requests : List (Drawn × Request)) (users : Users)
    (userID : String) :
    NotPromoted (users.lookup userID) ((requests.foldl (after me) users).lookup userID) := by
  induction requests generalizing users with
  | nil => exact (Gentle.refl me users).notPromoted userID
  | cons e requests ih => exact (after_notPromoted me users e userID).trans (ih (after me users e))

/-! ## A sequence of requests -/

/-- Where administrators have been left alone, a request leaves them alone unless it demotes one. -/
lemma gentle_after_iff (users₀ users : Users) (e : Drawn × Request) (h : Gentle me users₀ users) :
    Gentle me users₀ (after me users e) ↔ ¬Demotes me users e := by
  constructor
  · intro hafter hdemotes
    obtain ⟨userID, row, row', hne, hrow, hadmin, hrow', hcompetitor⟩ := handle_of_demotes hdemotes
    obtain ⟨row₀, hrow₀, hadmin₀⟩ := h.notPromoted userID row hrow hadmin
    obtain ⟨r, hr, hstill, -, -⟩ := hafter.spared userID hne row₀ hrow₀ hadmin₀
    obtain rfl := Option.some.inj (hrow'.symm.trans hr)
    rw [hcompetitor] at hstill
    cases hstill
  · intro hdemotes
    exact h.trans (serve_gentle hdemotes)

/-- **The other administrators keep their accounts, roles and passwords, and are not suspended,
throughout, if and only if no role update names one.** -/
theorem administrators_kept_iff (me : String) (users : Users) (requests : List (Drawn × Request)) :
    (∀ n userID, userID ≠ me →
        Spared (users.lookup userID) (((requests.take n).foldl (after me) users).lookup userID)) ↔
      ∀ n e, requests[n]? = some e → ¬Demotes me ((requests.take n).foldl (after me) users) e := by
  have hiff := Go.foldl_keeps_iff (I := Gentle me users) (gentle_after_iff users) (Gentle.refl me users)
    requests
  rw [← hiff]
  constructor
  · intro h n
    exact ⟨h n, fun userID => foldl_notPromoted me _ users userID⟩
  · intro h n
    exact (h n).spared

/-- One administrator makes a competitor of another, whose account can now be deleted. -/
theorem administrator_demoted :
    ∃ (users : Users) (d : Drawn) (id : PathId),
      (users.lookup "root").map UserRow.role = some .admin ∧
      ¬Spared (users.lookup "root") ((after "me" users (d, .updateRole id "competitor")).lookup "root") ∧
      ([(d, .updateRole id "competitor"), (d, .deleteUser id)].foldl (after "me") users).lookup "root"
        = none := by
  let row : UserRow := ⟨"a", .admin, "h", false, "", none⟩
  let users : Users := ((∅ : Users).insert "me" row).insert "root" row
  let id : PathId := ⟨some "root", true⟩
  let d : Drawn := ⟨0, fun _ => "", some⟩
  refine ⟨users, d, id, by decide +kernel, ?_, by decide +kernel⟩
  intro h
  obtain ⟨row', hrow', hadmin, -⟩ := h row (by decide +kernel) rfl
  have hcompetitor : ((after "me" users (d, .updateRole id "competitor")).lookup "root").map UserRow.role
      = some .competitor := by decide +kernel
  rw [hrow'] at hcompetitor
  rw [Option.map_some, hadmin] at hcompetitor
  cases hcompetitor

end Account

end Labyrithm
