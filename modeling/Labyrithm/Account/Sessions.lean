import Labyrithm.Account.Blocks
import Labyrithm.Sql.Overlap

/-!
# The session repository

`backend/internal/session/repository.go` as programs over a table that others use at the same time.  The
tokens are as they are stored.

* A `DELETE` takes its rows from a snapshot.  It waits for whoever is changing one of them, and looks at
  the row again before it deletes it (`deleteRow`); what has been inserted since the snapshot it leaves.
* An `INSERT` waits for those of the same token, and fails where the token is there.
* **`create_alone`** — with nobody else around `Create` is the function of `Account/Blocks.lean`.
-/

namespace Labyrithm

namespace Sessions

open Sql Tx
open Account (Session)

/-! ## The rows -/

/-- The table `sessions`. -/
abbrev Stored := Table String Session

/-- What a statement does to one row. -/
inductive RowWrite
  | delete (token : String)
  | insert (token : String) (session : Session)

/-- Where a row is inserted the token is not there. -/
def RowWrite.apply : RowWrite → Stored → Stored
  | delete token, σ => σ.erase token
  | insert token session, σ => if σ.lookup token = none then σ.insert token session else σ

instance : Store Stored RowWrite where
  apply := RowWrite.apply

/-! ## The statements -/

inductive Refusal
  /-- The token is there. -/
  | insertSession
  deriving DecidableEq, Repr

/-- The reply of `login` to it. -/
def Refusal.message : Refusal → String
  | insertSession => "failed to create session"

/-- A call, or a part of it.  The locks are those of the rows, by their tokens. -/
abbrev Call (α : Type) := ExceptT Refusal (Tx Stored RowWrite String) α

/-- The tokens of the rows that match. -/
def tokensWhere (p : String → Session → Bool) (σ : Stored) : List String :=
  (σ.rows.filter fun row => p row.1 row.2).map Prod.fst

/-- One row of a `DELETE`. -/
def deleteRow (p : String → Session → Bool) (token : String) : Call Unit := do
  acquire token
  let matched ← select fun σ => (σ.lookup token).any (p token)
  if matched then put (.delete token) else return ()

/-- `DELETE FROM sessions WHERE …`. -/
def deleteWhere (p : String → Session → Bool) : Call Unit := do
  let tokens ← select (tokensWhere p)
  let _ ← forEach (deleteRow p) tokens
  return ()

/-- `INSERT INTO sessions`. -/
def insertSession (token : String) (session : Session) : Call Unit := do
  acquire token
  let taken ← select fun σ => (σ.lookup token).isSome
  if taken then throw .insertSession else put (.insert token session)

/-! ## The calls -/

/-- `WHERE user_id = $1`. -/
def ofUser (userID : String) (_ : String) (session : Session) : Bool := session.userID = userID

/-- `Create`. -/
def create (token userID : String) (expiresAt : ℤ) (shouldRevokePriorSessions : Bool) : Call Unit :=
  if shouldRevokePriorSessions then transaction do
    deleteWhere (ofUser userID)
    insertSession token ⟨userID, expiresAt⟩
    finish
  else autocommit (insertSession token ⟨userID, expiresAt⟩)

/-- `Get`, at the time of the database. -/
def get (dbNow : ℤ) (token : String) : Call (Option Session) :=
  select fun σ => (σ.lookup token).filter fun session => dbNow ≤ session.expiresAt

/-- `Delete`. -/
def delete (token : String) : Call Unit := autocommit (deleteWhere fun t _ => t = token)

/-- `DeleteByUser`. -/
def deleteByUser (userID : String) : Call Unit := autocommit (deleteWhere (ofUser userID))

/-- `DeleteByUsers`. -/
def deleteByUsers (userIDs : List String) : Call Unit :=
  if userIDs = [] then return ()
  else autocommit (deleteWhere fun _ session => session.userID ∈ userIDs)

/-- `DeleteByUserExcept`. -/
def deleteByUserExcept (userID exceptToken : String) : Call Unit :=
  autocommit (deleteWhere fun token session => session.userID = userID ∧ token ≠ exceptToken)

/-- `DeleteExpired`, at the time of the database. -/
def deleteExpired (dbNow : ℤ) : Call Unit :=
  autocommit (deleteWhere fun _ session => session.expiresAt < dbNow)

/-- A call in progress. -/
inductive Op
  /-- The part of `login` that follows the checks, with the token that it draws. -/
  | login (token userID : String) (expiresAt : ℤ)
  /-- `logout`, which looks for the session for its audit entry only. -/
  | logout (dbNow : ℤ) (token : String)
  | delete (token : String)
  | deleteByUser (userID : String)
  | deleteByUsers (userIDs : List String)
  | deleteByUserExcept (userID exceptToken : String)
  | deleteExpired (dbNow : ℤ)
  deriving DecidableEq, Repr

/-- The program of a call, where `isAdmin` are the roles of the accounts. -/
def Op.program (isAdmin : String → Bool) : Op → Tx Stored RowWrite String (Except Refusal Unit)
  | login token userID expiresAt => (create token userID expiresAt (!isAdmin userID)).run
  | logout dbNow token => (do let _ ← get dbNow token; Sessions.delete token : Call Unit).run
  | delete token => (Sessions.delete token).run
  | deleteByUser userID => (Sessions.deleteByUser userID).run
  | deleteByUsers userIDs => (Sessions.deleteByUsers userIDs).run
  | deleteByUserExcept userID exceptToken => (Sessions.deleteByUserExcept userID exceptToken).run
  | deleteExpired dbNow => (Sessions.deleteExpired dbNow).run

/-! ## `Create` alone -/

lemma exec_deleteRow (p : String → Session → Bool) (token : String) (c σ : Stored) :
    exec (deleteRow p token).run c σ =
      (.ok (), c, if (σ.lookup token).any (p token) then σ.erase token else σ) := by
  show exec (ExceptT.run (if (σ.lookup token).any (p token) = true then put (.delete token)
    else return () : Call Unit)) c σ = _
  split_ifs <;> rfl

/-- The loop of a `DELETE`: the matching rows among these are gone. -/
lemma exec_deleteRows (p : String → Session → Bool) (tokens : List String) (c σ : Stored) :
    ∃ as σ', exec (forEach (deleteRow p) tokens).run c σ = (.ok as, c, σ') ∧
      ∀ t, σ'.lookup t = if t ∈ tokens then (σ.lookup t).filter fun s => !p t s else σ.lookup t := by
  induction tokens generalizing σ with
  | nil => exact ⟨[], σ, rfl, fun t => by simp⟩
  | cons x xs ih =>
      obtain ⟨as, σ', hrun, hlookup⟩ := ih (if (σ.lookup x).any (p x) then σ.erase x else σ)
      have hfirst : ∀ t, (if (σ.lookup x).any (p x) then σ.erase x else σ).lookup t =
          if t = x then (σ.lookup t).filter fun s => !p t s else σ.lookup t := by
        intro t
        by_cases ht : t = x
        · subst ht
          cases hrow : σ.lookup t with
          | none => simp [hrow]
          | some s => cases hp : p t s <;> simp [hrow, hp, Option.filter]
        · rw [if_neg ht]
          split_ifs
          · exact AList.lookup_erase_ne ht
          · rfl
      refine ⟨() :: as, σ', ?_, ?_⟩
      · show exec ((deleteRow p x).run >>= _) c σ = _
        rw [exec_bind, exec_deleteRow]
        show exec ((forEach (deleteRow p) xs).run >>= _) c _ = _
        rw [exec_bind, hrun]
        rfl
      · intro t
        rw [hlookup, hfirst]
        by_cases ht : t = x
        · subst ht
          cases σ.lookup t with
          | none => simp
          | some s => cases hp : p t s <;> simp [hp, Option.filter]
        · simp [ht]

/-- A `DELETE` by itself leaves the rows that do not match. -/
lemma exec_deleteWhere (p : String → Session → Bool) (c σ : Stored) :
    ∃ σ', exec (deleteWhere p).run c σ = (.ok (), c, σ') ∧
      ∀ t, σ'.lookup t = (σ.lookup t).filter fun s => !p t s := by
  obtain ⟨as, σ', hrun, hlookup⟩ := exec_deleteRows p (tokensWhere p σ) c σ
  refine ⟨σ', ?_, ?_⟩
  · show exec ((forEach (deleteRow p) (tokensWhere p σ)).run >>= _) c σ = _
    rw [exec_bind, hrun]
    rfl
  · intro t
    rw [hlookup]
    split_ifs with ht
    · rfl
    · -- a row outside the snapshot does not match
      cases hrow : σ.lookup t with
      | none => rfl
      | some s =>
          have hp : p t s = false := by
            by_contra hp
            refine ht (List.mem_map.mpr ⟨(t, s), ?_, rfl⟩)
            simpa [hrow] using hp
          simp [hp, Option.filter]

/-- An `INSERT` by itself. -/
lemma exec_insertSession (token : String) (session : Session) (c σ : Stored) :
    exec (insertSession token session).run c σ =
      if (σ.lookup token).isSome then (.error .insertSession, c, σ)
      else (.ok (), c, σ.insert token session) := by
  show exec (ExceptT.run (if (σ.lookup token).isSome = true then throw .insertSession
    else put (.insert token session) : Call Unit)) c σ = _
  split_ifs with htaken
  · rfl
  · have hfree : σ.lookup token = none := by simpa using htaken
    show (Except.ok (), c, RowWrite.apply _ σ) = _
    simp [RowWrite.apply, hfree]

/-- The transaction of a `DELETE` and an `INSERT`. -/
lemma atomically_revoking (token userID : String) (expiresAt : ℤ) {σ σ₁ : Stored}
    (hdelete : exec (deleteWhere (ofUser userID)).run σ σ = (.ok (), σ, σ₁)) :
    atomically (create token userID expiresAt true).run σ =
      if (σ₁.lookup token).isSome then (.error .insertSession, σ)
      else (.ok (), σ₁.insert token ⟨userID, expiresAt⟩) := by
  have hinsert := exec_insertSession token ⟨userID, expiresAt⟩ σ σ₁
  have hbody : exec ((deleteWhere (ofUser userID) >>= fun _ =>
      insertSession token ⟨userID, expiresAt⟩ >>= fun _ => finish : Call Unit)).run σ σ =
      if (σ₁.lookup token).isSome then (.error .insertSession, σ, σ₁)
      else (.ok (), σ₁.insert token ⟨userID, expiresAt⟩, σ₁.insert token ⟨userID, expiresAt⟩) := by
    show exec ((deleteWhere (ofUser userID)).run >>= _) σ σ = _
    rw [exec_bind, hdelete]
    show exec ((insertSession token ⟨userID, expiresAt⟩).run >>= _) σ σ₁ = _
    rw [exec_bind, hinsert]
    split_ifs <;> rfl
  show ((exec (_ >>= _) σ σ).1, (exec (_ >>= _) σ σ).2.1) = _
  rw [exec_bind, hbody]
  split_ifs <;> rfl

/-- **Alone, `Create` is the function**, where the token is not there after its `DELETE`. -/
theorem create_alone (token userID : String) (expiresAt : ℤ) (revoke : Bool) (σ : Stored) :
    ∃ σ', (∀ t, σ'.lookup t = (Account.createSession token userID expiresAt revoke σ).lookup t) ∧
      atomically (create token userID expiresAt revoke).run σ =
        if (σ.lookup token).any fun s => !(revoke && ofUser userID token s) then
          (.error .insertSession, σ)
        else (.ok (), σ') := by
  cases revoke with
  | false =>
      refine ⟨σ.insert token ⟨userID, expiresAt⟩, fun t => rfl, ?_⟩
      show ((exec (autocommit (insertSession token ⟨userID, expiresAt⟩)).run σ σ).1,
        (exec (autocommit (insertSession token ⟨userID, expiresAt⟩)).run σ σ).2.1) = _
      rw [exec_autocommit, exec_insertSession]
      cases σ.lookup token <;> rfl
  | true =>
      obtain ⟨σ₁, hdelete, hlookup⟩ := exec_deleteWhere (ofUser userID) σ σ
      refine ⟨σ₁.insert token ⟨userID, expiresAt⟩, ?_, ?_⟩
      · intro t
        simp only [Account.createSession, if_true, Table.lookup_insert_eq, hlookup,
          Table.lookup_filterMapRows]
        split_ifs
        · rfl
        · cases σ.lookup t with
          | none => simp
          | some s => by_cases hs : s.userID = userID <;> simp [ofUser, hs, Option.filter]
      · rw [atomically_revoking token userID expiresAt hdelete, hlookup]
        cases σ.lookup token with
        | none => rfl
        | some s => cases hs : ofUser userID token s <;> simp [hs, Option.filter]

end Sessions

end Labyrithm
