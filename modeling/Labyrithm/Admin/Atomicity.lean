import Labyrithm.Problem.Atomicity
import Labyrithm.User.Creation

/-!
# Whether requests of the administrator are all or nothing

The requests of the admin API that take several transactions: `createProblem` and `updateProblem` write a
problem and its tests, and `createUser` a team and a user.  Any of the operations on the store may fail.

* `Request.serve` — a request on the whole database.
* `Request.Halts` — the request stops after a transaction that has changed something.
* **`request_unchanged_iff`** — a reply with an error leaves the database as it was in all other cases, and
  only in these.
* `halves_left` — a problem without its tests, and a team without its user.
-/

namespace Labyrithm

namespace Admin

/-- The tables. -/
structure Database where
  problems : Problem.Tables
  accounts : User.Accounts

/-- They hold what they held. -/
def Database.Same (d' d : Database) : Prop :=
  d'.problems.Same d.problems ∧ d'.accounts.Same d.accounts

/-- A request, with the ids that the database gives to the new rows. -/
inductive Request
  | createProblem (id : String) (ids : ℕ → String) (texts : Problem.Texts) (req : Problem.ProblemPayload)
  | updateProblem (id : String) (ids : ℕ → String) (texts : Problem.Texts) (req : Problem.ProblemPayload)
  | createUser (drawn : User.Drawn) (req : User.CreateUserRequest)

inductive Reply
  | problem (reply : Problem.Reply)
  | user (reply : User.Reply)

def Reply.isError : Reply → Bool
  | problem reply => reply.isError
  | user reply => reply.isError

/-- What fails. -/
structure Outage where
  problems : Problem.Outage
  accounts : User.Outage

/-- The reply to a request at a time, and the database after it. -/
def Request.serve (sha : List UInt8 → String) (now : ℤ) (down : Outage) (d : Database) :
    Request → Reply × Database
  | createProblem id ids texts req =>
      let o := Problem.createProblemIn down.problems sha id ids req d.problems.store
      (.problem o.1, { d with problems := d.problems.after sha texts now o })
  | updateProblem id ids texts req =>
      let o := Problem.updateProblemIn down.problems sha id ids req d.problems.store
      (.problem o.1, { d with problems := d.problems.after sha texts now o })
  | createUser drawn req =>
      let (reply, accounts) := User.createUser drawn down.accounts req d.accounts
      (.user reply, { d with accounts := accounts })

/-- The request stops half-way: the problem is there, and its tests are not saved; the tests have been
given points, and the problem is not updated; or the team is there, and the user is not. -/
def Request.Halts (sha : List UInt8 → String) (now : ℤ) (down : Outage) (d : Database) : Request → Prop
  | createProblem id _ _ req => Problem.CreatesHalf down.problems sha id req d.problems.store
  | updateProblem id _ texts req =>
      Problem.HaltsAtTests down.problems sha texts now id req d.problems ∨
        Problem.HaltsAtUpdate down.problems id req d.problems
  | createUser drawn req => User.LeavesTeam drawn down.accounts req d.accounts

/-- **A request that is answered with an error leaves the database as it was if and only if it does not
stop half-way.** -/
theorem request_unchanged_iff (sha : List UInt8 → String) (now : ℤ) (down : Outage) (d : Database)
    (r : Request) :
    ((r.serve sha now down d).1.isError → (r.serve sha now down d).2.Same d) ↔
      ¬ r.Halts sha now down d := by
  have hproblems : d.problems.Same d.problems := ⟨fun _ => rfl, fun _ => rfl⟩
  have haccounts : d.accounts.Same d.accounts := ⟨fun _ => rfl, fun _ => rfl⟩
  cases r with
  | createProblem id ids texts req =>
      simp only [Request.serve, Reply.isError, Database.Same, Request.Halts, and_iff_left haccounts]
      exact Problem.createProblemIn_unchanged_iff
  | updateProblem id ids texts req =>
      simp only [Request.serve, Reply.isError, Database.Same, Request.Halts, and_iff_left haccounts]
      exact Problem.updateProblemIn_unchanged_iff
  | createUser drawn req =>
      exact (imp_congr_right fun _ => and_iff_right hproblems).trans
        (User.createUser_unchanged_iff drawn down.accounts req d.accounts)

/-! ## A problem without its tests, and a team without its user -/

/-- A database with one user. -/
def sampleDatabase : Database where
  problems := ⟨∅, ∅, fun id p hp => by simp at hp⟩
  accounts :=
    { teams := ∅
      users := (∅ : Sql.Table String User.UserRow).insert "u"
        ⟨['a', 'd', 'a'], ['a', 'd', 'a'], "", User.roleCompetitor, 0, none⟩ }

/-- Nothing fails. -/
def up : Outage := ⟨Problem.up, fun _ => none, none⟩

/-- A problem whose points do not add up. -/
def sampleCreateProblem : Request :=
  .createProblem "p" Nat.repr ⟨"Two Sum", "easy", "Add them.", ""⟩ (Problem.samplePublished 1)

/-- A user in a new team, whose name is taken. -/
def sampleCreateUser : Request :=
  .createUser ⟨"t", "v", 0, [], fun _ => .ok ""⟩ { username := ['a', 'd', 'a'], teamName := ['r', 'e', 'd'] }

/-- The problem stays, published and without tests, and the team stays, without a member. -/
theorem halves_left :
    ((sampleCreateProblem.serve Problem.sampleSha 0 up sampleDatabase).1.isError = true ∧
      ¬ (sampleCreateProblem.serve Problem.sampleSha 0 up sampleDatabase).2.Same sampleDatabase) ∧
    (sampleCreateUser.serve Problem.sampleSha 0 up sampleDatabase).1.isError = true ∧
      ¬ (sampleCreateUser.serve Problem.sampleSha 0 up sampleDatabase).2.Same sampleDatabase := by
  refine ⟨⟨by decide +kernel, fun h => ?_⟩, by decide +kernel, fun h => ?_⟩
  · have hrow := h.1.1 "p"
    revert hrow
    decide +kernel
  · have hrow := h.2.1 "t"
    revert hrow
    decide +kernel

end Admin

end Labyrithm
