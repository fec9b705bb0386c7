import Mathlib.Logic.Relation
import Mathlib.Tactic.Common

/-!
# Transaction programs

A request handler talks to the database one statement at a time.  `Tx σ ω ℓ α` is the program of
such a handler, over a database state `σ`, row writes `ω` and lock names `ℓ`: it reads a statement
snapshot, waits for a lock, takes a lock if nobody holds it, writes a row, commits, rolls back, and
in the end returns an `α`.  The program says nothing about who else is running; that is what its two
meanings add.

* `Tx.exec` — the program alone: every statement sees the committed state and the program's own
  writes, and every lock is free.
* `ReadCommitted.lean` — many programs interleaved statement by statement.

A handler that may fail is an `ExceptT ε (Tx σ ω ℓ) α`.  `transaction` is the deferred rollback of a
Go handler: a body that ends in an error leaves none of its uncommitted writes behind.
-/

namespace Sql

/-- A store whose rows change by writes of type `ω`. -/
class Store (σ : Type) (ω : outParam Type) where
  apply : ω → σ → σ

/-- The program of a request handler. -/
inductive Tx (σ ω ℓ α : Type) : Type
  | ret (a : α)
  | read (k : σ → Tx σ ω ℓ α)
  | lock (l : ℓ) (k : Tx σ ω ℓ α)
  | tryLock (l : ℓ) (k : Bool → Tx σ ω ℓ α)
  | write (w : ω) (k : Tx σ ω ℓ α)
  | commit (k : Tx σ ω ℓ α)
  | rollback (k : Tx σ ω ℓ α)

/-- What a transaction that has written `ws` sees of the committed state `c`. -/
def view {σ ω : Type} [Store σ ω] (ws : List ω) (c : σ) : σ :=
  ws.foldl (fun s w => Store.apply w s) c

section View

variable {σ ω : Type} [Store σ ω]

@[simp] lemma view_nil (c : σ) : view ([] : List ω) c = c := rfl

@[simp] lemma view_append_singleton (ws : List ω) (w : ω) (c : σ) :
    view (ws ++ [w]) c = Store.apply w (view ws c) := by
  simp [view]

/-- A part of the store that each write changes as a function of that part alone is, in the view,
a function of the committed part. -/
lemma view_congr {β : Type} (part : σ → β) (eff : ω → β → β)
    (h : ∀ w c, part (Store.apply w c) = eff w (part c)) (ws : List ω) {c c' : σ}
    (hc : part c = part c') : part (view ws c) = part (view ws c') := by
  induction ws generalizing c c' with
  | nil => exact hc
  | cons w ws ih =>
      refine ih ?_
      rw [h, h, hc]

/-- What each write keeps holds in the view if it holds of the committed state. -/
lemma view_keeps {P : σ → Prop} {ws : List ω} {c : σ}
    (h : ∀ w ∈ ws, ∀ s : σ, P s → P (Store.apply w s)) (hc : P c) : P (view ws c) := by
  induction ws generalizing c with
  | nil => exact hc
  | cons w ws ih => exact ih (fun w' hw' => h w' (by simp [hw'])) (h w (by simp) c hc)

/-- A part of the store that no write of the transaction touches is the committed one. -/
lemma view_untouched {β : Type} (part : σ → β) (ws : List ω) (c : σ)
    (h : ∀ w ∈ ws, ∀ s : σ, part (Store.apply w s) = part s) : part (view ws c) = part c := by
  refine view_keeps (P := fun s => part s = part c) ?_ rfl
  intro w hw s hs
  rw [h w hw s, hs]

end View

namespace Tx

variable {σ ω ℓ α β ε : Type}

/-- Sequencing: the second program starts where the first one returns. -/
def bind (f : α → Tx σ ω ℓ β) : Tx σ ω ℓ α → Tx σ ω ℓ β
  | ret a => f a
  | read k => read fun s => bind f (k s)
  | lock l k => lock l (bind f k)
  | tryLock l k => tryLock l fun b => bind f (k b)
  | write w k => write w (bind f k)
  | commit k => commit (bind f k)
  | rollback k => rollback (bind f k)

instance : Monad (Tx σ ω ℓ) where
  pure := ret
  bind t f := bind f t

lemma bind_eq (t : Tx σ ω ℓ α) (f : α → Tx σ ω ℓ β) : t >>= f = bind f t := rfl

/-! ## The program alone -/

section Exec

variable [Store σ ω]

/-- Run the program with nobody else around, from the committed state `c` and the view `v`.  The
result is the value returned, the committed state and the view at the end. -/
def exec : Tx σ ω ℓ α → σ → σ → α × σ × σ
  | ret a, c, v => (a, c, v)
  | read k, c, v => exec (k v) c v
  | lock _ k, c, v => exec k c v
  | tryLock _ k, c, v => exec (k true) c v
  | write w k, c, v => exec k c (Store.apply w v)
  | commit k, _, v => exec k v v
  | rollback k, c, _ => exec k c c

/-- The whole program as one atomic operation on the committed state. -/
def atomically (t : Tx σ ω ℓ α) (c : σ) : α × σ :=
  ((exec t c c).1, (exec t c c).2.1)

/-- Running a sequence is running the parts one after the other. -/
theorem exec_bind (t : Tx σ ω ℓ α) (f : α → Tx σ ω ℓ β) (c v : σ) :
    exec (t >>= f) c v
      = exec (f (exec t c v).1) (exec t c v).2.1 (exec t c v).2.2 := by
  rw [bind_eq]
  induction t generalizing c v with
  | ret a => rfl
  | read k ih => exact ih v c v
  | lock l k ih => exact ih c v
  | tryLock l k ih => exact ih true c v
  | write w k ih => exact ih c (Store.apply w v)
  | commit k ih => exact ih v v
  | rollback k ih => exact ih c c

end Exec

/-! ## Handlers that may fail -/

/-- The statement's snapshot, and what it computes from it. -/
def select (f : σ → β) : ExceptT ε (Tx σ ω ℓ) β :=
  ExceptT.mk (read fun s => ret (.ok (f s)))

/-- Wait until `l` is free and hold it to the end of the transaction. -/
def acquire (l : ℓ) : ExceptT ε (Tx σ ω ℓ) Unit :=
  ExceptT.mk (lock l (ret (.ok ())))

/-- Take `l` if nobody holds it, and say whether it was taken. -/
def tryAcquire (l : ℓ) : ExceptT ε (Tx σ ω ℓ) Bool :=
  ExceptT.mk (tryLock l fun b => ret (.ok b))

/-- Write one row. -/
def put (w : ω) : ExceptT ε (Tx σ ω ℓ) Unit :=
  ExceptT.mk (write w (ret (.ok ())))

/-- Publish the writes and give the locks back. -/
def finish : ExceptT ε (Tx σ ω ℓ) Unit :=
  ExceptT.mk (commit (ret (.ok ())))

/-- The deferred rollback: an error of the body discards what it has not committed. -/
def transaction (body : ExceptT ε (Tx σ ω ℓ) α) : ExceptT ε (Tx σ ω ℓ) α :=
  ExceptT.mk <| body.run >>= fun r =>
    match r with
    | .ok a => ret (.ok a)
    | .error e => rollback (ret (.error e))

/-- A statement sent outside a transaction is a transaction of its own. -/
def autocommit (body : ExceptT ε (Tx σ ω ℓ) α) : ExceptT ε (Tx σ ω ℓ) α :=
  transaction do
    let a ← body
    finish
    return a

/-- Report the errors of `body` as something else. -/
def rethrow (f : ε → ε) (body : ExceptT ε (Tx σ ω ℓ) α) : ExceptT ε (Tx σ ω ℓ) α :=
  ExceptT.mk <| body.run >>= fun r =>
    match r with
    | .ok a => ret (.ok a)
    | .error e => ret (.error (f e))

/-- Run `f` on each element and collect the results. -/
def forEach (f : β → ExceptT ε (Tx σ ω ℓ) α) : List β → ExceptT ε (Tx σ ω ℓ) (List α)
  | [] => return []
  | x :: xs => do
      let a ← f x
      let as ← forEach f xs
      return a :: as

end Tx

end Sql
