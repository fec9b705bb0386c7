import Mathlib.Algebra.Order.Ring.Int
import Mathlib.Data.Int.Notation
import Mathlib.Logic.Function.Basic
import Labyrithm.Go.Errors
import Labyrithm.Go.Map
import Labyrithm.Go.Runs

/-!
# The cache of test suites

`backend/internal/judge/testcache.go`: the suites the judge's workers share.  `Cache` is the
`testCache` with every entry it ever made, at the position that stands for the pointer to it.  A call
of `acquire` is a `Caller`: what it does with the mutex held is one step, and between these it waits,
loads or returns.  `step` takes one step of the system, where the calls, the ends of their contexts,
the answers of the source, the clock, `invalidate` and `clear` come in any order.

* `Cache.evict`, `Cache.lookUp`, `Cache.finish`, `Cache.release` — the sections under the mutex.
* `Caller.advance` — one step of `acquire` and of the release it returns.
* `Reachable` — the states of every interleaving from `newTestCache`.
-/

namespace Labyrithm

namespace TestCache

open Go

/-! ## The cache -/

/-- `judge.TestCase`. -/
structure TestCase where
  id : String
  ordinal : ℤ
  input : List UInt8
  expected : List UInt8
  points : ℤ
  deriving DecidableEq, Repr

/-- The bytes a suite counts for. -/
def suiteBytes (tests : List TestCase) : ℤ :=
  (tests.map fun test => (test.input.length : ℤ) + test.expected.length).sum

/-- `cachedTests`.  `ready` says whether the channel is there: the section that takes it away closes
it. -/
structure CachedTests where
  tests : List TestCase
  bytes : ℤ
  users : ℤ
  lastUsed : ℕ
  ready : Bool
  err : Option Err
  expires : ℤ

/-- `&cachedTests{ready: make(chan struct{})}`. -/
def CachedTests.fresh : CachedTests := ⟨[], 0, 0, 0, true, none, 0⟩

/-- Loaded, and used by nobody. -/
def CachedTests.idle (e : CachedTests) : Bool := !e.ready && e.users = 0

/-- `testCache`.  Instants are nanoseconds. -/
structure Cache where
  entry : ℕ → CachedTests
  next : ℕ
  byID : Map String ℕ
  bytes : ℤ
  maxBytes : ℤ
  clock : ℕ

def newTestCache (maxBytes : ℤ) : Cache := ⟨fun _ => .fresh, 0, ∅, 0, maxBytes, 0⟩

/-- Assign to what a pointer points to. -/
def Cache.set (c : Cache) (ptr : ℕ) (e : CachedTests) : Cache :=
  { c with entry := Function.update c.entry ptr e }

/-! ## Eviction -/

/-- One iteration of the search for the oldest. -/
def Cache.older (c : Cache) (oldest : Option (Sigma fun _ : String => ℕ))
    (e : Sigma fun _ : String => ℕ) : Option (Sigma fun _ : String => ℕ) :=
  if (c.entry e.2).idle then
    match oldest with
    | none => some e
    | some o => if (c.entry e.2).lastUsed < (c.entry o.2).lastUsed then some e else oldest
  else oldest

def Cache.oldest (c : Cache) : Option (Sigma fun _ : String => ℕ) :=
  c.byID.entries.foldl c.older none

/-- The `for` of `evict`, for a number of rounds. -/
def Cache.evictRounds : ℕ → Cache → Cache
  | 0, c => c
  | n + 1, c =>
      if c.bytes > c.maxBytes then
        match c.oldest with
        | none => c
        | some oldest => evictRounds n
            { c with
              byID := c.byID.erase oldest.1
              bytes := c.bytes - (c.entry oldest.2).bytes }
      else c

/-- A round deletes an entry, so there are no more of them than entries. -/
def Cache.evict (c : Cache) : Cache := c.evictRounds c.byID.entries.length

/-! ## The sections under the mutex -/

def Cache.invalidate (problemID : String) (c : Cache) : Cache :=
  match c.byID.get? problemID with
  | none => c
  | some ptr => { c with bytes := c.bytes - (c.entry ptr).bytes, byID := c.byID.erase problemID }

def Cache.clear (c : Cache) : Cache := { c with byID := ∅, bytes := 0 }

/-- One user more, at the next tick of the clock. -/
def Cache.touch (ptr : ℕ) (c : Cache) : Cache :=
  { c.set ptr { c.entry ptr with
      users := (c.entry ptr).users + 1
      lastUsed := c.clock + 1 } with
    clock := c.clock + 1 }

/-- The end of `acquire`: a user more, and the eviction that follows. -/
def Cache.use (ptr : ℕ) (c : Cache) : Cache := (c.touch ptr).evict

/-- The function that `acquire` returns. -/
def Cache.release (ptr : ℕ) (c : Cache) : Cache :=
  (c.set ptr { c.entry ptr with users := (c.entry ptr).users - 1 }).evict

/-- Where a call of `acquire` is. -/
inductive PC
  /-- at the top of the loop -/
  | top
  /-- its context alive when it looked, about to lock -/
  | locking
  /-- in the `select` -/
  | waiting (ptr : ℕ)
  /-- has put its entry into the map, about to call the source -/
  | starting (ptr : ℕ)
  /-- in the source -/
  | loading (ptr : ℕ)
  /-- has the source's answer, about to lock -/
  | loaded (ptr : ℕ) (result : Except Err (List TestCase))
  /-- counted among the users, about to return -/
  | inUse (ptr : ℕ)
  /-- has returned the tests, and not released them -/
  | holding (ptr : ℕ)
  | released
  | failed (err : Err)

/-- An entry whose time is up leaves the map. -/
def Cache.expire (problemID : String) (now : ℤ) (c : Cache) : Cache :=
  match c.byID.get? problemID with
  | none => c
  | some ptr =>
      if !(c.entry ptr).ready ∧ (c.entry ptr).expires < now then
        { c with bytes := c.bytes - (c.entry ptr).bytes, byID := c.byID.erase problemID }
      else c

/-- A new entry, to be loaded. -/
def Cache.create (problemID : String) (c : Cache) : Cache :=
  { c.set c.next .fresh with next := c.next + 1, byID := c.byID.insert problemID c.next }

/-- The first section of `acquire`: wait for a load, start one, or use what is there. -/
def Cache.lookUp (problemID : String) (now : ℤ) (c : Cache) : Cache × PC :=
  let c := c.expire problemID now
  match c.byID.get? problemID with
  | none => (c.create problemID, .starting c.next)
  | some ptr => if (c.entry ptr).ready then (c, .waiting ptr) else (c.use ptr, .inUse ptr)

/-- What a load leaves in its entry, and what it adds to the total. -/
def Cache.publish (ptr : ℕ) (tests : List TestCase) (now : ℤ) (c : Cache) : Cache :=
  let entry := c.entry ptr
  let bytes := entry.bytes + suiteBytes tests
  { c.set ptr { entry with
      ready := false, err := none, tests := tests, bytes := bytes
      expires := now + 300000000000 } with
    bytes := c.bytes + bytes }

/-- The second section of `acquire`, after the load: an entry that is not in the map any more is
dropped and the call starts over. -/
def Cache.finish (problemID : String) (ptr : ℕ) (result : Except Err (List TestCase)) (now : ℤ)
    (c : Cache) : Cache × PC :=
  if c.byID.get? problemID ≠ some ptr then
    (c.set ptr { c.entry ptr with ready := false }, .top)
  else
    match result with
    | .error err =>
        ({ c.set ptr { c.entry ptr with ready := false, err := some err } with
            byID := c.byID.erase problemID }, .failed err)
    | .ok tests => ((c.publish ptr tests now).use ptr, .inUse ptr)

/-! ## Calls -/

/-- A call of `acquire`: its problem, `ctx.Err()`, and where it is. -/
structure Caller where
  problemID : String
  ctxErr : Option Err
  pc : PC

/-- The context ends, and stays as it ended. -/
def Caller.cancel (deadline : Bool) (caller : Caller) : Caller :=
  let err := if deadline then Err.deadlineExceeded else Err.canceled
  { caller with ctxErr := some (caller.ctxErr.getD err) }

/-- What can be observed, in the order it happens. -/
inductive Event
  | began (i : ℕ) (problemID : String)
  | cancelled (i : ℕ)
  | loadStarted (i ptr : ℕ) (problemID : String)
  | loadEnded (i ptr : ℕ) (result : Except Err (List TestCase))
  | returned (i : ℕ) (tests : List TestCase)
  | failed (i : ℕ) (err : Err)
  | invalidated (problemID : String)
  | cleared
  deriving DecidableEq

/-- What decides how a call goes on: the clock, which case of the `select` is taken, the source. -/
inductive Choice
  | go (now : ℤ)
  | ready
  | done
  | answer (result : Except Err (List TestCase))

/-- What a call fails with is reported. -/
def PC.report (i : ℕ) : PC → List Event
  | failed err => [.failed i err]
  | _ => []

/-- One step of the call `i`. -/
def Caller.advance (i : ℕ) (caller : Caller) (choice : Choice) (c : Cache) :
    Option (Cache × PC × List Event) :=
  match caller.pc, choice with
  | .top, .go _ =>
      match caller.ctxErr with
      | some err => some (c, .failed err, [.failed i err])
      | none => some (c, .locking, [])
  | .locking, .go now =>
      let (c, pc) := c.lookUp caller.problemID now
      some (c, pc, [])
  | .waiting _, .done => caller.ctxErr.map fun err => (c, .failed err, [.failed i err])
  | .waiting ptr, .ready =>
      if (c.entry ptr).ready then none
      else
        match (c.entry ptr).err with
        | some err =>
            if err.isCancellation then some (c, .top, [])
            else some (c, .failed err, [.failed i err])
        | none => some (c, .top, [])
  | .starting ptr, .go _ => some (c, .loading ptr, [.loadStarted i ptr caller.problemID])
  | .loading ptr, .answer result => some (c, .loaded ptr result, [.loadEnded i ptr result])
  | .loaded ptr result, .go now =>
      let (c, pc) := c.finish caller.problemID ptr result now
      some (c, pc, pc.report i)
  | .inUse ptr, .go _ => some (c, .holding ptr, [.returned i (c.entry ptr).tests])
  | .holding ptr, .go _ => some (c.release ptr, .released, [])
  | _, _ => none

/-! ## The system -/

structure System where
  cache : Cache
  callers : List Caller
  history : List Event

inductive Action
  | begin (problemID : String)
  | cancel (i : ℕ) (deadline : Bool)
  | advance (i : ℕ) (choice : Choice)
  | invalidate (problemID : String)
  | clear

def step : Action → System → Option System
  | .begin problemID, s => some
      { s with
        callers := s.callers ++ [⟨problemID, none, .top⟩]
        history := s.history ++ [.began s.callers.length problemID] }
  | .cancel i deadline, s =>
      s.callers[i]?.map fun caller =>
        { s with
          callers := s.callers.set i (caller.cancel deadline)
          history := s.history ++ [.cancelled i] }
  | .advance i choice, s =>
      s.callers[i]?.bind fun caller =>
        (caller.advance i choice s.cache).map fun (cache, pc, events) =>
          ⟨cache, s.callers.set i { caller with pc := pc }, s.history ++ events⟩
  | .invalidate problemID, s => some
      { s with
        cache := s.cache.invalidate problemID
        history := s.history ++ [.invalidated problemID] }
  | .clear, s => some { s with cache := s.cache.clear, history := s.history ++ [.cleared] }

def System.new (maxBytes : ℤ) : System := ⟨newTestCache maxBytes, [], []⟩

/-- The states of every interleaving over a cache of a given size. -/
def Reachable (maxBytes : ℤ) : System → Prop := Reach step (System.new maxBytes)

/-! ## The steps of a call -/

/-- The steps of the call `i`, with what each of them needs. -/
inductive Caller.Moves (i : ℕ) (caller : Caller) (c : Cache) :
    Choice → Cache → PC → List Event → Prop
  | refused {now : ℤ} {err : Err} : caller.pc = .top → caller.ctxErr = some err →
      Moves i caller c (.go now) c (.failed err) [.failed i err]
  | alive {now : ℤ} : caller.pc = .top → caller.ctxErr = none →
      Moves i caller c (.go now) c .locking []
  | lookUp (now : ℤ) : caller.pc = .locking →
      Moves i caller c (.go now) (c.lookUp caller.problemID now).1
        (c.lookUp caller.problemID now).2 []
  | abandoned {ptr : ℕ} {err : Err} : caller.pc = .waiting ptr → caller.ctxErr = some err →
      Moves i caller c .done c (.failed err) [.failed i err]
  | again {ptr : ℕ} : caller.pc = .waiting ptr → Moves i caller c .ready c .top []
  | shared {ptr : ℕ} {err : Err} : caller.pc = .waiting ptr → err.isCancellation = false →
      Moves i caller c .ready c (.failed err) [.failed i err]
  | started {now : ℤ} {ptr : ℕ} : caller.pc = .starting ptr →
      Moves i caller c (.go now) c (.loading ptr) [.loadStarted i ptr caller.problemID]
  | answered {ptr : ℕ} {result : Except Err (List TestCase)} : caller.pc = .loading ptr →
      Moves i caller c (.answer result) c (.loaded ptr result) [.loadEnded i ptr result]
  | finish {ptr : ℕ} {result : Except Err (List TestCase)} (now : ℤ) :
      caller.pc = .loaded ptr result →
      Moves i caller c (.go now) (c.finish caller.problemID ptr result now).1
        (c.finish caller.problemID ptr result now).2
        ((c.finish caller.problemID ptr result now).2.report i)
  | returned {now : ℤ} {ptr : ℕ} : caller.pc = .inUse ptr →
      Moves i caller c (.go now) c (.holding ptr) [.returned i (c.entry ptr).tests]
  | released {now : ℤ} {ptr : ℕ} : caller.pc = .holding ptr →
      Moves i caller c (.go now) (c.release ptr) .released []

lemma Caller.advance_moves {i : ℕ} {caller : Caller} {choice : Choice} {c c' : Cache} {pc' : PC}
    {events : List Event} (h : caller.advance i choice c = some (c', pc', events)) :
    caller.Moves i c choice c' pc' events := by
  unfold Caller.advance at h
  split at h
  · next hpc =>
    split at h
    · next hctx =>
      cases h
      exact .refused hpc hctx
    · next hctx =>
      cases h
      exact .alive hpc hctx
  · next now hpc =>
    cases h
    exact .lookUp now hpc
  · next hpc =>
    obtain ⟨err, hctx, heq⟩ := Option.map_eq_some_iff.mp h
    cases heq
    exact .abandoned hpc hctx
  · next hpc =>
    split at h
    · cases h
    split at h
    · split_ifs at h with hcancel
      · cases h
        exact .again hpc
      · cases h
        exact .shared hpc (by simpa using hcancel)
    · cases h
      exact .again hpc
  · next hpc =>
    cases h
    exact .started hpc
  · next hpc =>
    cases h
    exact .answered hpc
  · next now hpc =>
    cases h
    exact .finish now hpc
  · next hpc =>
    cases h
    exact .returned hpc
  · next hpc =>
    cases h
    exact .released hpc
  · cases h

end TestCache

end Labyrithm
