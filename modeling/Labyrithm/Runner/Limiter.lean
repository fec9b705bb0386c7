import Mathlib.Algebra.Order.Group.Int
import Mathlib.Algebra.Order.Ring.Int
import Labyrithm.Go.Chan
import Labyrithm.Go.Errors
import Labyrithm.Go.Runs
import Labyrithm.Go.Strings

/-!
# The sandbox limiter

`backend/internal/runner/limiter.go` hands out the isolate boxes.  `newLimiter` makes three channels:
the free slots, the shares of submissions, and the admissions.  A request sends to or receives from one
after the other, in an order that depends on whether it is a run or a submission, and gives back what
it took when it gives up or is released.  Each operation on a channel is one step, and between any two
of them any other request may take its own.

* `parseCPUList`, `newLimiter` — the configuration.
* `Caller.advance` — one operation of `acquireRun`, of `acquireSubmit` and of the release they return;
  `none` where it would block.
* `Reachable` — the states of every interleaving.
-/

namespace Labyrithm

namespace Runner

open Go

/-- `ErrBusy`. -/
def errBusy : Err := .text "runner is busy"

structure Slot where
  boxID : ℕ
  core : ℤ
  deriving DecidableEq, Repr

/-- `limiter`; the channel `admission` is its `admit`. -/
structure Limiter where
  free : Chan Slot
  submitCap : Chan Unit
  admission : Chan Unit
  maxWait : ℤ

/-! ## Configuration -/

/-- One part of a CPU list: a core, a range of cores, or nothing that can be read. -/
def parsePart (part : List Char) : List ℤ :=
  let part := trimSpace part
  if '-' ∈ part then
    match split part '-' with
    | [first, last] =>
        match atoi (trimSpace first), atoi (trimSpace last) with
        | some start, some stop =>
            (List.range (stop + 1 - start).toNat).map fun (i : ℕ) => start + i
        | _, _ => []
    | _ => []
  else
    match atoi part with
    | some c => [c]
    | none => []

def parseCPUList (cpuList : String) (maxConcurrent : ℤ) : List ℤ :=
  let list := trimSpace cpuList.toList
  let cores := if list = [] then [] else (split list ',').flatMap parsePart
  if cores = [] then (List.range maxConcurrent.toNat).map Int.ofNat else cores

example : parseCPUList "3-6,8,10-11" 10 = [3, 4, 5, 6, 8, 10, 11] := by decide +kernel

/-- The arguments of `newLimiter`. -/
structure Config where
  maxConcurrent : ℤ
  maxQueue : ℤ
  maxWait : ℤ
  runReserve : ℤ
  cpuList : String

/-- `runReserve`, once it is within the boxes. -/
def Config.reserve (cfg : Config) : ℤ :=
  let runReserve := if cfg.runReserve < 0 then 0 else cfg.runReserve
  if runReserve ≥ cfg.maxConcurrent then cfg.maxConcurrent - 1 else runReserve

def Config.submitCapacity (cfg : Config) : ℤ :=
  if cfg.maxConcurrent - cfg.reserve < 1 then 1 else cfg.maxConcurrent - cfg.reserve

/-- `maxQueue`, not negative. -/
def Config.queue (cfg : Config) : ℤ := if cfg.maxQueue < 0 then 0 else cfg.maxQueue

/-- The slots that `newLimiter` puts into `free`. -/
def Config.slots (cfg : Config) : List Slot :=
  let cores := parseCPUList cfg.cpuList cfg.maxConcurrent
  (List.range cfg.maxConcurrent.toNat).map fun (id : ℕ) => ⟨id, cores.getD (id % cores.length) 0⟩

def newLimiter (cfg : Config) : Limiter where
  free := ⟨cfg.maxConcurrent.toNat, cfg.slots, by simp [Config.slots]⟩
  submitCap := .make cfg.submitCapacity.toNat
  admission := .make (cfg.maxConcurrent + cfg.queue).toNat
  maxWait := cfg.maxWait

/-! ## Requests -/

inductive Kind
  | run
  | submit
  deriving DecidableEq, Repr

/-- Where a request is.  On its way out it is `failing` if it leaves without having had a slot. -/
inductive PC
  /-- has not asked for admission -/
  | asking
  /-- admitted, in its first `select` -/
  | admitted
  /-- a submission with its share, in its second `select` -/
  | capped
  /-- returned a slot that is not released yet -/
  | holding (slot : Slot)
  /-- about to give back its share -/
  | uncapping (failing : Bool)
  /-- about to give back its admission -/
  | leaving (failing : Bool)
  | released
  | failed (err : Err)
  deriving DecidableEq

/-- A request: what it is, `ctx.Err()`, whether its wait is over, and where it is. -/
structure Caller where
  kind : Kind
  ctxErr : Option Err
  timedOut : Bool
  pc : PC
  deriving DecidableEq

/-- `<-waitCtx.Done()` can be received. -/
def Caller.waitDone (caller : Caller) : Bool := caller.ctxErr.isSome || caller.timedOut

/-- `ctx.Err()` if there is one, `ErrBusy` otherwise. -/
def Caller.failure (caller : Caller) : Err := caller.ctxErr.getD errBusy

/-- Which case of a `select` is taken: the channel or the end of the wait. -/
inductive Choice
  | go
  | done
  deriving DecidableEq, Repr

/-- One operation of a request, `none` where it blocks. -/
def Caller.advance (caller : Caller) (choice : Choice) (l : Limiter) : Option (Limiter × PC) :=
  match caller.pc, choice with
  | .asking, .go =>
      match l.admission.send () with
      | some admission => some ({ l with admission := admission }, .admitted)
      | none => some (l, .failed errBusy)
  | .admitted, .go =>
      match caller.kind with
      | .run => l.free.recv.map fun (slot, free) => ({ l with free := free }, .holding slot)
      | .submit => (l.submitCap.send ()).map fun submitCap =>
          ({ l with submitCap := submitCap }, .capped)
  | .admitted, .done => if caller.waitDone then some (l, .leaving true) else none
  | .capped, .go => l.free.recv.map fun (slot, free) => ({ l with free := free }, .holding slot)
  | .capped, .done => if caller.waitDone then some (l, .uncapping true) else none
  | .holding slot, .go => (l.free.send slot).map fun free =>
      ({ l with free := free },
        match caller.kind with
        | .run => .leaving false
        | .submit => .uncapping false)
  | .uncapping failing, .go => l.submitCap.recv.map fun (_, submitCap) =>
      ({ l with submitCap := submitCap }, .leaving failing)
  | .leaving failing, .go => l.admission.recv.map fun (_, admission) =>
      ({ l with admission := admission }, if failing then .failed caller.failure else .released)
  | _, _ => none

/-! ## The system -/

structure System where
  limiter : Limiter
  callers : List Caller

inductive Action
  | acquire (kind : Kind)
  | cancel (i : ℕ) (deadline : Bool)
  | timeout (i : ℕ)
  | advance (i : ℕ) (choice : Choice)

def Caller.cancel (deadline : Bool) (caller : Caller) : Caller :=
  let err := if deadline then Err.deadlineExceeded else Err.canceled
  { caller with ctxErr := some (caller.ctxErr.getD err) }

def step : Action → System → Option System
  | .acquire kind, s => some { s with callers := s.callers ++ [⟨kind, none, false, .asking⟩] }
  | .cancel i deadline, s =>
      s.callers[i]?.map fun caller => { s with callers := s.callers.set i (caller.cancel deadline) }
  | .timeout i, s =>
      -- the wait begins with the admission, and without a `maxWait` has no end of its own
      if s.limiter.maxWait > 0 then
        s.callers[i]?.bind fun caller =>
          if caller.pc = .asking then none
          else some { s with callers := s.callers.set i { caller with timedOut := true } }
      else none
  | .advance i choice, s =>
      s.callers[i]?.bind fun caller =>
        (caller.advance choice s.limiter).map fun (limiter, pc) =>
          ⟨limiter, s.callers.set i { caller with pc := pc }⟩

def System.new (cfg : Config) : System := ⟨newLimiter cfg, []⟩

/-- The states of every interleaving over a limiter of a given configuration. -/
def Reachable (cfg : Config) : System → Prop := Reach step (System.new cfg)

end Runner

end Labyrithm
