import Mathlib.Tactic.Common

/-!
# Errors

Go's error values, as far as `errors.Is` tells them apart: the two errors a context ends with, errors
that are only a text, and errors wrapped in a text.
-/

namespace Go

inductive Err
  | canceled
  | deadlineExceeded
  | text (s : String)
  | wrapped (s : String) (inner : Err)
  deriving DecidableEq, Repr

/-- `errors.Is(err, target)`. -/
def Err.is : Err → Err → Bool
  | wrapped s inner, target => wrapped s inner = target || inner.is target
  | err, target => err = target

/-- `errors.Is(err, context.Canceled) || errors.Is(err, context.DeadlineExceeded)`. -/
def Err.isCancellation (err : Err) : Bool := err.is canceled || err.is deadlineExceeded

example : (Err.wrapped "load tests" .canceled).isCancellation := by decide

end Go
