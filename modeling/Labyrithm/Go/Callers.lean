import Mathlib.Algebra.BigOperators.Group.List.Basic
import Mathlib.Algebra.Order.Group.Multiset
import Mathlib.Tactic.Common

/-!
# What callers hold between them

Threads that share something are a list of local states, and what they hold of it a quantity of each:
a count of users, the tokens of a pool, a bag of identifiers.  `total` adds these up in any commutative
monoid.  When one thread moves, the total changes by what this thread gained and gave back
(`total_set`), so a law of conservation is checked on one local step.
-/

namespace Go

variable {L M : Type} [AddCommMonoid M]

/-- What all the callers hold together. -/
def total (f : L → M) (cs : List L) : M := (cs.map f).sum

variable {f : L → M} {cs : List L} {i : ℕ} {c : L}

@[simp] lemma total_nil : total f [] = 0 := rfl

@[simp] lemma total_cons (c : L) (cs : List L) : total f (c :: cs) = f c + total f cs := rfl

@[simp] lemma total_concat (cs : List L) (c : L) : total f (cs ++ [c]) = total f cs + f c := by
  simp [total]

/-- One caller moves from `c` to `c'`: the others keep what they hold. -/
lemma total_set (h : cs[i]? = some c) (c' : L) :
    total f (cs.set i c') + f c = total f cs + f c' := by
  induction cs generalizing i with
  | nil => simp at h
  | cons d cs ih =>
      cases i with
      | zero =>
          obtain rfl : d = c := by simpa using h
          simp only [List.set_cons_zero, total_cons]
          rw [add_comm (f d) (total f cs), add_comm (f c'), add_right_comm]
      | succ i =>
          have ih := ih (i := i) (by simpa using h)
          simp only [List.set_cons_succ, total_cons]
          rw [add_assoc, ih, add_assoc]

/-- A move in which the caller keeps what it holds changes nothing. -/
lemma total_set_same (h : cs[i]? = some c) {c' : L} (hf : f c' = f c) :
    total f (cs.set i c') = total f cs := by
  induction cs generalizing i with
  | nil => simp at h
  | cons d cs ih =>
      cases i with
      | zero =>
          obtain rfl : d = c := by simpa using h
          simp [hf]
      | succ i =>
          simp only [List.set_cons_succ, total_cons]
          rw [ih (by simpa using h)]

/-! ## Counts -/

section Count

variable {g : L → ℕ}

lemma le_total (h : cs[i]? = some c) : g c ≤ total g cs := by
  induction cs generalizing i with
  | nil => simp at h
  | cons d cs ih =>
      cases i with
      | zero =>
          obtain rfl : d = c := by simpa using h
          simp
      | succ i =>
          have := ih (i := i) (by simpa using h)
          simp only [total_cons]
          omega

/-- Two callers hold no more than the total. -/
lemma add_le_total {j : ℕ} {d : L} (hne : i ≠ j) (hi : cs[i]? = some c) (hj : cs[j]? = some d) :
    g c + g d ≤ total g cs := by
  induction cs generalizing i j with
  | nil => simp at hi
  | cons x cs ih =>
      cases i with
      | zero =>
          cases j with
          | zero => exact absurd rfl hne
          | succ j =>
              obtain rfl : x = c := by simpa using hi
              have hle : g d ≤ total g cs := le_total (i := j) (by simpa using hj)
              simp only [total_cons]
              omega
      | succ i =>
          cases j with
          | zero =>
              obtain rfl : x = d := by simpa using hj
              have hle : g c ≤ total g cs := le_total (i := i) (by simpa using hi)
              simp only [total_cons]
              omega
          | succ j =>
              have := ih (i := i) (j := j) (by omega) (by simpa using hi) (by simpa using hj)
              simp only [total_cons]
              omega

/-- A total of ones counts. -/
lemma total_countP (q : L → Bool) (cs : List L) :
    total (fun c => if q c then 1 else 0) cs = cs.countP q := by
  induction cs with
  | nil => rfl
  | cons d cs ih =>
      rw [total_cons, ih, List.countP_cons, add_comm]

end Count

/-! ## Bags -/

/-- What each caller holds at most one of, all together. -/
lemma total_filterMap {α : Type} (o : L → Option α) (cs : List L) :
    total (fun c => ((o c).toList : Multiset α)) cs = (cs.filterMap o : List α) := by
  induction cs with
  | nil => rfl
  | cons d cs ih =>
      rw [total_cons, ih]
      cases h : o d with
      | none => simp [h]
      | some x => simp [h]

end Go
