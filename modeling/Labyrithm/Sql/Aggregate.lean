import Mathlib.Algebra.BigOperators.Group.List.Basic
import Mathlib.Algebra.Order.Ring.Int
import Mathlib.Data.List.Dedup
import Mathlib.Tactic.Common

/-!
# Aggregates

`COALESCE(SUM(…), 0)`, `COUNT(DISTINCT …)` and `MAX(…)` over the rows of a group.  They depend on the
rows and not on their order, and rows that an aggregate's `FILTER` leaves out, or that add nothing to
a sum, may as well be missing.
-/

namespace Sql

variable {ρ κ : Type}

/-- `COALESCE(SUM(f), 0)`. -/
def sumOf (f : ρ → ℤ) (l : List ρ) : ℤ := (l.map f).sum

/-- `COUNT(DISTINCT f) FILTER (WHERE p)`. -/
def countDistinct [DecidableEq κ] (p : ρ → Bool) (f : ρ → κ) (l : List ρ) : ℕ :=
  ((l.filter p).map f).dedup.length

/-- `MAX(f) FILTER (WHERE p)`, which passes over the nulls. -/
def maxOf (p : ρ → Bool) (f : ρ → Option ℤ) (l : List ρ) : Option ℤ :=
  ((l.filter p).filterMap f).max?

variable {l l' : List ρ} {p q : ρ → Bool}

lemma sumOf_perm (f : ρ → ℤ) (h : l.Perm l') : sumOf f l = sumOf f l' := (h.map f).sum_eq

lemma countDistinct_perm [DecidableEq κ] (p : ρ → Bool) (f : ρ → κ) (h : l.Perm l') :
    countDistinct p f l = countDistinct p f l' :=
  ((h.filter p).map f).dedup.length_eq

lemma maxOf_perm (p : ρ → Bool) (f : ρ → Option ℤ) (h : l.Perm l') :
    maxOf p f l = maxOf p f l' := by
  have hmem : ∀ a, a ∈ (l.filter p).filterMap f ↔ a ∈ (l'.filter p).filterMap f :=
    fun a => ((h.filter p).filterMap f).mem_iff
  refine Option.ext fun a => ?_
  simp only [maxOf, List.max?_eq_some_iff, hmem]

lemma sumOf_filter (f : ρ → ℤ) (h : ∀ x, q x = false → f x = 0) :
    sumOf f (l.filter q) = sumOf f l := by
  induction l with
  | nil => rfl
  | cons x l ih =>
      by_cases hx : q x
      · simpa [sumOf, hx] using ih
      · have hf := h x (by simpa using hx)
        simpa [sumOf, hx, hf] using ih

lemma countDistinct_filter [DecidableEq κ] (f : ρ → κ) (h : ∀ x, p x → q x) :
    countDistinct p f (l.filter q) = countDistinct p f l := by
  have : (l.filter q).filter p = l.filter p := by
    rw [List.filter_filter]
    exact List.filter_congr fun x _ => by
      by_cases hp : p x <;> simp [hp, h]
  rw [countDistinct, this, countDistinct]

lemma maxOf_filter (f : ρ → Option ℤ) (h : ∀ x, p x → q x) :
    maxOf p f (l.filter q) = maxOf p f l := by
  have : (l.filter q).filter p = l.filter p := by
    rw [List.filter_filter]
    exact List.filter_congr fun x _ => by
      by_cases hp : p x <;> simp [hp, h]
  rw [maxOf, this, maxOf]

end Sql
