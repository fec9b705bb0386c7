import Mathlib.Data.List.Basic
import Mathlib.Tactic.Common

/-!
# `ORDER BY … LIMIT 1`

The first row of a result in an order given as a Boolean comparison.  When the comparison is a total
preorder this is a least element; when it is antisymmetric on the rows, it is the only one.
-/

namespace Sql

variable {ρ : Type}

/-- The first row in an order, the earliest among equals. -/
def first (le : ρ → ρ → Bool) : List ρ → Option ρ
  | [] => none
  | x :: xs =>
      match first le xs with
      | none => some x
      | some y => if le x y then some x else some y

variable {le : ρ → ρ → Bool} {l : List ρ} {x : ρ}

@[simp] lemma first_eq_none : first le l = none ↔ l = [] := by
  cases l with
  | nil => simp [first]
  | cons x xs =>
      simp only [first, reduceCtorEq, iff_false]
      cases first le xs with
      | none => simp
      | some y => by_cases h : le x y <;> simp [h]

lemma first_mem (h : first le l = some x) : x ∈ l := by
  induction l generalizing x with
  | nil => simp [first] at h
  | cons a xs ih =>
      simp only [first] at h
      cases hf : first le xs with
      | none => simp_all
      | some y =>
          simp only [hf] at h
          split_ifs at h
          · simp_all
          · obtain rfl := Option.some.inj h
            exact List.mem_cons_of_mem _ (ih hf)

lemma first_le (total : ∀ a b, le a b ∨ le b a) (trans : ∀ a b c, le a b → le b c → le a c)
    (h : first le l = some x) : ∀ y ∈ l, le x y := by
  induction l generalizing x with
  | nil => simp
  | cons a xs ih =>
      have refl : ∀ b, le b b := fun b => (total b b).elim id id
      simp only [first] at h
      cases hf : first le xs with
      | none =>
          obtain rfl : xs = [] := first_eq_none.mp hf
          simp_all
      | some y =>
          simp only [hf] at h
          intro b hb
          split_ifs at h with hay
          · obtain rfl := Option.some.inj h
            rcases List.mem_cons.mp hb with rfl | hb
            · exact refl _
            · exact trans _ _ _ hay (ih hf b hb)
          · obtain rfl := Option.some.inj h
            rcases List.mem_cons.mp hb with rfl | hb
            · exact (total _ _).resolve_right hay
            · exact ih hf b hb

/-- What is first depends on the rows only, not on the order a scan meets them in. -/
lemma first_eq_some_iff (total : ∀ a b, le a b ∨ le b a)
    (trans : ∀ a b c, le a b → le b c → le a c) (antisymm : ∀ a b, le a b → le b a → a ∈ l → b ∈ l → a = b) :
    first le l = some x ↔ x ∈ l ∧ ∀ y ∈ l, le x y := by
  constructor
  · exact fun h => ⟨first_mem h, first_le total trans h⟩
  · rintro ⟨hx, hle⟩
    cases hf : first le l with
    | none => simp [first_eq_none.mp hf] at hx
    | some y =>
        have hy := first_mem hf
        rw [antisymm y x (first_le total trans hf x hx) (hle y hy) hy hx]

end Sql
