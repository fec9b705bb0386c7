import Mathlib.Data.List.Infix
import Mathlib.Data.List.Basic
import Mathlib.Tactic.Common

/-!
# Words of a list

The maximal runs of elements that satisfy a predicate, and the windows of a list.

* `words_map` — words after a map are the words before it, where the predicates agree.
* `flatten_words` — put together, the words are the elements that satisfy the predicate.
* `mem_windows` — the windows are the contiguous parts of their length.
-/

namespace Text

variable {α β : Type}

/-! ## Words -/

/-- The maximal runs of elements that satisfy `p`. -/
def words (p : α → Bool) (s : List α) : List (List α) :=
  (s.splitOnP fun a => !p a).filter fun part => part ≠ []

lemma splitOnP_map (p : β → Bool) (f : α → β) (s : List α) :
    (s.map f).splitOnP p = (s.splitOnP fun a => p (f a)).map (List.map f) := by
  induction s with
  | nil => simp [List.splitOnP_nil]
  | cons a s ih =>
      rw [List.map_cons, List.splitOnP_cons_eq_if_modifyHead, List.splitOnP_cons_eq_if_modifyHead, ih]
      split_ifs
      · rfl
      · cases s.splitOnP fun a => p (f a) <;> rfl

lemma splitOnP_congr {p q : α → Bool} {s : List α} (h : ∀ a ∈ s, p a = q a) :
    s.splitOnP p = s.splitOnP q := by
  induction s with
  | nil => rfl
  | cons a s ih =>
      rw [List.splitOnP_cons_eq_if_modifyHead, List.splitOnP_cons_eq_if_modifyHead, h a (by simp),
        ih fun b hb => h b (List.mem_cons_of_mem a hb)]

/-- Words after a map are the words before it, where the predicates agree. -/
theorem words_map {p : β → Bool} {q : α → Bool} {f : α → β} {s : List α}
    (h : ∀ a ∈ s, p (f a) = q a) : words p (s.map f) = (words q s).map (List.map f) := by
  have hsplit : s.splitOnP (fun a => !p (f a)) = s.splitOnP fun a => !q a :=
    splitOnP_congr fun a ha => by rw [h a ha]
  rw [words, words, splitOnP_map, hsplit, List.filter_map]
  congr 1
  refine List.filter_congr fun part _ => ?_
  cases part <;> simp

/-- Put together, the words are the elements that satisfy the predicate. -/
theorem flatten_words (p : α → Bool) (s : List α) : (words p s).flatten = s.filter p := by
  have hflat : ∀ parts : List (List α), (parts.filter fun part => part ≠ []).flatten = parts.flatten := by
    intro parts
    induction parts with
    | nil => rfl
    | cons part parts ih => cases part <;> simp_all
  rw [words, hflat]
  induction s with
  | nil => simp [List.splitOnP_nil]
  | cons a s ih =>
      rw [List.splitOnP_cons_eq_if_modifyHead]
      cases hp : p a with
      | false => simpa [hp] using ih
      | true =>
          obtain ⟨part, parts, hparts⟩ := List.exists_cons_of_ne_nil
            (List.splitOnP_ne_nil (fun a => !p a) s)
          rw [hparts] at ih ⊢
          simpa [hp] using ih

/-! ## Windows -/

/-- The contiguous parts of length `n`, in order. -/
def windows (n : ℕ) : List α → List (List α)
  | [] => []
  | a :: s => if (a :: s).length < n then [] else (a :: s).take n :: windows n s

theorem mem_windows {n : ℕ} (hn : 0 < n) {w s : List α} :
    w ∈ windows n s ↔ w.length = n ∧ w <:+: s := by
  induction s with
  | nil =>
      constructor
      · intro h
        cases h
      · rintro ⟨hlen, hw⟩
        rw [List.infix_nil.mp hw] at hlen
        exact absurd hlen hn.ne
  | cons a s ih =>
      rw [windows, List.infix_cons_iff]
      split_ifs with hshort
      · constructor
        · intro h
          cases h
        · rintro ⟨hlen, hw⟩
          have hle : w.length ≤ (a :: s).length := (List.infix_cons_iff.mpr hw).length_le
          omega
      · rw [List.mem_cons, ih]
        constructor
        · rintro (rfl | ⟨hlen, hw⟩)
          · exact ⟨List.length_take_of_le (not_lt.mp hshort), Or.inl (List.take_prefix _ _)⟩
          · exact ⟨hlen, Or.inr hw⟩
        · rintro ⟨hlen, hw | hw⟩
          · left
            rw [← hlen]
            exact List.prefix_iff_eq_take.mp hw
          · exact Or.inr ⟨hlen, hw⟩

end Text
