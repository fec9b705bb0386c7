import Mathlib.Algebra.Order.Ring.Nat
import Mathlib.Data.List.Forall2
import Mathlib.Data.Nat.Notation
import Mathlib.Tactic.Common

/-!
# Fields of fixed width

Numbers in decimal digits, filled up with zeros to a fixed width, each followed by a text of its own.
As long as the numbers are not too long for their fields, the lines sort like the numbers.

* `zeroPad_lt` — of two numbers that fit a field the smaller one comes first.
* **`render_lt`** — of two lines the one whose numbers come first.
-/

namespace Text

/-- The digits of a number, with zeros in front up to a width. -/
def zeroPad (width n : ℕ) : List Char :=
  let digits := Nat.toDigits 10 n
  List.replicate (width - digits.length) '0' ++ digits

/-- A line: the numbers, each in a field of its width and with the text that follows the field. -/
def render : List (ℕ × List Char) → List ℕ → List Char
  | field :: fields, n :: values => zeroPad field.1 n ++ (field.2 ++ render fields values)
  | _, _ => []

/-- The numbers are not too long for their fields. -/
def Fits (fields : List (ℕ × List Char)) (values : List ℕ) : Prop :=
  List.Forall₂ (fun field n => 1 ≤ field.1 ∧ n < 10 ^ field.1) fields values

/-! ## Lists -/

section Lists

variable {α : Type} [LT α] {l l' x y : List α}

lemma append_lt_append_of_lt (h : l < l') (hlen : l.length = l'.length) : l ++ x < l' ++ y := by
  induction l generalizing l' with
  | nil =>
      rw [List.length_nil, eq_comm, List.length_eq_zero_iff] at hlen
      rw [hlen] at h
      exact absurd h (List.not_lt_nil _)
  | cons a l ih =>
      cases l' with
      | nil => exact absurd h (List.not_lt_nil _)
      | cons b l' =>
          rw [List.cons_append, List.cons_append, List.cons_lt_cons_iff]
          rw [List.length_cons, List.length_cons, Nat.add_right_cancel_iff] at hlen
          obtain hab | ⟨hab, hrest⟩ := List.cons_lt_cons_iff.mp h
          · exact .inl hab
          · exact .inr ⟨hab, ih hrest hlen⟩

end Lists

/-! ## One field -/

section Field

variable {m n width : ℕ}

lemma length_zeroPad (hwidth : 1 ≤ width) (h : n < 10 ^ width) : (zeroPad width n).length = width := by
  have hle := (Nat.length_toDigits_le_iff (b := 10) (by decide) hwidth).mpr h
  rw [zeroPad, List.length_append, List.length_replicate]
  omega

/-- All digits but the last, and the last. -/
lemma zeroPad_succ (hwidth : 1 ≤ width) (n : ℕ) :
    zeroPad (width + 1) n = zeroPad width (n / 10) ++ [Nat.digitChar (n % 10)] := by
  obtain hlt | hle := lt_or_ge n 10
  · obtain ⟨w, rfl⟩ : ∃ w, width = w + 1 := ⟨width - 1, by omega⟩
    rw [zeroPad, zeroPad, Nat.toDigits_of_lt_base hlt, Nat.div_eq_of_lt hlt, Nat.toDigits_zero,
      Nat.mod_eq_of_lt hlt]
    dsimp only [List.length_singleton]
    rw [Nat.add_sub_cancel, Nat.add_sub_cancel, List.replicate_succ']
  · have hdigits : Nat.toDigits 10 n = Nat.toDigits 10 (n / 10) ++ [Nat.digitChar (n % 10)] :=
      Nat.toDigits_of_base_le (by decide) hle
    rw [zeroPad, zeroPad, hdigits, List.length_append, List.length_singleton, Nat.add_sub_add_right,
      List.append_assoc]

lemma digitChar_lt (h : m < n) (hn : n < 10) : Nat.digitChar m < Nat.digitChar n := by
  have hall : ∀ n < 10, ∀ m < n, Nat.digitChar m < Nat.digitChar n := by decide
  exact hall n hn m h

/-- **The smaller number comes first.** -/
theorem zeroPad_lt (hwidth : 1 ≤ width) (h : m < n) (hn : n < 10 ^ width) :
    zeroPad width m < zeroPad width n := by
  induction width, hwidth using Nat.le_induction generalizing m n with
  | base =>
      rw [pow_one] at hn
      rw [zeroPad, zeroPad, Nat.toDigits_of_lt_base (h.trans hn), Nat.toDigits_of_lt_base hn]
      exact List.cons_lt_cons_iff.mpr (.inl (digitChar_lt h hn))
  | succ width hwidth ih =>
      rw [pow_succ] at hn
      rw [zeroPad_succ hwidth, zeroPad_succ hwidth]
      obtain hlt | heq := lt_or_eq_of_le (Nat.div_le_div_right (c := 10) h.le)
      · have hlen : (zeroPad width (m / 10)).length = (zeroPad width (n / 10)).length := by
          rw [length_zeroPad hwidth (by omega), length_zeroPad hwidth (by omega)]
        exact append_lt_append_of_lt (ih hlt (by omega)) hlen
      · rw [heq]
        exact List.append_left_lt (List.cons_lt_cons_iff.mpr (.inl (digitChar_lt (by omega) (by omega))))

end Field

/-! ## Lines -/

/-- **Lines sort like their numbers.** -/
theorem render_lt {fields : List (ℕ × List Char)} {values values' : List ℕ} (h : Fits fields values)
    (h' : Fits fields values') (hlt : values < values') :
    render fields values < render fields values' := by
  induction h generalizing values' with
  | nil =>
      cases h'
      exact absurd hlt (List.not_lt_nil _)
  | @cons field n fields values hfits _ ih =>
      cases h' with
      | @cons _ n' _ values' hfits' hrest' =>
          obtain hn | ⟨rfl, hrest⟩ := List.cons_lt_cons_iff.mp hlt
          · have hlen : (zeroPad field.1 n).length = (zeroPad field.1 n').length := by
              rw [length_zeroPad hfits.1 hfits.2, length_zeroPad hfits'.1 hfits'.2]
            exact append_lt_append_of_lt (zeroPad_lt hfits.1 hn hfits'.2) hlen
          · exact List.append_left_lt (List.append_left_lt (ih hrest' hrest))

end Text
