import Labyrithm.Go.Strings
import Mathlib.Data.List.DropRight
import Mathlib.Data.Nat.Digits.Defs

/-!
# Texts that are trimmed, split and read as numbers

What `strings.TrimSpace`, `strings.Split` and `strconv.Atoi` do with texts that were written in parts: blanks
around a word, words with a separator between them, numbers in decimal.

* `trimSpace_idem`, `trimSpace_around` — trimming takes the blanks around a text that has none at its ends.
* `exists_blanks_after` — the blanks at the end of a text.
* `not_mem_of_mem_split` — no part has the separator in it.
* `atoi_decimal` — a number is read as it was written.
-/

namespace Go

variable {s t : List Char}

/-! ## Blanks -/

lemma trimSpace_idem (s : List Char) : trimSpace (trimSpace s) = trimSpace s := by
  have htrim : trimSpace s = (s.dropWhile isSpace).rdropWhile isSpace := rfl
  have hfront : (trimSpace s).dropWhile isSpace = trimSpace s := by
    rw [List.dropWhile_eq_self_iff]
    intro hpos hblank
    obtain ⟨u, hu⟩ : trimSpace s <+: s.dropWhile isSpace := List.rdropWhile_prefix isSpace _
    have hlen : 0 < (s.dropWhile isSpace).length := by
      rw [← hu, List.length_append]
      omega
    refine List.dropWhile_get_zero_not isSpace s hlen ?_
    have hget : (s.dropWhile isSpace).get ⟨0, hlen⟩ = (trimSpace s).get ⟨0, hpos⟩ := by
      simp only [← hu, List.get_eq_getElem]
      exact List.getElem_append_left hpos
    rw [hget]
    exact hblank
  have hagain : trimSpace (trimSpace s) = (trimSpace s).rdropWhile isSpace := by
    rw [trimSpace, hfront]
    rfl
  rw [hagain, htrim, List.rdropWhile_idempotent]

lemma trimSpace_subset (s : List Char) : trimSpace s ⊆ s := by
  intro ch hch
  rw [trimSpace, List.mem_reverse] at hch
  have hmem := List.dropWhile_subset _ hch
  rw [List.mem_reverse] at hmem
  exact List.dropWhile_subset _ hmem

/-- Blanks around a text that has none at its ends. -/
lemma trimSpace_around {u v : List Char} (hu : ∀ ch ∈ u, isSpace ch = true)
    (hv : ∀ ch ∈ v, isSpace ch = true) (hfirst : ∀ ch, s.head? = some ch → isSpace ch = false)
    (hlast : ∀ ch, s.getLast? = some ch → isSpace ch = false) : trimSpace (u ++ (s ++ v)) = s := by
  have hfront : (u ++ (s ++ v)).dropWhile isSpace = (s ++ v).dropWhile isSpace := by
    rw [List.dropWhile_append_of_pos hu]
  cases s with
  | nil =>
      have hnone : v.dropWhile isSpace = [] := List.dropWhile_eq_nil_iff.mpr hv
      rw [trimSpace, hfront, List.nil_append, hnone]
      rfl
  | cons ch s =>
      have hkept : (ch :: s ++ v).dropWhile isSpace = ch :: s ++ v := by
        rw [List.cons_append, List.dropWhile_cons_of_neg (by simp [hfirst ch rfl])]
      have hback : (v.reverse ++ (ch :: s).reverse).dropWhile isSpace = (ch :: s).reverse := by
        rw [List.dropWhile_append_of_pos fun c hc => hv c (List.mem_reverse.mp hc)]
        cases hrev : (ch :: s).reverse with
        | nil => rfl
        | cons c rest =>
            have hc : (ch :: s).getLast? = some c := by
              rw [← List.head?_reverse, hrev]
              rfl
            rw [List.dropWhile_cons_of_neg (by simp [hlast c hc])]
      rw [trimSpace, hfront, hkept, List.reverse_append, hback, List.reverse_reverse]

/-- A text is one that ends in no blank, and blanks. -/
lemma exists_blanks_after (s : List Char) : ∃ r b, s = r ++ b ∧ (∀ ch ∈ b, isSpace ch = true) ∧
    ∀ ch, r.getLast? = some ch → isSpace ch = false := by
  refine ⟨(s.reverse.dropWhile isSpace).reverse, (s.reverse.takeWhile isSpace).reverse, ?_, ?_, ?_⟩
  · rw [← List.reverse_append, List.takeWhile_append_dropWhile, List.reverse_reverse]
  · intro ch hch
    rw [List.mem_reverse] at hch
    exact List.mem_takeWhile_imp hch
  · intro ch hch
    rw [List.getLast?_reverse] at hch
    cases hrest : s.reverse.dropWhile isSpace with
    | nil =>
        rw [hrest] at hch
        cases hch
    | cons c rest =>
        rw [hrest] at hch
        obtain rfl : c = ch := Option.some.inj hch
        have hpos : 0 < (s.reverse.dropWhile isSpace).length := by simp [hrest]
        have hnot := List.dropWhile_get_zero_not isSpace s.reverse hpos
        simp only [List.get_eq_getElem, hrest, List.getElem_cons_zero] at hnot
        simpa using hnot

/-! ## Parts -/

/-- No part has the separator in it. -/
lemma not_mem_of_mem_split {sep : Char} {part : List Char} (h : part ∈ split s sep) : sep ∉ part := by
  induction s generalizing part with
  | nil =>
      obtain rfl : part = [] := by simpa [split] using h
      exact List.not_mem_nil
  | cons ch s ih =>
      rw [split, List.splitOn_cons_eq_if_modifyHead] at h
      by_cases heq : ch = sep
      · rw [if_pos (beq_iff_eq.mpr heq)] at h
        rcases List.mem_cons.mp h with rfl | h
        · exact List.not_mem_nil
        · exact ih h
      · rw [if_neg fun hbeq => heq (beq_iff_eq.mp hbeq)] at h
        cases hparts : s.splitOn sep with
        | nil => exact absurd hparts (List.splitOn_ne_nil sep s)
        | cons first parts =>
            have hall : ∀ p ∈ first :: parts, sep ∉ p := fun p hp => ih (by rw [split, hparts]; exact hp)
            rw [hparts, List.modifyHead_cons] at h
            rcases List.mem_cons.mp h with rfl | h
            · rw [List.mem_cons, not_or]
              exact ⟨Ne.symm heq, hall first List.mem_cons_self⟩
            · exact hall part (List.mem_cons_of_mem first h)

/-! ## Numbers -/

/-- A number in decimal. -/
def decimal (n : ℕ) : List Char := Nat.toDigits 10 n

lemma isDigit_digitChar {d : ℕ} (hd : d < 10) : (Nat.digitChar d).isDigit = true := by
  have hall : ∀ d < 10, (Nat.digitChar d).isDigit = true := by decide
  exact hall d hd

lemma toNat_digitChar {d : ℕ} (hd : d < 10) : (Nat.digitChar d).toNat - 48 = d := by
  have hall : ∀ d < 10, (Nat.digitChar d).toNat - 48 = d := by decide
  exact hall d hd

lemma digits_append (s t : List Char) (m : ℕ) : digits (s ++ t) m = (digits s m).bind (digits t) := by
  induction s generalizing m with
  | nil => rfl
  | cons ch s ih =>
      rw [List.cons_append, digits, digits]
      split_ifs
      · exact ih _
      · rfl

lemma digits_decimal (n : ℕ) : digits (decimal n) 0 = some n := by
  induction n using Nat.strong_induction_on with
  | h n ih =>
      have hmod : n % 10 < 10 := Nat.mod_lt n (by decide)
      rcases Nat.lt_or_ge n 10 with hlt | hge
      · rw [decimal, Nat.toDigits_of_lt_base hlt, digits, if_pos (isDigit_digitChar hlt),
          toNat_digitChar hlt, digits, Nat.mul_zero, Nat.zero_add]
      · rw [decimal, Nat.toDigits_of_base_le (by decide) hge, digits_append]
        have hdiv := ih (n / 10) (Nat.div_lt_self (by omega) (by decide))
        rw [decimal] at hdiv
        rw [hdiv, Option.bind_some, digits, if_pos (isDigit_digitChar hmod), toNat_digitChar hmod, digits,
          Nat.div_add_mod]

lemma decimal_ne_nil (n : ℕ) : decimal n ≠ [] := by
  rcases Nat.lt_or_ge n 10 with hlt | hge
  · rw [decimal, Nat.toDigits_of_lt_base hlt]
    exact List.cons_ne_nil _ _
  · rw [decimal, Nat.toDigits_of_base_le (by decide) hge]
    simp

/-- The characters of a number are digits. -/
lemma isDigit_of_mem_decimal {n : ℕ} {ch : Char} (h : ch ∈ decimal n) : ch.isDigit = true := by
  induction n using Nat.strong_induction_on with
  | h n ih =>
      rcases Nat.lt_or_ge n 10 with hlt | hge
      · rw [decimal, Nat.toDigits_of_lt_base hlt, List.mem_singleton] at h
        rw [h]
        exact isDigit_digitChar hlt
      · rw [decimal, Nat.toDigits_of_base_le (by decide) hge, List.mem_append, List.mem_singleton] at h
        rcases h with h | rfl
        · exact ih (n / 10) (Nat.div_lt_self (by omega) (by decide)) h
        · exact isDigit_digitChar (Nat.mod_lt n (by decide))

/-- **A number is read as it was written.** -/
theorem atoi_decimal {n : ℕ} (h : n < 2 ^ 63) : atoi (decimal n) = some n := by
  cases hn : decimal n with
  | nil => exact absurd hn (decimal_ne_nil n)
  | cons ch rest =>
      have hdigit : ch.isDigit = true := isDigit_of_mem_decimal (by rw [hn]; exact List.mem_cons_self)
      have hminus : ch ≠ '-' := by
        rintro rfl
        exact absurd hdigit (by decide)
      have hplus : ch ≠ '+' := by
        rintro rfl
        exact absurd hdigit (by decide)
      have hdigits := digits_decimal n
      rw [hn] at hdigits
      unfold atoi
      split
      next negative s hs =>
        split at hs
        · next heq => exact absurd (List.cons.inj heq).1 hminus
        · next heq => exact absurd (List.cons.inj heq).1 hplus
        · obtain ⟨rfl, rfl⟩ := Prod.mk.inj hs
          rw [if_neg (List.cons_ne_nil _ _), hdigits, Option.bind_some]
          simpa using h

end Go
