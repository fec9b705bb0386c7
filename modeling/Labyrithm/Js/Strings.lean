import Mathlib.Data.List.DropRight
import Mathlib.Data.List.Infix
import Mathlib.Tactic.Common

/-!
# Strings of JavaScript

What is used of `String`, on lists of characters; a half of a surrogate pair without the other is none.

* `trim` — `trim_of_blankFree`: it leaves what has no blank at either end.
* `toLowerCase` — letters outside ASCII follow a table, which may look at what stands around them.
* `splitLines` — `split(/\r?\n/)`: `splitLines_ended`, `splitLines_last`.
-/

namespace Js

/-- A character of `\s`, which is one that `trim` removes. -/
def isSpace (ch : Char) : Bool :=
  let n := ch.toNat
  (9 ≤ n && n ≤ 13) || n = 0x20 || n = 0xa0 || n = 0x1680 || (0x2000 ≤ n && n ≤ 0x200a) ||
    n = 0x2028 || n = 0x2029 || n = 0x202f || n = 0x205f || n = 0x3000 || n = 0xfeff

/-- `trim`. -/
def trim (s : List Char) : List Char := (s.dropWhile isSpace).rdropWhile isSpace

/-- The lower case of the characters outside ASCII, by what stands before them (from the end) and after
them. -/
abbrev Casing := List Char → Char → List Char → List Char

/-- A table for texts of ASCII. -/
def asciiOnly : Casing := fun _ ch _ => [ch]

/-- `toLowerCase`, of what follows a text. -/
def lowerAfter (casing : Casing) : List Char → List Char → List Char
  | _, [] => []
  | before, ch :: s =>
      (if ch.toNat < 128 then [ch.toLower] else casing before ch s) ++ lowerAfter casing (ch :: before) s

/-- `toLowerCase`. -/
def toLowerCase (casing : Casing) (s : List Char) : List Char := lowerAfter casing [] s

/-- `includes`. -/
def includes (s t : List Char) : Bool := decide (t <:+: s)

/-- `split(/\r?\n/)`. -/
def splitLines : List Char → List (List Char)
  | [] => [[]]
  | '\r' :: '\n' :: s => [] :: splitLines s
  | '\n' :: s => [] :: splitLines s
  | ch :: s => (splitLines s).modifyHead (ch :: ·)

/-! ## Blanks -/

section Blanks

variable {s t : List Char}

/-- There is no blank at either end. -/
def BlankFree (s : List Char) : Prop :=
  (∀ ch ∈ s.head?, isSpace ch = false) ∧ ∀ ch ∈ s.getLast?, isSpace ch = false

instance (s : List Char) : Decidable (BlankFree s) :=
  @instDecidableAnd _ _ (Option.decidableForallMem _) (Option.decidableForallMem _)

lemma trim_of_blankFree (h : BlankFree s) : trim s = s := by
  obtain ⟨hfirst, hlast⟩ := h
  have hdrop : s.dropWhile isSpace = s := by
    cases s with
    | nil => rfl
    | cons ch s => rw [List.dropWhile_cons_of_neg (by simp [hfirst ch rfl])]
  rw [trim, hdrop, List.rdropWhile_eq_self_iff]
  intro hne
  simp [hlast (s.getLast hne) (List.getLast?_eq_some_getLast hne)]

end Blanks

/-! ## Letters -/

section Letters

variable {casing : Casing} {s t u : List Char}

lemma includes_iff : includes s t = true ↔ t <:+: s := by simp [includes]

lemma includes_trans (h : includes s t) (h' : includes t u) : includes s u := by
  rw [includes_iff] at h h' ⊢
  exact h'.trans h

/-- Text of ASCII does not depend on the table. -/
lemma lowerAfter_of_ascii (before : List Char) (h : ∀ ch ∈ s, ch.toNat < 128) :
    lowerAfter casing before s = s.map Char.toLower := by
  induction s generalizing before with
  | nil => rfl
  | cons ch s ih =>
      rw [lowerAfter, if_pos (h ch List.mem_cons_self),
        ih _ fun c hc => h c (List.mem_cons_of_mem ch hc)]
      rfl

lemma toLowerCase_of_ascii (h : ∀ ch ∈ s, ch.toNat < 128) :
    toLowerCase casing s = s.map Char.toLower := lowerAfter_of_ascii [] h

end Letters

/-! ## Lines -/

section Lines

variable {line s : List Char}

/-- There is no end of a line in it. -/
def OneLine (s : List Char) : Prop := '\n' ∉ s ∧ '\r' ∉ s

instance (s : List Char) : Decidable (OneLine s) := inferInstanceAs (Decidable (_ ∧ _))

/-- The two ends of a line. -/
inductive LineEnd
  | lf
  | crlf
  deriving DecidableEq, Repr

def LineEnd.text : LineEnd → List Char
  | .lf => ['\n']
  | .crlf => ['\r', '\n']

lemma splitLines_cons {ch : Char} (h : OneLine [ch]) (s : List Char) :
    splitLines (ch :: s) = (splitLines s).modifyHead (ch :: ·) := by
  have hlf : ch ≠ '\n' := fun heq => h.1 (heq ▸ List.mem_singleton_self _)
  have hcr : ch ≠ '\r' := fun heq => h.2 (heq ▸ List.mem_singleton_self _)
  rw [splitLines]
  · intro s' heq
    exact absurd heq hcr
  · exact hlf

lemma OneLine.of_cons {ch : Char} (h : OneLine (ch :: s)) : OneLine [ch] ∧ OneLine s := by
  obtain ⟨hlf, hcr⟩ := h
  rw [List.mem_cons, not_or] at hlf hcr
  exact ⟨⟨by simpa using hlf.1, by simpa using hcr.1⟩, hlf.2, hcr.2⟩

/-- A line with its end. -/
lemma splitLines_ended (h : OneLine line) (eol : LineEnd) (s : List Char) :
    splitLines (line ++ (eol.text ++ s)) = line :: splitLines s := by
  induction line with
  | nil => cases eol <;> rfl
  | cons ch line ih =>
      obtain ⟨hch, hline⟩ := h.of_cons
      rw [List.cons_append, splitLines_cons hch, ih hline]
      rfl

/-- The last line, without an end. -/
lemma splitLines_last (h : OneLine line) : splitLines line = [line] := by
  induction line with
  | nil => rfl
  | cons ch line ih =>
      obtain ⟨hch, hline⟩ := h.of_cons
      rw [splitLines_cons hch, ih hline]
      rfl

end Lines

end Js
