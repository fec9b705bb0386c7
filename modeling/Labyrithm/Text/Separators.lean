import Mathlib.Data.List.Infix
import Mathlib.Data.List.Basic
import Mathlib.Data.List.Find
import Mathlib.Tactic.Common

/-!
# Entries between separators

Entries of several kinds are written one after the other, each behind the separator of its kind, and the
separators are not escaped.  All of them begin with one mark that is nowhere else in them, so no separator
reaches into another or over the end of an entry: what is lost is only which of the separators were
written as such.

* `cut` — a text, cut wherever it has a separator.
* `cut_join` — cutting what was written gives the entries, each of them cut.
* **`join_eq_join_iff`** — entries are written alike if they come to the same pieces.
* `eq_iff_pieces_counts` — how many separators were in each entry is all that the pieces do not say.
* `pieces_of_clean` — entries without separators are their own pieces.
-/

namespace Text

/-- The separators of some kinds of entries. -/
structure Separators (α κ : Type) where
  mark : α
  tail : κ → List α
  kinds : List κ
  complete : ∀ k, k ∈ kinds
  unmarked : ∀ k, mark ∉ tail k
  free : ∀ k l, tail k <+: tail l → k = l

namespace Separators

variable {α κ : Type} (S : Separators α κ)

/-- The separator of a kind. -/
def separator (k : κ) : List α := S.mark :: S.tail k

/-- The entries, each behind its separator. -/
def join (entries : List (κ × List α)) : List α := entries.flatMap fun e => S.separator e.1 ++ e.2

@[simp] lemma join_nil : S.join [] = [] := rfl

@[simp] lemma join_cons (e : κ × List α) (entries : List (κ × List α)) :
    S.join (e :: entries) = S.separator e.1 ++ (e.2 ++ S.join entries) := List.append_assoc _ _ _

lemma join_append (entries entries' : List (κ × List α)) :
    S.join (entries ++ entries') = S.join entries ++ S.join entries' := List.flatMap_append

/-- What is written is empty or begins with the mark. -/
lemma join_eq_nil_or (entries : List (κ × List α)) :
    S.join entries = [] ∨ ∃ rest, S.join entries = S.mark :: rest := by
  cases entries with
  | nil => exact .inl rfl
  | cons e entries => exact .inr ⟨_, S.join_cons e entries⟩

variable [DecidableEq α]

/-- The kind of the separator that a text begins with. -/
def kindAt (s : List α) : Option κ := S.kinds.find? fun k => (S.separator k).isPrefixOf s

/-- A text up to its first separator, and the entries behind the separators. -/
def cut : List α → List α × List (κ × List α)
  | [] => ([], [])
  | a :: s =>
      match S.kindAt (a :: s) with
      | some k => ([], (k, (cut s).1.drop (S.tail k).length) :: (cut s).2)
      | none => (a :: (cut s).1, (cut s).2)

/-- The entries, with every separator in them read as one. -/
def pieces (entries : List (κ × List α)) : List (κ × List α) :=
  entries.flatMap fun e => (e.1, (S.cut e.2).1) :: (S.cut e.2).2

/-- How many separators each entry has in it. -/
def counts (entries : List (κ × List α)) : List ℕ := entries.map fun e => (S.cut e.2).2.length

/-- There is no separator in the text. -/
def Clean (s : List α) : Prop := ∀ k ∈ S.kinds, ¬ S.separator k <:+: s

instance (s : List α) : Decidable (S.Clean s) := inferInstanceAs (Decidable (∀ k ∈ S.kinds, ¬ _))

/-! ## One separator -/

section Kinds

variable {S} {a : α} {s : List α} {k : κ}

lemma kindAt_eq_none_of_ne (h : a ≠ S.mark) : S.kindAt (a :: s) = none := by
  refine List.find?_eq_none.mpr fun k _ => ?_
  simp [separator, h.symm]

/-- A text begins with one separator at most. -/
lemma kindAt_separator : S.kindAt (S.separator k ++ s) = some k := by
  cases hfind : S.kindAt (S.separator k ++ s) with
  | none =>
      have hnot := List.find?_eq_none.mp hfind k (S.complete k)
      simp at hnot
  | some l =>
      have hl : S.separator l <+: S.separator k ++ s := by simpa using List.find?_some hfind
      have htails : S.tail l <+: S.tail k ++ s ∧ S.tail k <+: S.tail k ++ s :=
        ⟨(List.cons_prefix_cons.mp hl).2, List.prefix_append _ _⟩
      obtain hlk | hkl := List.prefix_or_prefix_of_prefix htails.1 htails.2
      · rw [S.free l k hlk]
      · rw [S.free k l hkl]

lemma exists_of_kindAt (h : S.kindAt (a :: s) = some k) : a = S.mark ∧ ∃ rest, s = S.tail k ++ rest := by
  have hstart : S.separator k <+: a :: s := by simpa using List.find?_some h
  obtain ⟨hmark, rest, hrest⟩ := List.cons_prefix_cons.mp hstart
  exact ⟨hmark.symm, rest, hrest.symm⟩

attribute [local simp] cut in
/-- A text without a mark in front. -/
lemma cut_append_unmarked {u : List α} (h : S.mark ∉ u) :
    S.cut (u ++ s) = (u ++ (S.cut s).1, (S.cut s).2) := by
  induction u with
  | nil => rfl
  | cons a u ih =>
      rw [List.mem_cons, not_or] at h
      rw [List.cons_append, cut, kindAt_eq_none_of_ne (Ne.symm h.1), ih h.2, List.cons_append]

/-- A separator in front. -/
lemma cut_separator : S.cut (S.separator k ++ s) = ([], (k, (S.cut s).1) :: (S.cut s).2) := by
  have hkind : S.kindAt (S.mark :: (S.tail k ++ s)) = some k := kindAt_separator
  rw [separator, List.cons_append, cut, hkind, cut_append_unmarked (S.unmarked k)]
  simp

end Kinds

/-! ## Pieces -/

section Pieces

variable {S} {s : List α} {entries entries' : List (κ × List α)}

/-- Nothing is lost by cutting. -/
lemma join_cut (s : List α) : (S.cut s).1 ++ S.join (S.cut s).2 = s := by
  induction s with
  | nil => rfl
  | cons a s ih =>
      cases hkind : S.kindAt (a :: s) with
      | none => rw [cut, hkind, List.cons_append, ih]
      | some k =>
          obtain ⟨rfl, rest, rfl⟩ := exists_of_kindAt hkind
          rw [cut_append_unmarked (S.unmarked k), List.append_assoc, List.append_cancel_left_eq] at ih
          have hcut : S.cut (S.mark :: (S.tail k ++ rest)) = ([], (k, (S.cut rest).1) :: (S.cut rest).2) :=
            cut_separator
          rw [hcut, List.nil_append, join_cons, ih]
          rfl

/-- No separator reaches from a text into the entries behind it. -/
lemma kindAt_append_join (h : s ≠ []) : S.kindAt (s ++ S.join entries) = S.kindAt s := by
  refine List.find?_congr fun k _ => ?_
  rw [Bool.eq_iff_iff, List.isPrefixOf_iff_prefix, List.isPrefixOf_iff_prefix]
  refine ⟨fun hstart => ?_, fun hstart => hstart.trans (List.prefix_append _ _)⟩
  obtain hshort | ⟨u, hu⟩ := List.prefix_or_prefix_of_prefix hstart (List.prefix_append s _)
  · exact hshort
  · rw [← hu, List.prefix_append_right_inj] at hstart
    obtain ⟨a, s, rfl⟩ := List.exists_cons_of_ne_nil h
    obtain hnil | ⟨rest, hrest⟩ := S.join_eq_nil_or entries
    · rw [hnil, List.prefix_nil] at hstart
      rw [hstart, List.append_nil] at hu
      rw [hu]
    · cases u with
      | nil => rw [← hu, List.append_nil]
      | cons b u =>
          -- the mark would be inside the separator
          rw [hrest] at hstart
          obtain rfl := (List.cons_prefix_cons.mp hstart).1
          obtain ⟨-, htail⟩ := List.cons.inj hu
          exact absurd (htail ▸ List.mem_append_right s List.mem_cons_self) (S.unmarked k)

lemma cut_append_join (h : (S.cut (S.join entries)).1 = []) (s : List α) :
    S.cut (s ++ S.join entries) = ((S.cut s).1, (S.cut s).2 ++ (S.cut (S.join entries)).2) := by
  induction s with
  | nil => rw [List.nil_append, cut, List.nil_append, ← h]
  | cons a s ih =>
      have hkind : S.kindAt (a :: (s ++ S.join entries)) = S.kindAt (a :: s) :=
        kindAt_append_join (List.cons_ne_nil a s)
      rw [List.cons_append, cut, cut, hkind, ih]
      cases S.kindAt (a :: s) <;> rfl

/-- **Cutting what was written** gives the entries, each of them cut. -/
theorem cut_join (entries : List (κ × List α)) : S.cut (S.join entries) = ([], S.pieces entries) := by
  induction entries with
  | nil => rfl
  | cons e entries ih =>
      rw [join_cons, cut_separator, cut_append_join (by rw [ih]), ih]
      rfl

/-- The pieces are written like the entries. -/
lemma join_pieces (entries : List (κ × List α)) : S.join (S.pieces entries) = S.join entries := by
  have hcut := join_cut (S := S) (S.join entries)
  rwa [cut_join, List.nil_append] at hcut

/-- **Entries are written alike if they come to the same pieces.** -/
theorem join_eq_join_iff : S.join entries = S.join entries' ↔ S.pieces entries = S.pieces entries' := by
  constructor
  · intro h
    have hcut := congrArg S.cut h
    rw [cut_join, cut_join] at hcut
    exact congrArg Prod.snd hcut
  · intro h
    rw [← join_pieces entries, h, join_pieces]

lemma eq_of_pieces_counts (hpieces : S.pieces entries = S.pieces entries')
    (hcounts : S.counts entries = S.counts entries') : entries = entries' := by
  induction entries generalizing entries' with
  | nil =>
      rw [counts, counts, List.map_nil, eq_comm, List.map_eq_nil_iff] at hcounts
      exact hcounts.symm
  | cons e entries ih =>
      cases entries' with
      | nil => simp [counts] at hcounts
      | cons e' entries' =>
          rw [counts, counts, List.map_cons, List.map_cons, List.cons.injEq] at hcounts
          rw [pieces, pieces, List.flatMap_cons, List.flatMap_cons] at hpieces
          have hchunks := List.append_inj hpieces (by simp [hcounts.1])
          obtain ⟨hfirst, hrest⟩ := List.cons.inj hchunks.1
          obtain ⟨hkind, htext⟩ := Prod.mk.inj hfirst
          have hname : e.2 = e'.2 := by rw [← join_cut (S := S) e.2, htext, hrest, join_cut]
          rw [Prod.ext hkind hname, ih hchunks.2 hcounts.2]

/-- **Entries are told by their pieces and the separators in each of them.** -/
theorem eq_iff_pieces_counts :
    entries = entries' ↔ S.pieces entries = S.pieces entries' ∧ S.counts entries = S.counts entries' := by
  constructor
  · rintro rfl
    exact ⟨rfl, rfl⟩
  · rintro ⟨hpieces, hcounts⟩
    exact eq_of_pieces_counts hpieces hcounts

/-- A text without separators is left as it is. -/
lemma cut_of_clean (h : S.Clean s) : S.cut s = (s, []) := by
  induction s with
  | nil => rfl
  | cons a s ih =>
      have hkind : S.kindAt (a :: s) = none := by
        refine List.find?_eq_none.mpr fun k hk hstart => h k hk ?_
        rw [List.isPrefixOf_iff_prefix] at hstart
        exact hstart.isInfix
      rw [cut, hkind, ih fun k hk hpart => h k hk (hpart.trans (List.suffix_cons a s).isInfix)]

/-- Entries without separators are their own pieces. -/
theorem pieces_of_clean (h : ∀ e ∈ entries, S.Clean e.2) : S.pieces entries = entries := by
  induction entries with
  | nil => rfl
  | cons e entries ih =>
      rw [pieces, List.flatMap_cons, cut_of_clean (h e List.mem_cons_self)]
      exact congrArg (e :: ·) (ih fun x hx => h x (List.mem_cons_of_mem e hx))

end Pieces

end Separators

end Text
