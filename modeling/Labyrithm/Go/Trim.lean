import Labyrithm.Go.Strings
import Mathlib.Data.List.Infix

/-!
# What `TrimSpace` removes

`TrimSpace` removes encodings of spaces from the front of a string, one after the other, and then from its
end.  The encodings are a code from either side: none is the beginning or the end of another, and what
follows the first byte of one is never the first byte of another.

* `dropPrefixes_code` — words of a code in front of what begins with none of them are dropped.
* `trimSpaceBytes_spec` — what is left has spaces before it and after it, and none at its ends.
* **`trimSpaceBytes_eq`** — and it is the only such part of the string.
-/

namespace Go

/-! ## Codes -/

/-- The words come one after the other. -/
def Made (words : List (List UInt8)) (s : List UInt8) : Prop :=
  ∃ ws : List (List UInt8), (∀ w ∈ ws, w ∈ words) ∧ s = ws.flatten

namespace Made

variable {words : List (List UInt8)} {s t w : List UInt8}

lemma nil : Made words [] := ⟨[], by simp, rfl⟩

lemma cons (hw : w ∈ words) (hs : Made words s) : Made words (w ++ s) := by
  obtain ⟨ws, hws, rfl⟩ := hs
  exact ⟨w :: ws, by simpa using ⟨hw, hws⟩, rfl⟩

lemma append (hs : Made words s) (ht : Made words t) : Made words (s ++ t) := by
  obtain ⟨ws, hws, rfl⟩ := hs
  obtain ⟨vs, hvs, rfl⟩ := ht
  refine ⟨ws ++ vs, ?_, List.flatten_append.symm⟩
  intro w hw
  exact (List.mem_append.mp hw).elim (hws w) (hvs w)

lemma reverse (hs : Made words s) : Made (words.map List.reverse) s.reverse := by
  obtain ⟨ws, hws, rfl⟩ := hs
  refine ⟨(ws.map List.reverse).reverse, ?_, ?_⟩
  · intro w hw
    simp only [List.mem_reverse, List.mem_map] at hw ⊢
    obtain ⟨v, hv, rfl⟩ := hw
    exact ⟨v, hws v hv, rfl⟩
  · rw [List.reverse_flatten]

end Made

/-- No word is empty or the beginning of another. -/
def Code (words : List (List UInt8)) : Prop :=
  (∀ w ∈ words, w ≠ []) ∧ ∀ w ∈ words, ∀ w' ∈ words, w <+: w' → w = w'

instance (words : List (List UInt8)) : Decidable (Code words) :=
  inferInstanceAs (Decidable (_ ∧ _))

/-- It begins with none of the words. -/
def StartsWithNone (words : List (List UInt8)) (s : List UInt8) : Prop := ∀ w ∈ words, ¬ w <+: s

variable {words : List (List UInt8)} {s r : List UInt8}

lemma dropPrefixes_of_startsWithNone (n : ℕ) (h : StartsWithNone words r) :
    dropPrefixes words n r = r := by
  cases n with
  | zero => rfl
  | succ n =>
      have hnone : words.find? (·.isPrefixOf r) = none := by
        refine List.find?_eq_none.mpr ?_
        intro w hw
        simpa using h w hw
      rw [dropPrefixes, hnone]

/-- Words of a code in front of what begins with none of them are dropped. -/
lemma dropPrefixes_code {A : List UInt8} (hcode : Code words) (hA : Made words A)
    (h : StartsWithNone words r) {n : ℕ} (hn : A.length ≤ n) : dropPrefixes words n (A ++ r) = r := by
  obtain ⟨ws, hws, rfl⟩ := hA
  induction ws generalizing n with
  | nil => exact dropPrefixes_of_startsWithNone n h
  | cons w ws ih =>
      have hw : w ∈ words := hws w (by simp)
      have hpos : 0 < w.length := List.length_pos_iff.mpr (hcode.1 w hw)
      rw [List.flatten_cons, List.length_append] at hn
      obtain ⟨m, rfl⟩ : ∃ m, n = m + 1 := ⟨n - 1, by omega⟩
      have hprefix : w <+: (w :: ws).flatten ++ r := by simp
      have hfound : words.find? (·.isPrefixOf ((w :: ws).flatten ++ r)) = some w := by
        cases hfind : words.find? (·.isPrefixOf ((w :: ws).flatten ++ r)) with
        | none => simpa using List.find?_eq_none.mp hfind w hw
        | some v =>
            have hv : v <+: (w :: ws).flatten ++ r := by simpa using List.find?_some hfind
            have hmem := List.mem_of_find?_eq_some hfind
            rcases List.prefix_or_prefix_of_prefix hv hprefix with hvw | hwv
            · rw [hcode.2 v hmem w hw hvw]
            · rw [hcode.2 w hw v hmem hwv]
      have hrest : ((w :: ws).flatten ++ r).drop w.length = ws.flatten ++ r := by simp
      rw [dropPrefixes, hfound]
      show dropPrefixes words m (((w :: ws).flatten ++ r).drop w.length) = r
      rw [hrest]
      exact ih (fun v hv => hws v (List.mem_cons_of_mem w hv)) (by omega)

/-- In enough rounds all words in front are dropped. -/
lemma dropPrefixes_spec (hcode : Code words) {n : ℕ} (hn : s.length ≤ n) :
    (∃ A, Made words A ∧ s = A ++ dropPrefixes words n s) ∧
      StartsWithNone words (dropPrefixes words n s) := by
  induction n generalizing s with
  | zero =>
      obtain rfl : s = [] := List.length_eq_zero_iff.mp (Nat.le_zero.mp hn)
      refine ⟨⟨[], Made.nil, rfl⟩, ?_⟩
      intro w hw hprefix
      exact hcode.1 w hw (List.prefix_nil.mp hprefix)
  | succ n ih =>
      rw [dropPrefixes]
      cases hfind : words.find? (·.isPrefixOf s) with
      | none =>
          refine ⟨⟨[], Made.nil, rfl⟩, ?_⟩
          intro w hw
          simpa using List.find?_eq_none.mp hfind w hw
      | some w =>
          have hw := List.mem_of_find?_eq_some hfind
          have hprefix : w <+: s := by simpa using List.find?_some hfind
          obtain ⟨rest, rfl⟩ := hprefix
          have hpos : 0 < w.length := List.length_pos_iff.mpr (hcode.1 w hw)
          simp only [List.drop_left]
          obtain ⟨⟨A, hA, hsplit⟩, hnone⟩ := ih (s := rest) (by simp at hn; omega)
          refine ⟨⟨w ++ A, hA.cons hw, ?_⟩, hnone⟩
          rw [List.append_assoc, ← hsplit]

/-! ## Spaces -/

lemma code_spaces : Code spaces := by decide

lemma code_reverse_spaces : Code (spaces.map List.reverse) := by decide

/-- It neither begins nor ends with a space. -/
structure Trimmed (t : List UInt8) : Prop where
  front : ∀ w ∈ spaces, ¬ w <+: t
  back : ∀ w ∈ spaces, ¬ w <:+ t

lemma Trimmed.nil : Trimmed [] where
  front w hw h := code_spaces.1 w hw (List.prefix_nil.mp h)
  back w hw h := code_spaces.1 w hw (List.suffix_nil.mp h)

/-- No byte of a space after the first begins one. -/
lemma not_space_inside : ∀ w ∈ spaces, ∀ b ∈ w.tail, ∀ v ∈ spaces, v.head? ≠ some b := by
  have hall : spaces.all fun w => w.tail.all fun b => spaces.all fun v => v.head? ≠ some b := by
    decide +kernel
  simpa only [List.all_eq_true, decide_eq_true_eq] using hall

/-- What begins with no space does so with spaces after it, unless there is nothing else. -/
lemma startsWithNone_append {t B : List UInt8} (ht : t ≠ []) (hfront : ∀ w ∈ spaces, ¬ w <+: t)
    (hB : Made spaces B) : StartsWithNone spaces (t ++ B) := by
  intro w hw hprefix
  obtain ⟨ws, hws, rfl⟩ := hB
  rcases List.prefix_or_prefix_of_prefix hprefix (List.prefix_append t ws.flatten) with h | ⟨x, rfl⟩
  · exact hfront w hw h
  · -- the rest of the word would be the beginning of the spaces
    have hx : x <+: ws.flatten := (List.prefix_append_right_inj t).mp hprefix
    cases x with
    | nil =>
        rw [List.append_nil] at hw
        exact hfront t hw List.prefix_rfl
    | cons b x =>
        cases ws with
        | nil => simp at hx
        | cons v ws =>
            have hv : v ∈ spaces := hws v (by simp)
            obtain ⟨b', v', rfl⟩ := List.exists_cons_of_ne_nil (code_spaces.1 v hv)
            obtain ⟨c, t', rfl⟩ := List.exists_cons_of_ne_nil ht
            have hb : b = b' := by simpa using (List.cons_prefix_cons.mp hx).1
            exact not_space_inside _ hw b (by simp) _ hv (by simp [hb])

/-- The reversed spaces, seen from the end. -/
lemma startsWithNone_reverse {t : List UInt8} :
    StartsWithNone (spaces.map List.reverse) t.reverse ↔ ∀ w ∈ spaces, ¬ w <:+ t := by
  constructor
  · intro h w hw hsuffix
    exact h w.reverse (List.mem_map_of_mem hw) (List.reverse_prefix.mpr hsuffix)
  · intro h v hv hprefix
    obtain ⟨w, hw, rfl⟩ := List.mem_map.mp hv
    exact h w hw (List.reverse_prefix.mp hprefix)

/-- **The part between the spaces is what is left.** -/
theorem trimSpaceBytes_eq {A t B : List UInt8} (hA : Made spaces A) (ht : Trimmed t)
    (hB : Made spaces B) : trimSpaceBytes (A ++ t ++ B) = t := by
  have hback : StartsWithNone (spaces.map List.reverse) t.reverse := startsWithNone_reverse.mpr ht.back
  by_cases hempty : t = []
  · subst hempty
    have hfirst : dropPrefixes spaces (A ++ [] ++ B).length (A ++ [] ++ B) = [] := by
      have hall := dropPrefixes_code (n := (A ++ [] ++ B).length) code_spaces (hA.append hB)
        (r := []) Trimmed.nil.front (by simp)
      simpa using hall
    simp only [trimSpaceBytes, hfirst]
    rfl
  · have hfirst : dropPrefixes spaces (A ++ t ++ B).length (A ++ t ++ B) = t ++ B := by
      rw [List.append_assoc]
      exact dropPrefixes_code code_spaces hA (startsWithNone_append hempty ht.front hB) (by simp)
    simp only [trimSpaceBytes, hfirst, List.reverse_append]
    rw [dropPrefixes_code code_reverse_spaces hB.reverse hback (by simp), List.reverse_reverse]

/-- What is left has spaces before it and after it, and none at its ends. -/
theorem trimSpaceBytes_spec (s : List UInt8) :
    ∃ A B, Made spaces A ∧ Made spaces B ∧ s = A ++ trimSpaceBytes s ++ B ∧
      Trimmed (trimSpaceBytes s) := by
  obtain ⟨⟨A, hA, hs⟩, hfront⟩ := dropPrefixes_spec code_spaces (le_refl s.length)
  obtain ⟨⟨B, hB, hr⟩, hback⟩ := dropPrefixes_spec code_reverse_spaces
    (le_refl (dropPrefixes spaces s.length s).reverse.length)
  rw [List.length_reverse] at hr hback
  have hsplit : dropPrefixes spaces s.length s = trimSpaceBytes s ++ B.reverse := by
    rw [trimSpaceBytes, ← List.reverse_append, ← hr, List.reverse_reverse]
  refine ⟨A, B.reverse, hA, ?_, ?_, ?_, ?_⟩
  · have hmade := hB.reverse
    rwa [List.map_map, List.reverse_involutive.comp_self, List.map_id] at hmade
  · rw [List.append_assoc, ← hsplit, ← hs]
  · intro w hw hprefix
    refine hfront w hw ?_
    rw [hsplit]
    exact hprefix.trans (List.prefix_append _ _)
  · refine startsWithNone_reverse.mp ?_
    rw [trimSpaceBytes, List.reverse_reverse]
    exact hback

end Go
