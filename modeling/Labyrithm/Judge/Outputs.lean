import Labyrithm.Go.Trim
import Mathlib.Data.List.DropRight

/-!
# Comparing outputs

`outputsEqual` of `backend/internal/judge/judge.go`, lines 10–46, which walks two outputs line by line,
and the reference that its tests compare it with: `normalizeOutput` of `judge_test.go`, which rewrites the
line ends, trims the whole and every line, and puts the lines together again.

* `unix` — what the two `ReplaceAll` of the reference come to.
* `sameLines_iff` — on trimmed texts the walk compares the lists of lines.
* `normalizeOutput_eq` — the reference is made of the lines of the trimmed text.
* **`outputsEqual_iff`** — the walk and the reference agree on all bytes, and `outputsEqual` is an
  equivalence.
-/

namespace Labyrithm

namespace Outputs

open Go (trimSpaceBytes spaces Made Trimmed)

/-! ## The walk -/

/-- A carriage return or a line feed. -/
def isEol (b : UInt8) : Bool := b = 13 || b = 10

/-- A space or a tab. -/
def isBlank (b : UInt8) : Bool := b = 32 || b = 9

/-- The text after its first line and the end of that, of one byte or two. -/
def afterLine (text : List UInt8) : List UInt8 :=
  match text.dropWhile fun b => !isEol b with
  | [] => []
  | b :: next => if b = 13 ∧ next.head? = some 10 then next.tail else next

/-- `outputLine`. -/
def outputLine (text : List UInt8) : List UInt8 × List UInt8 :=
  ((text.takeWhile fun b => !isEol b).rdropWhile isBlank, afterLine text)

/-- A line that ends does so with a byte of the text. -/
lemma afterLine_split {text : List UInt8} (h : text.dropWhile (fun b => !isEol b) ≠ []) :
    ∃ front e, isEol e = true ∧ text = front ++ e :: afterLine text := by
  have hsplit := List.takeWhile_append_dropWhile (p := fun b => !isEol b) (l := text)
  have heol := List.head_dropWhile_not (fun b => !isEol b) h
  cases hdrop : text.dropWhile fun b => !isEol b with
  | nil => exact absurd hdrop h
  | cons b next =>
      simp only [hdrop, List.head_cons, Bool.not_eq_false'] at heol
      have hafter : afterLine text = if b = 13 ∧ next.head? = some 10 then next.tail else next := by
        rw [afterLine, hdrop]
      rw [hdrop] at hsplit
      rw [hafter]
      split_ifs with hcrlf
      · cases next with
        | nil => simp at hcrlf
        | cons c next =>
            refine ⟨(text.takeWhile fun b => !isEol b) ++ [b], c, ?_, ?_⟩
            · simp only [List.head?_cons, Option.some.injEq] at hcrlf
              rw [hcrlf.2]
              rfl
            · simpa using hsplit.symm
      · exact ⟨_, b, heol, hsplit.symm⟩

lemma afterLine_of_dropWhile_eq_nil {text : List UInt8}
    (h : text.dropWhile (fun b => !isEol b) = []) : afterLine text = [] := by
  rw [afterLine, h]

lemma afterLine_suffix (text : List UInt8) : afterLine text <:+ text := by
  by_cases hdrop : text.dropWhile (fun b => !isEol b) = []
  · rw [afterLine_of_dropWhile_eq_nil hdrop]
    exact List.nil_suffix
  · obtain ⟨front, e, -, htext⟩ := afterLine_split hdrop
    exact ⟨front ++ [e], by simpa using htext.symm⟩

lemma length_afterLine_lt {text : List UInt8} (h : text ≠ []) :
    (afterLine text).length < text.length := by
  by_cases hdrop : text.dropWhile (fun b => !isEol b) = []
  · rw [afterLine_of_dropWhile_eq_nil hdrop]
    exact List.length_pos_iff.mpr h
  · obtain ⟨front, e, -, htext⟩ := afterLine_split hdrop
    have hlen := congrArg List.length htext
    rw [List.length_append, List.length_cons] at hlen
    omega

/-- The loop of `outputsEqual`. -/
def sameLines (actual expected : List UInt8) : Bool :=
  if actual = [] ∧ expected = [] then true
  else if (outputLine actual).1 ≠ (outputLine expected).1 then false
  else sameLines (outputLine actual).2 (outputLine expected).2
termination_by actual.length + expected.length
decreasing_by
  rename_i h _
  have ha := (afterLine_suffix actual).length_le
  have he := (afterLine_suffix expected).length_le
  show (afterLine actual).length + (afterLine expected).length < actual.length + expected.length
  by_cases hactual : actual = []
  · have hlt := length_afterLine_lt fun hexpected => h ⟨hactual, hexpected⟩
    omega
  · have hlt := length_afterLine_lt hactual
    omega

/-- `outputsEqual`. -/
def outputsEqual (actual expected : List UInt8) : Bool :=
  sameLines (trimSpaceBytes actual) (trimSpaceBytes expected)

/-! ## The reference -/

/-- `strings.ReplaceAll` of a string that is not empty, after some bytes of one that has been replaced. -/
def replaceAll (old new : List UInt8) : ℕ → List UInt8 → List UInt8
  | _, [] => []
  | skip + 1, _ :: s => replaceAll old new skip s
  | 0, b :: s =>
      if old <+: b :: s then new ++ replaceAll old new (old.length - 1) s
      else b :: replaceAll old new 0 s

/-- `normalizeOutput`. -/
def normalizeOutput (str : List UInt8) : List UInt8 :=
  let str := replaceAll [13, 10] [10] 0 str
  let str := replaceAll [13] [10] 0 str
  let lines := (trimSpaceBytes str).splitOn 10
  trimSpaceBytes ([10].intercalate (lines.map (List.rdropWhile isBlank)))

example : normalizeOutput [32, 97, 32, 9, 13, 13, 98, 9] = [97, 10, 10, 98] := by decide

/-! ## Line ends -/

/-- The text with line feeds at the ends of its lines. -/
def unix : List UInt8 → List UInt8
  | [] => []
  | b :: s =>
      if b = 13 ∧ s.head? = some 10 then unix s
      else if b = 13 then 10 :: unix s
      else b :: unix s

lemma replaceAll_cr (s : List UInt8) :
    replaceAll [13] [10] 0 s = s.map fun b => if b = 13 then 10 else b := by
  induction s with
  | nil => rfl
  | cons b s ih => by_cases hb : b = 13 <;> simp [replaceAll, hb, ih, eq_comm]

lemma replaceAll_crlf_cons {b : UInt8} {s : List UInt8} (h : ¬ (b = 13 ∧ s.head? = some 10)) :
    replaceAll [13, 10] [10] 0 (b :: s) = b :: replaceAll [13, 10] [10] 0 s := by
  have hnot : ¬ [13, 10] <+: b :: s := by
    intro hprefix
    cases s with
    | nil => simp at hprefix
    | cons c s => exact h (by simpa [eq_comm] using hprefix)
  rw [replaceAll, if_neg hnot]

/-- The two `ReplaceAll` of the reference. -/
lemma replaceAll_eq (s : List UInt8) :
    replaceAll [13] [10] 0 (replaceAll [13, 10] [10] 0 s) = unix s := by
  rw [replaceAll_cr]
  induction s with
  | nil => rfl
  | cons b s ih =>
      rw [unix, ← ih]
      by_cases hcrlf : b = 13 ∧ s.head? = some 10
      · -- both line ends have become the feed
        rw [if_pos hcrlf]
        obtain ⟨rfl, hs⟩ := hcrlf
        cases s with
        | nil => cases hs
        | cons c s =>
            obtain rfl : c = 10 := by simpa using hs
            have hcr : replaceAll [13, 10] [10] 0 (13 :: 10 :: s) =
                10 :: replaceAll [13, 10] [10] 0 s := by simp [replaceAll]
            have hlf : replaceAll [13, 10] [10] 0 (10 :: s) = 10 :: replaceAll [13, 10] [10] 0 s :=
              replaceAll_crlf_cons (by simp)
            rw [hcr, hlf]
      · rw [if_neg hcrlf, replaceAll_crlf_cons hcrlf]
        by_cases hb : b = 13 <;> simp [hb]

lemma unix_cons_of_ne {b : UInt8} (hb : b ≠ 13) (s : List UInt8) : unix (b :: s) = b :: unix s := by
  simp [unix, hb]

lemma unix_append_of_not_mem {w : List UInt8} (hw : 13 ∉ w) (s : List UInt8) :
    unix (w ++ s) = w ++ unix s := by
  induction w with
  | nil => rfl
  | cons b w ih =>
      have hb : b ≠ 13 := fun h => hw (by simp [h])
      rw [List.cons_append, unix_cons_of_ne hb, ih fun h => hw (by simp [h])]
      rfl

/-- Line ends are rewritten on either side of a point that is not inside one. -/
lemma unix_append {s t : List UInt8} (h : ¬ (s.getLast? = some 13 ∧ t.head? = some 10)) :
    unix (s ++ t) = unix s ++ unix t := by
  induction s with
  | nil => rfl
  | cons b s ih =>
      cases s with
      | nil =>
          by_cases hb : b = 13
          · subst hb
            have hhead : t.head? ≠ some 10 := by simpa using h
            simp [unix, hhead]
          · simp [unix, hb]
      | cons c s =>
          have hstep : ∀ r, unix (b :: c :: r) =
              if b = 13 ∧ c = 10 then unix (c :: r)
              else if b = 13 then 10 :: unix (c :: r) else b :: unix (c :: r) := by
            intro r
            rw [unix]
            simp
          have hrest := ih (by simpa using h)
          rw [List.cons_append] at hrest
          rw [List.cons_append, List.cons_append, hstep, hstep, hrest]
          split_ifs <;> rfl

/-- Spaces stay spaces. -/
lemma made_unix {s : List UInt8} (h : Made spaces s) : Made spaces (unix s) := by
  have hcr : ∀ w ∈ spaces, w = [13] ∨ 13 ∉ w := by decide
  obtain ⟨ws, hws, rfl⟩ := h
  induction ws with
  | nil => exact Made.nil
  | cons w ws ih =>
      have hrest := ih fun v hv => hws v (List.mem_cons_of_mem w hv)
      rw [List.flatten_cons]
      rcases hcr w (hws w (by simp)) with rfl | hnot
      · show Made spaces (unix (13 :: ws.flatten))
        rw [unix]
        split_ifs
        · exact hrest
        · exact hrest.cons (w := [10]) (by decide)
        · contradiction
      · rw [unix_append_of_not_mem hnot]
        exact hrest.cons (hws w (by simp))

/-! ## Lines -/

/-- The lines of a text, whatever ends them. -/
def linesOf (text : List UInt8) : List (List UInt8) := (unix text).splitOn 10

/-- The end of a line is one feed, whatever it was. -/
lemma unix_eol {b : UInt8} (hb : isEol b = true) (next : List UInt8) :
    unix (b :: next) = 10 :: unix (if b = 13 ∧ next.head? = some 10 then next.tail else next) := by
  have hb : b = 13 ∨ b = 10 := by simpa [isEol] using hb
  rw [unix]
  split_ifs with hcrlf hcr
  · cases next with
    | nil => simp at hcrlf
    | cons c next =>
        obtain rfl : c = 10 := by simpa using hcrlf.2
        exact unix_cons_of_ne (by decide) next
  · rfl
  · rw [hb.resolve_left hcr]

/-- The first line, and those of the text after it. -/
lemma linesOf_eq (text : List UInt8) :
    linesOf text = (text.takeWhile fun b => !isEol b) ::
      if text.dropWhile (fun b => !isEol b) = [] then [] else linesOf (afterLine text) := by
  have hline : ∀ b ∈ text.takeWhile fun b => !isEol b, isEol b = false := by
    intro b hb
    simpa using List.mem_takeWhile_imp hb
  have hcr : 13 ∉ text.takeWhile fun b => !isEol b := fun h => absurd (hline 13 h) (by decide)
  have hlf : 10 ∉ text.takeWhile fun b => !isEol b := fun h => absurd (hline 10 h) (by decide)
  have hsplit : linesOf text =
      ((text.takeWhile fun b => !isEol b) ++ unix (text.dropWhile fun b => !isEol b)).splitOn 10 := by
    rw [← unix_append_of_not_mem hcr, List.takeWhile_append_dropWhile, linesOf]
  rw [hsplit]
  cases hrest : text.dropWhile fun b => !isEol b with
  | nil => simp [unix, List.splitOn_eq_singleton hlf]
  | cons b next =>
      have hb : isEol b = true := by
        have hhead := List.head_dropWhile_not (fun b => !isEol b) (l := text) (by simp [hrest])
        simpa [hrest] using hhead
      have hafter : afterLine text = if b = 13 ∧ next.head? = some 10 then next.tail else next := by
        rw [afterLine, hrest]
      rw [unix_eol hb, List.splitOn_append_cons_self_of_not_mem hlf, if_neg (List.cons_ne_nil b next),
        hafter, linesOf]

/-- The lines without their trailing blanks. -/
def clean (text : List UInt8) : List (List UInt8) := (linesOf text).map (List.rdropWhile isBlank)

/-- The text does not end with the end of a line, or a blank. -/
def Ended (text : List UInt8) : Prop := ∀ b ∈ text.getLast?, isEol b = false ∧ isBlank b = false

namespace Ended

variable {text : List UInt8}

lemma suffix {rest : List UInt8} (h : Ended text) (hrest : rest <:+ text) : Ended rest := by
  obtain ⟨front, rfl⟩ := hrest
  intro b hb
  refine h b ?_
  cases rest with
  | nil => cases hb
  | cons c rest => simpa using hb

/-- A line that ends is not the last. -/
lemma afterLine_ne_nil (h : Ended text) (hrest : text.dropWhile (fun b => !isEol b) ≠ []) :
    afterLine text ≠ [] := by
  intro hnil
  obtain ⟨front, e, heol, htext⟩ := afterLine_split hrest
  have hlast := (h e (by rw [htext, hnil]; simp)).1
  rw [heol] at hlast
  cases hlast

/-- Not all is blank. -/
lemma clean_ne (h : Ended text) (hne : text ≠ []) : clean text ≠ [[]] := by
  intro hclean
  rw [clean, linesOf_eq, List.map_cons, List.cons.injEq, List.map_eq_nil_iff] at hclean
  obtain ⟨hline, hrest⟩ := hclean
  split_ifs at hrest with hdrop
  · have hall : (text.takeWhile fun b => !isEol b) = text := by
      have hsplit := List.takeWhile_append_dropWhile (p := fun b => !isEol b) (l := text)
      rwa [hdrop, List.append_nil] at hsplit
    rw [hall, List.rdropWhile_eq_nil_iff] at hline
    have hlast := h (text.getLast hne) (by simp [List.getLast?_eq_some_getLast hne])
    rw [hline _ (List.getLast_mem hne)] at hlast
    cases hlast.2
  · exact List.splitOn_ne_nil _ _ hrest

/-- The first line, and those of what `outputLine` leaves. -/
lemma clean_eq (h : Ended text) :
    clean text = (outputLine text).1 :: if afterLine text = [] then [] else clean (afterLine text) := by
  rw [clean, linesOf_eq, List.map_cons]
  show _ = (text.takeWhile fun b => !isEol b).rdropWhile isBlank :: _
  by_cases hdrop : text.dropWhile (fun b => !isEol b) = []
  · rw [if_pos hdrop, if_pos (afterLine_of_dropWhile_eq_nil hdrop), List.map_nil]
  · rw [if_neg hdrop, if_neg (h.afterLine_ne_nil hdrop), clean]

end Ended

/-- On texts that do not end with white space the walk compares the lines. -/
theorem sameLines_iff {actual expected : List UInt8} (ha : Ended actual) (he : Ended expected) :
    sameLines actual expected = true ↔ clean actual = clean expected := by
  fun_induction sameLines actual expected with
  | case1 actual expected hnone =>
      obtain ⟨rfl, rfl⟩ := hnone
      simp
  | case2 actual expected hsome hline =>
      constructor
      · intro h
        cases h
      · intro hclean
        rw [ha.clean_eq, he.clean_eq] at hclean
        exact absurd (List.cons.inj hclean).1 hline
  | case3 actual expected hsome hline ih =>
      have ha' := ha.suffix (afterLine_suffix actual)
      have he' := he.suffix (afterLine_suffix expected)
      have hsame : (outputLine actual).1 = (outputLine expected).1 := not_not.mp hline
      have hnil : clean [] = [[]] := rfl
      have htails : clean (afterLine actual) = clean (afterLine expected) ↔
          (if afterLine actual = [] then [] else clean (afterLine actual)) =
            if afterLine expected = [] then [] else clean (afterLine expected) := by
        -- what is left of one of them is not blank where nothing is left of the other
        have hclean : ∀ text, clean text ≠ [] := fun text h =>
          List.splitOn_ne_nil _ _ (List.map_eq_nil_iff.mp h)
        by_cases hactual : afterLine actual = [] <;> by_cases hexpected : afterLine expected = []
        · simp [hactual, hexpected]
        · simp [hactual, hexpected, hnil, (he'.clean_ne hexpected).symm, (hclean _).symm]
        · simp [hactual, hexpected, hnil, ha'.clean_ne hactual, hclean]
        · simp [hactual, hexpected]
      rw [ih ha' he', ha.clean_eq, he.clean_eq, hsame, List.cons.injEq]
      show clean (afterLine actual) = clean (afterLine expected) ↔ _
      rw [htails]
      simp

/-! ## The ends of a trimmed text -/

lemma mem_spaces {b : UInt8} (h : isEol b = true ∨ isBlank b = true) : [b] ∈ spaces := by
  simp only [isEol, isBlank, Bool.or_eq_true, decide_eq_true_eq] at h
  rcases h with (rfl | rfl) | (rfl | rfl) <;> decide

lemma ended_of_trimmed {text : List UInt8} (h : Trimmed text) : Ended text := by
  intro b hb
  have hsuffix : [b] <:+ text := by
    obtain ⟨front, rfl⟩ := List.getLast?_eq_some_iff.mp hb
    exact List.suffix_append front [b]
  constructor
  · by_contra heol
    exact h.back [b] (mem_spaces (Or.inl (by simpa using heol))) hsuffix
  · by_contra hblank
    exact h.back [b] (mem_spaces (Or.inr (by simpa using hblank))) hsuffix

/-- The last line, at the end of the text. -/
lemma linesOf_last (text : List UInt8) :
    ∃ front last before, text = front ++ last ∧ linesOf text = before ++ [last] ∧
      ∀ b ∈ front.getLast?, isEol b = true := by
  induction hlen : text.length using Nat.strong_induction_on generalizing text with
  | _ n ih =>
      rw [linesOf_eq]
      by_cases hdrop : text.dropWhile (fun b => !isEol b) = []
      · have hall := List.takeWhile_append_dropWhile (p := fun b => !isEol b) (l := text)
        rw [hdrop, List.append_nil] at hall
        exact ⟨[], text, [], rfl, by rw [if_pos hdrop, hall]; rfl, by simp⟩
      · obtain ⟨front, e, heol, htext⟩ := afterLine_split hdrop
        have hne : text ≠ [] := by
          rw [htext]
          simp
        obtain ⟨front', last, before, hafter, hlines, hlast⟩ :=
          ih _ (hlen ▸ length_afterLine_lt hne) (afterLine text) rfl
        refine ⟨front ++ e :: front', last, (text.takeWhile fun b => !isEol b) :: before, ?_, ?_, ?_⟩
        · rw [List.append_assoc, List.cons_append, ← hafter, ← htext]
        · rw [if_neg hdrop, hlines, List.cons_append]
        · intro b hb
          cases front' with
          | nil =>
              obtain rfl : e = b := by simpa using hb
              exact heol
          | cons c front' => exact hlast b (by simpa using hb)

/-- No line has a feed in it. -/
lemma not_mem_of_mem_linesOf (text : List UInt8) : ∀ line ∈ linesOf text, 10 ∉ line := by
  induction hlen : text.length using Nat.strong_induction_on generalizing text with
  | _ n ih =>
      rw [linesOf_eq]
      intro line hline hten
      rcases List.mem_cons.mp hline with rfl | hline
      · cases List.mem_takeWhile_imp hten
      · split_ifs at hline with hdrop
        · cases hline
        · have hne : text ≠ [] := by
            rintro rfl
            exact hdrop rfl
          exact ih _ (hlen ▸ length_afterLine_lt hne) (afterLine text) rfl line hline hten

/-- Lines put together end with the last of them. -/
lemma intercalate_last (before : List (List UInt8)) (last : List UInt8) :
    ∃ front, [10].intercalate (before ++ [last]) = front ++ last ∧ ∀ b ∈ front.getLast?, b = 10 := by
  induction before with
  | nil => exact ⟨[], by simp, by simp⟩
  | cons line before ih =>
      obtain ⟨front, hjoin, hlast⟩ := ih
      refine ⟨line ++ 10 :: front, ?_, ?_⟩
      · rw [List.cons_append, List.intercalate_cons_of_ne_nil (by simp), hjoin]
        simp
      · intro b hb
        cases front with
        | nil => simpa [eq_comm] using hb
        | cons c front => exact hlast b (by simpa using hb)

/-- Lines put together begin with the first of them. -/
lemma intercalate_first (line : List UInt8) (rest : List (List UInt8)) :
    ∃ back, [10].intercalate (line :: rest) = line ++ back ∧ ∀ b ∈ back.head?, b = 10 := by
  cases rest with
  | nil => exact ⟨[], by simp, by simp⟩
  | cons next rest => exact ⟨10 :: [10].intercalate (next :: rest), by simp, by simp⟩

/-- Only the feed itself is a space with a feed in it. -/
lemma eq_feed : ∀ w ∈ spaces, 10 ∈ w → w = [10] := by decide

section Join

variable {text : List UInt8} {p : UInt8 → Bool}

/-- The first line begins with the first byte of the text, and no blank comes before it. -/
lemma front_join (h : Trimmed text) (hne : text ≠ []) (hp : ∀ b, p b = true → isBlank b = true) :
    ∀ w ∈ spaces, ¬ w <+: [10].intercalate ((linesOf text).map (List.rdropWhile p)) := by
  obtain ⟨b, t, rfl⟩ := List.exists_cons_of_ne_nil hne
  have hb : isEol b = false ∧ isBlank b = false := by
    constructor
    · by_contra heol
      exact h.front [b] (mem_spaces (Or.inl (by simpa using heol))) (by simp)
    · by_contra hblank
      exact h.front [b] (mem_spaces (Or.inr (by simpa using hblank))) (by simp)
  rw [linesOf_eq, List.map_cons]
  generalize List.map (List.rdropWhile p) _ = rest
  generalize hline : ((b :: t).takeWhile fun b => !isEol b).rdropWhile p = line
  have hprefix : line <+: b :: t := by
    rw [← hline]
    exact (List.rdropWhile_prefix _ _).trans (List.takeWhile_prefix _)
  have hmem : b ∈ line := by
    cases line with
    | nil =>
        have hblank := List.rdropWhile_eq_nil_iff.mp hline b (by simp [hb.1])
        rw [hp b hblank] at hb
        cases hb.2
    | cons c line =>
        rw [(List.cons_prefix_cons.mp hprefix).1]
        exact List.mem_cons_self
  obtain ⟨back, hjoin, hback⟩ := intercalate_first line rest
  rw [hjoin]
  intro w hw hstart
  rcases List.prefix_or_prefix_of_prefix hstart (List.prefix_append line back) with hfirst | ⟨x, rfl⟩
  · exact h.front w hw (hfirst.trans hprefix)
  · cases x with
    | nil => exact h.front (line ++ []) hw (by simpa using hprefix)
    | cons c x =>
        -- the word would go on with the feed
        have hx : c :: x <+: back := (List.prefix_append_right_inj line).mp hstart
        obtain rfl : c = 10 := by
          cases back with
          | nil => simp at hx
          | cons d back =>
              rw [(List.cons_prefix_cons.mp hx).1]
              exact hback d rfl
        have hfeed := eq_feed _ hw (by simp)
        have hbfeed : b ∈ [10] := hfeed ▸ List.mem_append_left _ hmem
        obtain rfl := List.mem_singleton.mp hbfeed
        cases hb.1

/-- The last line is the end of the text, and loses nothing. -/
lemma back_join (h : Trimmed text) (hne : text ≠ []) (hp : ∀ b, p b = true → isBlank b = true) :
    ∀ w ∈ spaces, ¬ w <:+ [10].intercalate ((linesOf text).map (List.rdropWhile p)) := by
  have hended := ended_of_trimmed h
  obtain ⟨front, last, before, rfl, hlines, hfront⟩ := linesOf_last text
  have hlast : last ≠ [] := by
    rintro rfl
    rw [List.append_nil] at hne hended
    have hmem : front.getLast hne ∈ front.getLast? := by simp [List.getLast?_eq_some_getLast hne]
    have heol := hfront _ hmem
    rw [(hended _ hmem).1] at heol
    cases heol
  have hkept : last.rdropWhile p = last := by
    refine List.rdropWhile_eq_self_iff.mpr ?_
    intro hl hblank
    have hmem : last.getLast hl ∈ (front ++ last).getLast? := by
      simp [List.getLast?_append, List.getLast?_eq_some_getLast hl]
    have hnot := (hended _ hmem).2
    rw [hp _ hblank] at hnot
    cases hnot
  obtain ⟨front', hjoin, hfront'⟩ := intercalate_last (before.map (List.rdropWhile p)) last
  rw [hlines, List.map_append, List.map_singleton, hkept, hjoin]
  intro w hw hend
  rcases List.suffix_or_suffix_of_suffix hend (List.suffix_append front' last) with hin | ⟨x, rfl⟩
  · exact h.back w hw (hin.trans (List.suffix_append front last))
  · by_cases hx : x = []
    · subst hx
      exact h.back _ hw (List.suffix_append front last)
    · -- the word would begin before the feed
      obtain ⟨y, hy⟩ := hend
      obtain rfl : y ++ x = front' := List.append_cancel_right (by rwa [List.append_assoc])
      have hmem : x.getLast hx ∈ (y ++ x).getLast? := by
        simp [List.getLast?_append, List.getLast?_eq_some_getLast hx]
      have hten : 10 ∈ x ++ last := by
        rw [← hfront' _ hmem]
        exact List.mem_append_left _ (List.getLast_mem hx)
      have hlen := congrArg List.length (eq_feed _ hw hten)
      have hposx := List.length_pos_iff.mpr hx
      have hposlast := List.length_pos_iff.mpr hlast
      rw [List.length_append, List.length_singleton] at hlen
      omega

/-- A trimmed text whose lines lose blanks is trimmed. -/
lemma trimmed_join (h : Trimmed text) (hp : ∀ b, p b = true → isBlank b = true) :
    Trimmed ([10].intercalate ((linesOf text).map (List.rdropWhile p))) := by
  by_cases hne : text = []
  · subst hne
    exact Trimmed.nil
  · exact ⟨front_join h hne hp, back_join h hne hp⟩

end Join

/-- Rewriting the line ends of a trimmed text leaves it trimmed. -/
lemma trimmed_unix {text : List UInt8} (h : Trimmed text) : Trimmed (unix text) := by
  have hjoin := trimmed_join (p := fun _ => false) h (by simp)
  have hid : List.rdropWhile (fun _ : UInt8 => false) = id := by
    funext l
    exact List.rdropWhile_eq_self_iff.mpr (by simp)
  rwa [hid, List.map_id, linesOf, List.intercalate_splitOn] at hjoin

/-- Line ends can be rewritten before the text is trimmed, or after. -/
lemma trimSpaceBytes_unix (str : List UInt8) : trimSpaceBytes (unix str) = unix (trimSpaceBytes str) := by
  obtain ⟨A, B, hA, hB, hstr, htrim⟩ := Go.trimSpaceBytes_spec str
  generalize trimSpaceBytes str = t at hstr htrim
  subst hstr
  by_cases hne : t = []
  · subst hne
    have hall : Made spaces (A ++ [] ++ B) := by
      rw [List.append_nil]
      exact hA.append hB
    have hspaces := Go.trimSpaceBytes_eq (made_unix hall) Trimmed.nil Made.nil
    simpa [unix] using hspaces
  · have hended := ended_of_trimmed htrim
    have hlast : t.getLast? ≠ some 13 := fun h => absurd (hended 13 h).1 (by decide)
    have hhead : t.head? ≠ some 10 := by
      intro h
      refine htrim.front [10] (by decide) ?_
      cases t with
      | nil => cases h
      | cons b t => simpa [eq_comm] using h
    have hheadB : (t ++ B).head? = t.head? := by
      cases t with
      | nil => exact absurd rfl hne
      | cons b t => rfl
    rw [List.append_assoc, unix_append fun h => hhead (hheadB ▸ h.2), unix_append fun h => hlast h.1,
      ← List.append_assoc]
    exact Go.trimSpaceBytes_eq (made_unix hA) (trimmed_unix htrim) (made_unix hB)

/-- The reference is made of the lines of the trimmed text. -/
theorem normalizeOutput_eq (str : List UInt8) :
    normalizeOutput str = [10].intercalate (clean (trimSpaceBytes str)) := by
  obtain ⟨-, -, -, -, -, htrim⟩ := Go.trimSpaceBytes_spec str
  have hjoin : Trimmed ([10].intercalate (clean (trimSpaceBytes str))) :=
    trimmed_join htrim fun _ h => h
  have hsame := Go.trimSpaceBytes_eq Made.nil hjoin Made.nil
  rw [List.nil_append, List.append_nil] at hsame
  simp only [normalizeOutput]
  rw [replaceAll_eq, trimSpaceBytes_unix]
  exact hsame

/-! ## The result -/

/-- Lines can be taken apart again. -/
lemma clean_eq_of_join {s t : List UInt8} (h : [10].intercalate (clean s) = [10].intercalate (clean t)) :
    clean s = clean t := by
  have hfree : ∀ u, ∀ line ∈ clean u, 10 ∉ line := by
    intro u line hline hten
    obtain ⟨whole, hwhole, rfl⟩ := List.mem_map.mp hline
    exact not_mem_of_mem_linesOf u whole hwhole ((List.rdropWhile_prefix _ _).subset hten)
  have hne : ∀ u, clean u ≠ [] := fun u hnil => List.splitOn_ne_nil _ _ (List.map_eq_nil_iff.mp hnil)
  rw [← List.splitOn_intercalate 10 (hfree s) (hne s), h, List.splitOn_intercalate 10 (hfree t) (hne t)]

/-- **The walk and the reference agree**, and `outputsEqual` is an equivalence. -/
theorem outputsEqual_iff :
    (∀ a e, outputsEqual a e = true ↔ normalizeOutput a = normalizeOutput e) ∧
      Equivalence fun a e => outputsEqual a e = true := by
  have hiff : ∀ a e, outputsEqual a e = true ↔ normalizeOutput a = normalizeOutput e := by
    intro a e
    obtain ⟨-, -, -, -, -, ha⟩ := Go.trimSpaceBytes_spec a
    obtain ⟨-, -, -, -, -, he⟩ := Go.trimSpaceBytes_spec e
    rw [outputsEqual, sameLines_iff (ended_of_trimmed ha) (ended_of_trimmed he), normalizeOutput_eq,
      normalizeOutput_eq]
    exact ⟨fun h => by rw [h], clean_eq_of_join⟩
  refine ⟨hiff, ?_, ?_, ?_⟩
  · intro a
    exact (hiff a a).mpr rfl
  · intro a e h
    exact (hiff e a).mpr ((hiff a e).mp h).symm
  · intro a b c hab hbc
    exact (hiff a c).mpr (((hiff a b).mp hab).trans ((hiff b c).mp hbc))

end Outputs

end Labyrithm
