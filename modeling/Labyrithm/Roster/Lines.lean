import Labyrithm.Js.Strings

/-!
# Lines of fields

`splitDelimitedLine` of `admin-frontend/src/lib/csv-utils.ts`, which cuts a line into its fields, and the
lines that the two bulk imports take from a text.  A record is written as its fields with commas between
them, where a field with a comma or a quote is quoted and its quotes are doubled.

* `scanFields_field` — one field is scanned.
* **`splitDelimitedLine_write`** — a line that was written is cut into its fields.
* `textLines_of_lines` — the lines of a text, whichever ends they have.
-/

namespace Labyrithm

namespace Roster

open Js

/-! ## The functions -/

/-- The loop of `splitDelimitedLine`. -/
def scanFields (delimiter : Char) : Bool → List Char → List Char → List (List Char)
  | _, currentField, [] => [trim currentField]
  | true, currentField, '"' :: '"' :: line => scanFields delimiter true (currentField ++ ['"']) line
  | insideQuotes, currentField, '"' :: line => scanFields delimiter (!insideQuotes) currentField line
  | insideQuotes, currentField, ch :: line =>
      if ch = delimiter ∧ insideQuotes = false then
        trim currentField :: scanFields delimiter insideQuotes [] line
      else scanFields delimiter insideQuotes (currentField ++ [ch]) line

def splitDelimitedLine (line : List Char) : List (List Char) :=
  scanFields (if '\t' ∈ line then '\t' else ',') false [] line

/-- The lines of a text: `split(/\r?\n/)`, trimmed, without the empty ones. -/
def textLines (text : List Char) : List (List Char) := ((splitLines text).map trim).filter (· ≠ [])

/-! ## Writing -/

def double (ch : Char) : List Char := if ch = '"' then ['"', '"'] else [ch]

/-- The field needs quotes. -/
def NeedsQuotes (s : List Char) : Prop := ',' ∈ s ∨ '"' ∈ s

instance (s : List Char) : Decidable (NeedsQuotes s) := inferInstanceAs (Decidable (_ ∨ _))

def writeField (s : List Char) : List Char :=
  if NeedsQuotes s then '"' :: (s.flatMap double ++ ['"']) else s

def writeLine : List (List Char) → List Char
  | [] => []
  | [field] => writeField field
  | field :: fields => writeField field ++ ',' :: writeLine fields

/-- A text of lines, of which the last one may have no end. -/
inductive Lines : List (List Char) → List Char → Prop
  | nil : Lines [] []
  | last (line : List Char) : Lines [line] line
  | cons (line : List Char) (eol : LineEnd) {lines : List (List Char)} {text : List Char}
      (rest : Lines lines text) : Lines (line :: lines) (line ++ (eol.text ++ text))

/-- A field without line breaks, tabs and blanks around it. -/
structure Field where
  text : List Char
  oneLine : OneLine text
  noTab : '\t' ∉ text
  blankFree : BlankFree text

/-! ## Scanning -/

section Scan

variable {s rest : List Char} {insideQuotes : Bool} {currentField : List Char}

attribute [local simp] scanFields in
lemma scanFields_char {ch : Char} (hquote : ch ≠ '"') (hcomma : ch = ',' → insideQuotes = true)
    (line : List Char) : scanFields ',' insideQuotes currentField (ch :: line)
      = scanFields ',' insideQuotes (currentField ++ [ch]) line := by
  rw [scanFields, if_neg]
  · rintro ⟨rfl, houtside⟩
    rw [hcomma rfl] at houtside
    cases houtside
  · exact hquote
  · intro _ _ heq
    exact absurd heq hquote

lemma scanFields_comma (line : List Char) :
    scanFields ',' false currentField (',' :: line) = trim currentField :: scanFields ',' false [] line := by
  simp [scanFields]

lemma scanFields_open (line : List Char) :
    scanFields ',' false currentField ('"' :: line) = scanFields ',' true currentField line := by
  simp [scanFields]

lemma scanFields_double (line : List Char) :
    scanFields ',' true currentField ('"' :: '"' :: line)
      = scanFields ',' true (currentField ++ ['"']) line := by
  rw [scanFields]

/-- A quote that is not doubled closes the field. -/
lemma scanFields_close (h : rest.head? ≠ some '"') :
    scanFields ',' true currentField ('"' :: rest) = scanFields ',' false currentField rest := by
  rw [scanFields]
  · rfl
  · intro _ _ heq
    rw [heq] at h
    exact absurd rfl h

lemma scanFields_plain (h : ¬ NeedsQuotes s) (rest : List Char) :
    scanFields ',' false currentField (s ++ rest) = scanFields ',' false (currentField ++ s) rest := by
  induction s generalizing currentField with
  | nil => simp
  | cons ch s ih =>
      obtain ⟨hcomma, hquote⟩ := not_or.mp h
      rw [List.mem_cons, not_or] at hcomma hquote
      rw [List.cons_append, scanFields_char (Ne.symm hquote.1) (fun heq => absurd heq.symm hcomma.1),
        ih (not_or.mpr ⟨hcomma.2, hquote.2⟩), List.append_assoc]
      rfl

lemma scanFields_quoted (s rest : List Char) :
    scanFields ',' true currentField (s.flatMap double ++ '"' :: rest)
      = scanFields ',' true (currentField ++ s) ('"' :: rest) := by
  induction s generalizing currentField with
  | nil => simp
  | cons ch s ih =>
      rw [List.flatMap_cons, List.append_assoc, double]
      split_ifs with hquote
      · subst hquote
        rw [List.cons_append, List.cons_append, List.nil_append, scanFields_double, ih, List.append_assoc]
        rfl
      · rw [List.cons_append, List.nil_append, scanFields_char hquote (fun _ => rfl), ih,
          List.append_assoc]
        rfl

/-- **One field** with what stands behind it. -/
lemma scanFields_field (s : List Char) (h : rest.head? ≠ some '"') :
    scanFields ',' false [] (writeField s ++ rest) = scanFields ',' false s rest := by
  rw [writeField]
  split_ifs with hneeds
  · rw [List.cons_append, List.append_assoc, scanFields_open, List.singleton_append, scanFields_quoted,
      scanFields_close h]
    rfl
  · exact scanFields_plain hneeds rest

end Scan

/-! ## Lines that were written -/

section Write

variable {s : List Char} {fields : List (List Char)} {ch : Char}

lemma writeLine_cons (field : List Char) (h : fields ≠ []) :
    writeLine (field :: fields) = writeField field ++ ',' :: writeLine fields := by
  cases fields with
  | nil => exact absurd rfl h
  | cons next fields => rfl

lemma mem_writeField (h : ch ∈ writeField s) : ch = '"' ∨ ch ∈ s := by
  rw [writeField] at h
  split_ifs at h
  · simp only [List.mem_cons, List.mem_append, List.mem_flatMap, List.not_mem_nil, or_false] at h
    obtain h | ⟨c, hc, hdouble⟩ | h := h
    · exact .inl h
    · rw [double] at hdouble
      split_ifs at hdouble with hquote
      · exact .inl (by simpa using hdouble)
      · obtain rfl : ch = c := by simpa using hdouble
        exact .inr hc
    · exact .inl h
  · exact .inr h

/-- The characters of a line. -/
lemma mem_writeLine (h : ch ∈ writeLine fields) : ch = ',' ∨ ch = '"' ∨ ∃ s ∈ fields, ch ∈ s := by
  induction fields with
  | nil => cases h
  | cons field fields ih =>
      by_cases hlast : fields = []
      · subst hlast
        obtain h | h := mem_writeField h
        · exact .inr (.inl h)
        · exact .inr (.inr ⟨field, List.mem_cons_self, h⟩)
      · rw [writeLine_cons field hlast, List.mem_append, List.mem_cons] at h
        obtain h | h | h := h
        · obtain h | h := mem_writeField h
          · exact .inr (.inl h)
          · exact .inr (.inr ⟨field, List.mem_cons_self, h⟩)
        · exact .inl h
        · obtain h | h | ⟨s, hs, hmem⟩ := ih h
          · exact .inl h
          · exact .inr (.inl h)
          · exact .inr (.inr ⟨s, List.mem_cons_of_mem field hs, hmem⟩)

lemma blankFree_writeField (h : BlankFree s) : BlankFree (writeField s) := by
  rw [writeField]
  split_ifs
  · constructor
    · intro ch hch
      obtain rfl : '"' = ch := Option.some.inj hch
      rfl
    · intro ch hch
      rw [← List.cons_append, List.getLast?_concat] at hch
      obtain rfl : '"' = ch := Option.some.inj hch
      rfl
  · exact h

/-- Two texts with a comma between them. -/
lemma blankFree_comma {t : List Char} (hs : BlankFree s) (ht : BlankFree t) : BlankFree (s ++ ',' :: t) := by
  constructor
  · intro ch hch
    cases s with
    | nil =>
        obtain rfl : ',' = ch := Option.some.inj hch
        rfl
    | cons first s => exact hs.1 ch hch
  · intro ch hch
    rw [List.getLast?_append_of_ne_nil _ (List.cons_ne_nil _ _)] at hch
    cases t with
    | nil =>
        obtain rfl : ',' = ch := Option.some.inj hch
        rfl
    | cons first t => exact ht.2 ch (by rwa [List.getLast?_cons_cons] at hch)

lemma blankFree_writeLine (h : ∀ s ∈ fields, BlankFree s) : BlankFree (writeLine fields) := by
  induction fields with
  | nil => simp [writeLine, BlankFree]
  | cons field fields ih =>
      obtain ⟨hfield, hfields⟩ := List.forall_mem_cons.mp h
      by_cases hlast : fields = []
      · subst hlast
        exact blankFree_writeField hfield
      · rw [writeLine_cons field hlast]
        exact blankFree_comma (blankFree_writeField hfield) (ih hfields)

lemma writeField_ne_nil (h : s ≠ []) : writeField s ≠ [] := by
  rw [writeField]
  split_ifs
  · exact List.cons_ne_nil _ _
  · exact h

lemma scanFields_write (hne : fields ≠ []) (h : ∀ s ∈ fields, BlankFree s) :
    scanFields ',' false [] (writeLine fields) = fields := by
  induction fields with
  | nil => exact absurd rfl hne
  | cons field fields ih =>
      obtain ⟨hfield, hfields⟩ := List.forall_mem_cons.mp h
      by_cases hlast : fields = []
      · subst hlast
        have hscan : scanFields ',' false [] (writeField field ++ []) = scanFields ',' false field [] :=
          scanFields_field field (by simp)
        rw [List.append_nil] at hscan
        rw [writeLine, hscan, scanFields, trim_of_blankFree hfield]
      · rw [writeLine_cons field hlast, scanFields_field field (by simp), scanFields_comma,
          trim_of_blankFree hfield, ih hlast hfields]

/-- **A line that was written is cut into its fields.** -/
theorem splitDelimitedLine_write (hne : fields ≠ []) (hblank : ∀ s ∈ fields, BlankFree s)
    (htab : ∀ s ∈ fields, '\t' ∉ s) : splitDelimitedLine (writeLine fields) = fields := by
  have hnone : '\t' ∉ writeLine fields := by
    intro hmem
    obtain h | h | ⟨s, hs, hmem⟩ := mem_writeLine hmem
    · cases h
    · cases h
    · exact htab s hs hmem
  rw [splitDelimitedLine, if_neg hnone, scanFields_write hne hblank]

end Write

/-! ## The lines of a text -/

section Texts

variable {lines : List (List Char)} {text : List Char}

/-- What the imports take from a text of lines. -/
theorem textLines_of_lines (h : Lines lines text)
    (hlines : ∀ line ∈ lines, OneLine line ∧ BlankFree line ∧ line ≠ []) : textLines text = lines := by
  induction h with
  | nil => rfl
  | last line =>
      obtain ⟨hone, hblank, hne⟩ := hlines line List.mem_cons_self
      simp [textLines, splitLines_last hone, trim_of_blankFree hblank, hne]
  | cons line eol rest ih =>
      obtain ⟨⟨hone, hblank, hne⟩, hrest⟩ := List.forall_mem_cons.mp hlines
      have ih := ih hrest
      rw [textLines] at ih ⊢
      rw [splitLines_ended hone, List.map_cons, trim_of_blankFree hblank,
        List.filter_cons_of_pos (by simpa using hne), ih]

/-- The line of a record. -/
def recordLine (fields : List Field) : List Char := writeLine (fields.map Field.text)

variable {first : Field} {fields : List Field}

lemma splitDelimitedLine_record (hne : fields ≠ []) :
    splitDelimitedLine (recordLine fields) = fields.map Field.text := by
  refine splitDelimitedLine_write (by simpa using hne) ?_ ?_
  · rw [List.forall_mem_map]
    exact fun field _ => field.blankFree
  · rw [List.forall_mem_map]
    exact fun field _ => field.noTab

/-- A record whose first field is not empty is a line. -/
lemma recordLine_ok (hfirst : first.text ≠ []) :
    OneLine (recordLine (first :: fields)) ∧ BlankFree (recordLine (first :: fields)) ∧
      recordLine (first :: fields) ≠ [] := by
  have hclean : ∀ ch ∈ recordLine (first :: fields), ch ≠ '\n' ∧ ch ≠ '\r' := by
    intro ch hch
    obtain rfl | rfl | ⟨s, hs, hmem⟩ := mem_writeLine hch
    · decide
    · decide
    · obtain ⟨field, -, rfl⟩ := List.mem_map.mp hs
      exact ⟨fun heq => field.oneLine.1 (heq ▸ hmem), fun heq => field.oneLine.2 (heq ▸ hmem)⟩
  refine ⟨⟨fun hmem => (hclean _ hmem).1 rfl, fun hmem => (hclean _ hmem).2 rfl⟩, ?_, ?_⟩
  · refine blankFree_writeLine ?_
    rw [List.forall_mem_map]
    exact fun field _ => field.blankFree
  · rw [recordLine, List.map_cons]
    by_cases hlast : fields = []
    · subst hlast
      exact writeField_ne_nil hfirst
    · rw [writeLine_cons _ (by simpa using hlast)]
      simp

end Texts

end Roster

end Labyrithm
