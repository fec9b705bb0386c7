import Labyrithm.Js.Json

/-!
# Tests in bulk

`parseBulkTestCases` of `admin-frontend/src/lib/testcase-utils.ts` reads the tests of a problem from a
JSON array or from blocks behind `=== INPUT ===` and `=== OUTPUT ===` lines.  The blocks are cut at the
lines, the empty ones are left out, and what is left is paired two by two, so that a block that was left
out shifts all pairs behind it.

* `Block`, `written` — the format: blocks one after the other, with no header line in a body.
* `splitHeaders_written` — the text of blocks is cut into their bodies.
* `units` — the blocks as pairs, where an empty body stands for a block that is missing.
* `pairUp_clean_iff` — pairing what is left of pairs gives those that were whole, where they are `Aligned`.

**`bulk_pairs_iff`** — the tests are the inputs with the outputs behind them exactly where no more than one
pair is half empty, and no other text comes behind it (`bulk_shifts`).
-/

namespace Labyrithm

namespace Problem

open Js

/-! ## The function -/

/-- `TestCaseInput`, with points of some type of numbers. -/
structure TestCaseInput (N : Type) where
  ordinal : ℕ
  input : List Char
  expected : List Char
  points : N
  deriving DecidableEq, Repr

/-- The result of `parseBulkTestCases`. -/
structure BulkTests (N : Type) where
  testCases : List (TestCaseInput N)
  error : Option String := none
  deriving DecidableEq, Repr

/-- What is used of `number`: how the one nearest to a literal is written, and `Number(points) || 0` of
what the property `points` is, which may be undefined. -/
structure Numbers (N : Type) where
  zero : N
  text : List Char → List Char
  points : Option Json → N

/-- The words of a header, in upper case. -/
def headerWords : List (List Char) := ["INPUT".toList, "OUTPUT".toList, "EXPECTED".toList]

/-- What follows a word, which may be written in letters of either case. -/
def afterWord (word s : List Char) : Option (List Char) :=
  if (s.take word.length).map Char.toUpper = word then some (s.drop word.length) else none

/-- What follows a header: `===\s*(?:INPUT|OUTPUT|EXPECTED)\s*===` in letters of either case. -/
def afterHeader (s : List Char) : Option (List Char) := do
  let s ← afterWord "===".toList s
  let s ← headerWords.findSome? fun word => afterWord word (s.dropWhile isSpace)
  afterWord "===".toList (s.dropWhile isSpace)

/-- What follows a header at the beginning of a line, with the end of the line before it. -/
def afterHeaderLine : List Char → Option (List Char)
  | '\n' :: s => afterHeader s
  | _ => none

/-- The segments between the headers of a text, of which the first characters belong to a header. -/
def segmentsAfter : ℕ → List Char → List Char × List (List Char)
  | _, [] => ([], [])
  | n + 1, _ :: s => segmentsAfter n s
  | 0, ch :: s =>
      match afterHeaderLine (ch :: s) with
      | some rest =>
          let segments := segmentsAfter (s.length - rest.length) s
          ([], segments.1 :: segments.2)
      | none =>
          let segments := segmentsAfter 0 s
          (ch :: segments.1, segments.2)

/-- `split(/(?:^|\n)===\s*(?:INPUT|OUTPUT|EXPECTED)\s*===/i)`. -/
def splitHeaders (s : List Char) : List (List Char) :=
  match afterHeader s with
  | some rest =>
      let segments := segmentsAfter (s.length - rest.length) s
      [] :: segments.1 :: segments.2
  | none =>
      let segments := segmentsAfter 0 s
      segments.1 :: segments.2

section Parse

variable {N : Type} (numbers : Numbers N) (existingCount : ℕ)

/-- The first of some properties that is neither undefined nor null. -/
def firstProperty (keys : List String) (item : Json) : Option Json :=
  keys.findSome? fun key =>
    match item.get key.toList with
    | some .null => none
    | v => v

/-- The text of the first of some properties, which is empty where there is none of them, unless `String`
throws. -/
def propertyText (keys : List String) (item : Json) : Option (List Char) :=
  match firstProperty keys item with
  | none => some []
  | some v => v.text numbers.text

/-- The points of an item, unless `Number` throws, which it does where `String` does. -/
def itemPoints (item : Json) : Option N :=
  match item.get "points".toList with
  | none => some (numbers.points none)
  | some v => (v.text numbers.text).map fun _ => numbers.points (some v)

/-- The test of an item; a property of null throws. -/
def testOfItem : Json × ℕ → Option (TestCaseInput N)
  | (.null, _) => none
  | (item, idx) => do
      let input ← propertyText numbers ["input", "in"] item
      let expected ← propertyText numbers ["expected", "output", "out"] item
      let points ← itemPoints numbers item
      return { ordinal := existingCount + idx + 1, input := input, expected := expected, points := points }

/-- The loop over the cleaned segments, with the number of pairs so far. -/
def pairSegments : ℕ → List (List Char) → List (TestCaseInput N)
  | count, a :: b :: cleaned =>
      if a ≠ [] ∧ b ≠ [] then
        { ordinal := existingCount + count + 1, input := a, expected := b, points := numbers.zero }
          :: pairSegments (count + 1) cleaned
      else pairSegments count cleaned
  | _, _ => []

def bulkError : BulkTests N where
  testCases := []
  error := some ("Could not parse test cases. Please provide a valid JSON array (e.g. "
    ++ "[\x7b\"input\":\"5\",\"expected\":\"15\"\x7d]) or use delimiter blocks.")

/-- The segments of a text that are not empty. -/
def cleaned (s : List Char) : List (List Char) := ((splitHeaders s).map trim).filter (· ≠ [])

/-- The parser of delimiter blocks, where `JSON.parse` or a property has thrown. -/
def parseBlocks (trimmed : List Char) : BulkTests N :=
  if (cleaned trimmed).length ≥ 2 then
    let pairs := pairSegments numbers existingCount 0 (cleaned trimmed)
    if pairs.length > 0 then { testCases := pairs } else bulkError
  else bulkError

/-- `parseBulkTestCases`. -/
def parseBulkTestCases (rawText : List Char) : BulkTests N :=
  let trimmed := trim rawText
  if trimmed = [] then { testCases := [] }
  else
    match Json.parse trimmed with
    | some (.array parsed) =>
        match parsed.zipIdx.mapM (testOfItem numbers existingCount) with
        | some testCases => { testCases := testCases }
        | none => parseBlocks numbers existingCount trimmed
    | some _ => bulkError
    | none => parseBlocks numbers existingCount trimmed

end Parse

/-! ## The format -/

inductive BlockKind
  | input
  | output
  deriving DecidableEq, Repr

/-- The words for a kind of block. -/
def BlockKind.words : BlockKind → List (List Char)
  | .input => ["INPUT".toList]
  | .output => ["OUTPUT".toList, "EXPECTED".toList]

/-- A block: a header, in which there may be blanks and letters of either case, and a body. -/
structure Block where
  kind : BlockKind
  before : List Char
  word : List Char
  after : List Char
  body : List Char
  before_blank : ∀ ch ∈ before, isSpace ch = true
  after_blank : ∀ ch ∈ after, isSpace ch = true
  word_mem : word.map Char.toUpper ∈ kind.words

namespace Block

def header (b : Block) : List Char :=
  "===".toList ++ (b.before ++ (b.word ++ (b.after ++ "===".toList)))

def trimmed (b : Block) : List Char := trim b.body

end Block

/-- Blocks behind others: every header begins a line. -/
def following (blocks : List Block) : List Char :=
  blocks.flatMap fun b => '\n' :: (b.header ++ b.body)

/-- The text of blocks. -/
def written : List Block → List Char
  | [] => []
  | b :: blocks => b.header ++ (b.body ++ following blocks)

/-- The text begins with the end of a line and a header. -/
def BeginsHeaderLine (s : List Char) : Prop :=
  ∃ (b : Block) (rest : List Char), s = '\n' :: (b.header ++ rest)

/-- No header begins in a body. -/
def HeaderFree : List Block → Prop
  | [] => True
  | b :: blocks =>
      (∀ s, s <:+ b.body → s ≠ [] → ¬ BeginsHeaderLine (s ++ following blocks)) ∧ HeaderFree blocks

/-- A text in the format, with blanks around it or not. -/
structure Delimited (rawText : List Char) (blocks : List Block) : Prop where
  text : trim rawText = written blocks
  headerFree : HeaderFree blocks

/-- The inputs and the outputs that immediately follow them, where neither is empty. -/
def adjacentPairs (blocks : List Block) : List (List Char × List Char) :=
  (blocks.zip blocks.tail).filterMap fun p =>
    if p.1.kind = .input ∧ p.2.kind = .output ∧ p.1.trimmed ≠ [] ∧ p.2.trimmed ≠ [] then
      some (p.1.trimmed, p.2.trimmed)
    else none

/-- The tests are the pairs, in their order. -/
def PairsCorrectly {N : Type} (numbers : Numbers N) (existingCount : ℕ) (rawText : List Char)
    (blocks : List Block) : Prop :=
  (parseBulkTestCases numbers existingCount rawText).testCases.map (fun t => (t.input, t.expected))
    = adjacentPairs blocks

/-- The blocks as pairs; an output without an input before it and an input without an output behind it
are paired with nothing. -/
def units : List Block → List (List Char × List Char)
  | [] => []
  | b :: blocks =>
      match b.kind, blocks with
      | .output, blocks => ([], b.trimmed) :: units blocks
      | .input, [] => [(b.trimmed, [])]
      | .input, b' :: blocks =>
          if b'.kind = .output then (b.trimmed, b'.trimmed) :: units blocks
          else (b.trimmed, []) :: units (b' :: blocks)

/-- At most one pair is half empty, and in the pairs behind it there is nothing but the text it has. -/
def Aligned : List (List Char × List Char) → Prop
  | [] => True
  | u :: us =>
      if u.1 = [] ↔ u.2 = [] then Aligned us
      else ∀ v ∈ us, v = ([], []) ∨ v = (u.1 ++ u.2, u.1 ++ u.2)

/-! ## Pairing what is left -/

section Pairing

variable {us : List (List Char × List Char)} {x : List Char}

/-- Two by two. -/
def pairUp : List (List Char) → List (List Char × List Char)
  | a :: b :: l => (a, b) :: pairUp l
  | _ => []

/-- The texts of pairs that are not empty. -/
def clean (us : List (List Char × List Char)) : List (List Char) :=
  (us.flatMap fun u => [u.1, u.2]).filter (· ≠ [])

/-- The pairs of which neither text is empty. -/
def whole (us : List (List Char × List Char)) : List (List Char × List Char) :=
  us.filter fun u => u.1 ≠ [] ∧ u.2 ≠ []

attribute [local simp] clean pairUp whole in
lemma clean_cons (u : List Char × List Char) (us : List (List Char × List Char)) :
    clean (u :: us) = ([u.1, u.2].filter (· ≠ [])) ++ clean us := by
  rw [clean, clean, List.flatMap_cons, List.filter_append]

lemma length_pairUp : ∀ l : List (List Char), (pairUp l).length = l.length / 2
  | [] => rfl
  | [a] => by simp [pairUp]
  | a :: b :: l => by
      rw [pairUp, List.length_cons, length_pairUp l, List.length_cons, List.length_cons]
      omega

lemma length_whole_le (us : List (List Char × List Char)) :
    2 * (whole us).length ≤ (clean us).length := by
  induction us with
  | nil => simp [whole, clean]
  | cons u us ih =>
      obtain ⟨a, b⟩ := u
      rw [clean_cons, List.length_append]
      by_cases ha : a = [] <;> by_cases hb : b = [] <;> simp [whole, ha, hb] at ih ⊢ <;> omega

/-- A text in front shifts the pairs, which shows unless there is no other text. -/
lemma pairUp_cons_clean_iff (x : List Char) (us : List (List Char × List Char)) :
    pairUp (x :: clean us) = whole us ↔ ∀ v ∈ us, v = ([], []) ∨ v = (x, x) := by
  induction us generalizing x with
  | nil => simp [clean, whole, pairUp]
  | cons u us ih =>
      obtain ⟨a, b⟩ := u
      rw [clean_cons, List.forall_mem_cons, whole]
      by_cases ha : a = [] <;> by_cases hb : b = []
      · simpa [ha, hb, whole] using ih x
      · -- half a pair: the text in front would make one more
        have hlength := length_whole_le us
        constructor
        · intro h
          have := congrArg List.length h
          simp [ha, hb, pairUp, length_pairUp, whole] at this hlength
          omega
        · rintro ⟨h, -⟩
          simp_all
      · have hlength := length_whole_le us
        constructor
        · intro h
          have := congrArg List.length h
          simp [ha, hb, pairUp, length_pairUp, whole] at this hlength
          omega
        · rintro ⟨h, -⟩
          simp_all
      · have hpair : pairUp (x :: ([a, b].filter (· ≠ []) ++ clean us))
            = (x, a) :: pairUp (b :: clean us) := by simp [ha, hb, pairUp]
        have hwhole : List.filter (fun u => decide (u.1 ≠ [] ∧ u.2 ≠ [])) ((a, b) :: us)
            = (a, b) :: whole us := by simp [ha, hb, whole]
        rw [hpair, hwhole, List.cons.injEq, ih, Prod.mk.injEq]
        constructor
        · rintro ⟨⟨rfl, rfl⟩, h⟩
          exact ⟨.inr rfl, h⟩
        · rintro ⟨h, hrest⟩
          obtain ⟨rfl, rfl⟩ : a = x ∧ b = x := by simpa [ha] using h
          exact ⟨⟨rfl, rfl⟩, hrest⟩

/-- **Pairing what is left gives the whole pairs** where they are aligned. -/
theorem pairUp_clean_iff (us : List (List Char × List Char)) :
    pairUp (clean us) = whole us ↔ Aligned us := by
  induction us with
  | nil => simp [clean, whole, pairUp, Aligned]
  | cons u us ih =>
      obtain ⟨a, b⟩ := u
      rw [clean_cons, whole, Aligned]
      by_cases ha : a = [] <;> by_cases hb : b = []
      · simpa [ha, hb, whole] using ih
      · simpa [ha, hb, whole] using pairUp_cons_clean_iff b us
      · simpa [ha, hb, whole] using pairUp_cons_clean_iff a us
      · simpa [ha, hb, whole, pairUp] using ih

end Pairing

/-! ## Blocks as pairs -/

section Units

variable {b b' : Block} {blocks : List Block}

attribute [local simp] adjacentPairs units in
lemma adjacentPairs_cons_cons :
    adjacentPairs (b :: b' :: blocks)
      = (if b.kind = .input ∧ b'.kind = .output ∧ b.trimmed ≠ [] ∧ b'.trimmed ≠ []
          then [(b.trimmed, b'.trimmed)] else []) ++ adjacentPairs (b' :: blocks) := by
  simp only [adjacentPairs, List.tail_cons, List.zip_cons_cons, List.filterMap_cons]
  split_ifs <;> rfl

lemma adjacentPairs_of_output (h : b.kind = .output) :
    adjacentPairs (b :: blocks) = adjacentPairs blocks := by
  cases blocks with
  | nil => rfl
  | cons b' blocks => rw [adjacentPairs_cons_cons, if_neg (by simp [h]), List.nil_append]

lemma units_of_output (h : b.kind = .output) : units (b :: blocks) = ([], b.trimmed) :: units blocks := by
  simp [units, h]

lemma units_last (h : b.kind = .input) : units [b] = [(b.trimmed, [])] := by simp [units, h]

lemma units_pair (h : b.kind = .input) (h' : b'.kind = .output) :
    units (b :: b' :: blocks) = (b.trimmed, b'.trimmed) :: units blocks := by simp [units, h, h']

lemma units_alone (h : b.kind = .input) (h' : ¬ b'.kind = .output) :
    units (b :: b' :: blocks) = (b.trimmed, []) :: units (b' :: blocks) := by simp [units, h, h']

/-- The texts of the pairs are those of the blocks. -/
lemma clean_units (blocks : List Block) :
    clean (units blocks) = (blocks.map Block.trimmed).filter (· ≠ []) := by
  induction blocks using units.induct with
  | case1 => rfl
  | case2 b blocks h ih =>
      rw [units_of_output h, clean_cons, ih]
      by_cases hb : b.trimmed = [] <;> simp [hb]
  | case3 b h =>
      rw [units_last h, clean_cons]
      by_cases hb : b.trimmed = [] <;> simp [clean, hb]
  | case4 b b' blocks h h' ih =>
      rw [units_pair h h', clean_cons, ih, List.map_cons, List.map_cons, ← List.filter_append]
      rfl
  | case5 b b' blocks h h' ih =>
      rw [units_alone h h', clean_cons, ih, List.map_cons, List.map_cons]
      by_cases hb : b.trimmed = [] <;> simp [hb]

/-- The whole pairs are the inputs with the outputs behind them. -/
lemma whole_units (blocks : List Block) : whole (units blocks) = adjacentPairs blocks := by
  induction blocks using units.induct with
  | case1 => rfl
  | case2 b blocks h ih =>
      rw [units_of_output h, adjacentPairs_of_output h, ← ih]
      simp [whole]
  | case3 b h =>
      rw [units_last h]
      simp [whole, adjacentPairs]
  | case4 b b' blocks h h' ih =>
      rw [units_pair h h', adjacentPairs_cons_cons, adjacentPairs_of_output h', ← ih, whole,
        List.filter_cons]
      by_cases hb : b.trimmed = [] <;> by_cases hb' : b'.trimmed = [] <;> simp [h, h', hb, hb', whole]
  | case5 b b' blocks h h' ih =>
      rw [units_alone h h', adjacentPairs_cons_cons, if_neg (by simp [h']), List.nil_append, ← ih]
      simp [whole]

end Units

/-! ## Cutting at the headers -/

section Headers

variable {b : Block} {blocks : List Block} {s t word : List Char}

lemma afterWord_append (h : t.map Char.toUpper = word) (s : List Char) :
    afterWord word (t ++ s) = some s := by
  have hlen : t.length = word.length := by rw [← h, List.length_map]
  rw [afterWord, List.take_append_of_le_length hlen.ge, List.drop_append_of_le_length hlen.ge,
    List.take_of_length_le hlen.le, List.drop_of_length_le hlen.le, if_pos h, List.nil_append]

/-- Another word, told by its first letter. -/
lemma afterWord_other (word : List Char) {other : List Char} (h : t.map Char.toUpper = other)
    (hfirst : word ≠ [] ∧ other ≠ [] ∧ other.head? ≠ word.head?) (s : List Char) :
    afterWord word (t ++ s) = none := by
  obtain ⟨hword, hother, hne⟩ := hfirst
  subst h
  obtain ⟨ch, t, rfl⟩ := List.exists_cons_of_ne_nil (fun ht => hother (by rw [ht]; rfl) : t ≠ [])
  obtain ⟨first, word, rfl⟩ := List.exists_cons_of_ne_nil hword
  rw [afterWord, if_neg]
  simpa using fun heq => absurd heq (by simpa using hne)

/-- The words of headers are told apart. -/
lemma findSome?_headerWords (h : t.map Char.toUpper ∈ headerWords) (s : List Char) :
    headerWords.findSome? (fun word => afterWord word (t ++ s)) = some s := by
  simp only [headerWords, List.mem_cons, List.not_mem_nil, or_false] at h
  obtain h | h | h := h
  · rw [headerWords, List.findSome?_cons, afterWord_append h]
  · rw [headerWords, List.findSome?_cons, afterWord_other "INPUT".toList h (by decide),
      List.findSome?_cons, afterWord_append h]
  · rw [headerWords, List.findSome?_cons, afterWord_other "INPUT".toList h (by decide),
      List.findSome?_cons, afterWord_other "OUTPUT".toList h (by decide), List.findSome?_cons,
      afterWord_append h]

/-- A character that is no small letter. -/
lemma toUpper_of_not_lower {ch : Char} (h : ¬ (97 ≤ ch.toNat ∧ ch.toNat ≤ 122)) : ch.toUpper = ch := by
  unfold Char.toUpper
  exact dif_neg fun hlow => h hlow

/-- No letter is a blank. -/
lemma not_isSpace_of_toUpper {ch : Char} (h : ch.toUpper ∈ ['I', 'O', 'E', '=']) :
    isSpace ch = false := by
  by_contra hspace
  have hlow : ¬ (97 ≤ ch.toNat ∧ ch.toNat ≤ 122) := by
    simp [isSpace] at hspace
    omega
  rw [toUpper_of_not_lower hlow] at h
  simp only [List.mem_cons, List.not_mem_nil, or_false] at h
  obtain rfl | rfl | rfl | rfl := h <;> exact hspace (by decide)

lemma dropWhile_blanks (ht : ∀ ch ∈ t, isSpace ch = true) (hs : ∀ ch ∈ s.head?, isSpace ch = false) :
    (t ++ s).dropWhile isSpace = s := by
  rw [List.dropWhile_append_of_pos ht]
  cases s with
  | nil => rfl
  | cons ch s => rw [List.dropWhile_cons_of_neg (by simp [hs ch rfl])]

lemma Block.upper_mem (b : Block) : b.word.map Char.toUpper ∈ headerWords := by
  have hmem := b.word_mem
  cases hkind : b.kind <;> simp [hkind, BlockKind.words] at hmem <;> simp [headerWords, hmem]

/-- A word of a header begins with a letter. -/
lemma not_isSpace_head (h : t.map Char.toUpper ∈ headerWords) (s : List Char) :
    ∀ ch ∈ (t ++ s).head?, isSpace ch = false := by
  cases t with
  | nil => exact absurd h (by decide)
  | cons first t =>
      intro ch hch
      obtain rfl : first = ch := Option.some.inj hch
      refine not_isSpace_of_toUpper ?_
      simp [headerWords] at h
      obtain h | h | h := h <;> simp [h.1]

/-- A header is read to its end. -/
lemma afterHeader_header (b : Block) (s : List Char) : afterHeader (b.header ++ s) = some s := by
  have hopen : afterWord "===".toList (b.header ++ s)
      = some (b.before ++ (b.word ++ (b.after ++ ("===".toList ++ s)))) := by
    rw [Block.header, List.append_assoc, List.append_assoc, List.append_assoc, List.append_assoc]
    exact afterWord_append (by decide) _
  have hclose : afterWord "===".toList ("===".toList ++ s) = some s := afterWord_append (by decide) s
  have hafter : ∀ ch ∈ ("===".toList ++ s).head?, isSpace ch = false := by
    intro ch hch
    obtain rfl : '=' = ch := Option.some.inj hch
    decide
  simp only [afterHeader, hopen, Option.bind_eq_bind, Option.bind_some,
    dropWhile_blanks b.before_blank (not_isSpace_head b.upper_mem _), findSome?_headerWords b.upper_mem,
    dropWhile_blanks b.after_blank hafter, hclose]

lemma exists_of_afterWord (h : afterWord word s = some t) :
    ∃ u, u.map Char.toUpper = word ∧ s = u ++ t := by
  rw [afterWord] at h
  split_ifs at h with hword
  obtain rfl := Option.some.inj h
  exact ⟨s.take word.length, hword, (List.take_append_drop _ _).symm⟩

lemma isAlpha_toUpper (ch : Char) : ch.toUpper.isAlpha = ch.isAlpha := by
  show (ch.toUpper.isUpper || ch.toUpper.isLower) = (ch.isUpper || ch.isLower)
  delta Char.isUpper Char.isLower Char.toUpper
  split <;> grind [UInt32.toNat_add, Char.toNat_val]

lemma eq_of_toUpper {ch : Char} (h : ch.toUpper = '=') : ch = '=' := by
  have halpha : (ch.isUpper || ch.isLower) = false := by
    show ch.isAlpha = false
    rw [← isAlpha_toUpper, h]
    decide
  rw [← h, toUpper_of_not_lower]
  rintro ⟨hge, hle⟩
  have hlower : ch.isLower = true := Bool.and_eq_true_iff.mpr ⟨decide_eq_true hge, decide_eq_true hle⟩
  simp [hlower] at halpha

lemma eq_of_map_toUpper {signs : List Char} (hsigns : ∀ ch ∈ signs, ch = '=')
    (h : t.map Char.toUpper = signs) : t = signs := by
  induction t generalizing signs with
  | nil => exact h
  | cons ch t ih =>
      subst h
      rw [List.map_cons, List.forall_mem_cons] at hsigns
      rw [List.map_cons, hsigns.1, eq_of_toUpper hsigns.1, ← ih hsigns.2 rfl]

/-- What is read as a header is one. -/
lemma exists_of_afterHeader (h : afterHeader s = some t) : ∃ b : Block, s = b.header ++ t := by
  simp only [afterHeader, Option.bind_eq_bind, Option.bind_eq_some_iff] at h
  obtain ⟨u, hopen, v, hword, hclose⟩ := h
  obtain ⟨word, hmem, hread⟩ := List.exists_of_findSome?_eq_some hword
  obtain ⟨o, ho, rfl⟩ := exists_of_afterWord hopen
  obtain ⟨w, hw, hu⟩ := exists_of_afterWord hread
  obtain ⟨c, hc, hv⟩ := exists_of_afterWord hclose
  have hkind : ∃ kind : BlockKind, w.map Char.toUpper ∈ kind.words := by
    rw [hw]
    simp only [headerWords, List.mem_cons, List.not_mem_nil, or_false] at hmem
    obtain rfl | rfl | rfl := hmem
    · exact ⟨.input, by decide⟩
    · exact ⟨.output, by decide⟩
    · exact ⟨.output, by decide⟩
  obtain ⟨kind, hkind⟩ := hkind
  refine ⟨⟨kind, u.takeWhile isSpace, w, v.takeWhile isSpace, [], ?_, ?_, hkind⟩, ?_⟩
  · exact fun ch hch => List.mem_takeWhile_imp hch
  · exact fun ch hch => List.mem_takeWhile_imp hch
  · have hequals : ∀ ch ∈ "===".toList, ch = '=' := by simp
    rw [eq_of_map_toUpper hequals ho, Block.header, List.append_assoc, List.append_assoc, List.append_assoc,
      List.append_assoc, ← eq_of_map_toUpper hequals hc, ← hv, List.takeWhile_append_dropWhile, ← hu,
      List.takeWhile_append_dropWhile]

lemma afterHeaderLine_eq_none (h : ¬ BeginsHeaderLine s) : afterHeaderLine s = none := by
  rw [Option.eq_none_iff_forall_ne_some]
  intro rest hrest
  unfold afterHeaderLine at hrest
  split at hrest
  · obtain ⟨b, rfl⟩ := exists_of_afterHeader hrest
    exact h ⟨b, rest, rfl⟩
  · cases hrest

lemma segmentsAfter_length (t s : List Char) : segmentsAfter t.length (t ++ s) = segmentsAfter 0 s := by
  induction t with
  | nil => rfl
  | cons ch t ih => exact ih

/-- A body in which no header begins. -/
lemma segmentsAfter_append {body rest : List Char}
    (h : ∀ s, s <:+ body → s ≠ [] → ¬ BeginsHeaderLine (s ++ rest)) :
    segmentsAfter 0 (body ++ rest) = (body ++ (segmentsAfter 0 rest).1, (segmentsAfter 0 rest).2) := by
  induction body with
  | nil => rfl
  | cons ch body ih =>
      have hline := afterHeaderLine_eq_none (h _ List.suffix_rfl (List.cons_ne_nil ch body))
      rw [List.cons_append] at hline ⊢
      rw [segmentsAfter, hline, ih fun s hs => h s (hs.trans (List.suffix_cons ch body))]
      rfl

/-- The blocks are cut at their headers. -/
lemma segmentsAfter_body (h : HeaderFree (b :: blocks)) :
    segmentsAfter 0 (b.body ++ following blocks) = (b.body, blocks.map Block.body) := by
  have hfollowing : segmentsAfter 0 (following blocks) = ([], blocks.map Block.body) := by
    induction blocks generalizing b with
    | nil => rfl
    | cons b' blocks ih =>
        have hfollowing : following (b' :: blocks)
            = '\n' :: (b'.header ++ (b'.body ++ following blocks)) := by simp [following]
        have hline : afterHeaderLine ('\n' :: (b'.header ++ (b'.body ++ following blocks)))
            = some (b'.body ++ following blocks) := afterHeader_header b' _
        have hlength : (b'.header ++ (b'.body ++ following blocks)).length
            - (b'.body ++ following blocks).length = b'.header.length := by simp
        rw [hfollowing, segmentsAfter, hline]
        dsimp only
        rw [hlength, segmentsAfter_length, segmentsAfter_append h.2.1, ih h.2, List.append_nil]
        rfl
  rw [segmentsAfter_append h.1, hfollowing, List.append_nil]

lemma beginsHeaderLine_iff : BeginsHeaderLine s ↔ (afterHeaderLine s).isSome := by
  constructor
  · rintro ⟨b, rest, rfl⟩
    have hline : afterHeaderLine ('\n' :: (b.header ++ rest)) = some rest := afterHeader_header b rest
    rw [hline]
    rfl
  · intro h
    by_contra hnot
    rw [afterHeaderLine_eq_none hnot] at h
    cases h

instance (s : List Char) : Decidable (BeginsHeaderLine s) := decidable_of_iff _ beginsHeaderLine_iff.symm

instance decidableHeaderFree : (blocks : List Block) → Decidable (HeaderFree blocks)
  | [] => .isTrue trivial
  | b :: blocks =>
      have := decidableHeaderFree blocks
      decidable_of_iff ((∀ s ∈ b.body.tails, s ≠ [] → ¬ BeginsHeaderLine (s ++ following blocks))
        ∧ HeaderFree blocks) (by simp only [HeaderFree, List.mem_tails])

/-- **The text of blocks is cut into their bodies.** -/
theorem splitHeaders_written (h : HeaderFree (b :: blocks)) :
    splitHeaders (written (b :: blocks)) = [] :: (b :: blocks).map Block.body := by
  have hlength : (b.header ++ (b.body ++ following blocks)).length - (b.body ++ following blocks).length
      = b.header.length := by simp
  rw [splitHeaders, written, afterHeader_header]
  dsimp only
  rw [hlength, segmentsAfter_length, segmentsAfter_body h]
  rfl

end Headers

/-! ## Result -/

section Result

variable {N : Type} (numbers : Numbers N) (existingCount : ℕ)

lemma pairSegments_map (count : ℕ) {l : List (List Char)} (h : ∀ a ∈ l, a ≠ []) :
    (pairSegments numbers existingCount count l).map (fun t => (t.input, t.expected)) = pairUp l := by
  induction l using pairUp.induct generalizing count with
  | case1 a b l ih =>
      have hab : a ≠ [] ∧ b ≠ [] := ⟨h a (by simp), h b (by simp)⟩
      rw [pairSegments, if_pos hab, List.map_cons, ih _ fun c hc => h c (by simp [hc]), pairUp]
  | case2 l hl =>
      rw [pairSegments, pairUp]
      · rfl
      · exact hl
      · exact fun a b l' hl' => hl a b l' hl'

/-- The pairs are those of what is left of the segments. -/
lemma parseBlocks_map (trimmed : List Char) :
    (parseBlocks numbers existingCount trimmed).testCases.map (fun t => (t.input, t.expected))
      = pairUp (cleaned trimmed) := by
  have hmap := pairSegments_map numbers existingCount 0 (l := cleaned trimmed)
    (fun a ha => by simpa [cleaned] using (List.mem_filter.mp ha).2)
  rw [parseBlocks]
  split_ifs with hlong
  · dsimp only
    split_ifs with hpairs
    · exact hmap
    · have hnone := List.length_eq_zero_iff.mp (Nat.eq_zero_of_not_pos hpairs)
      rw [← hmap, hnone]
      rfl
  · -- a single segment makes no pair
    have hnone : (pairUp (cleaned trimmed)).length = 0 := by
      rw [length_pairUp]
      omega
    rw [List.length_eq_zero_iff.mp hnone]
    rfl

/-- A text of blocks is no document. -/
lemma parse_written (b : Block) (blocks : List Block) : Json.parse (written (b :: blocks)) = none := by
  have hwritten : ∃ s, written (b :: blocks) = '=' :: s := ⟨_, rfl⟩
  obtain ⟨s, hs⟩ := hwritten
  rw [hs]
  exact Json.parse_of_other (by decide)

/-- **When the tests are the inputs with the outputs behind them**: where the blocks, as pairs, are
aligned. -/
theorem bulk_pairs_iff {rawText : List Char} {blocks : List Block} (h : Delimited rawText blocks) :
    PairsCorrectly numbers existingCount rawText blocks ↔ Aligned (units blocks) := by
  rw [PairsCorrectly, ← whole_units, ← pairUp_clean_iff, clean_units, parseBulkTestCases, h.text]
  cases blocks with
  | nil => rfl
  | cons b blocks =>
      have hne : written (b :: blocks) ≠ [] := by simp [written, Block.header]
      have hcleaned : cleaned (written (b :: blocks))
          = ((b :: blocks).map Block.trimmed).filter (· ≠ []) := by
        have htrim : trim [] = [] := rfl
        rw [cleaned, splitHeaders_written h.headerFree, List.map_cons, htrim, List.map_map]
        rfl
      rw [if_neg hne, parse_written]
      dsimp only
      rw [parseBlocks_map, hcleaned]

end Result

/-- A block written as in the message of the parser. -/
def plainBlock (kind : BlockKind) (body : String) : Block where
  kind := kind
  before := [' ']
  word := match kind with
    | .input => "INPUT".toList
    | .output => "OUTPUT".toList
  after := [' ']
  body := body.toList
  before_blank := List.forall_mem_singleton.mpr rfl
  after_blank := List.forall_mem_singleton.mpr rfl
  word_mem := by cases kind <;> decide

/-- Numbers that are all 0. -/
def noNumbers : Numbers ℕ := ⟨0, id, fun _ => 0⟩

def wholeBlocks : List Block :=
  [plainBlock .input "\n1 2", plainBlock .output "\n3", plainBlock .input "\n", plainBlock .output "\n4"]

theorem bulk_pairs_whole :
    Delimited (written wholeBlocks) wholeBlocks
      ∧ (PairsCorrectly noNumbers 0 (written wholeBlocks) wholeBlocks ↔ Aligned (units wholeBlocks)) := by
  have h : Delimited (written wholeBlocks) wholeBlocks := ⟨by decide +kernel, by decide +kernel⟩
  exact ⟨h, bulk_pairs_iff noNumbers 0 h⟩

/-- The first input is empty. -/
def shiftedBlocks : List Block :=
  [plainBlock .input "", plainBlock .output "\n1", plainBlock .input "\n2", plainBlock .output "\n3"]

/-- **An empty input shifts the pairs**: 1, the output of nothing, is paired with the input 2. -/
theorem bulk_shifts :
    ¬ ∀ (rawText : List Char) (blocks : List Block), Delimited rawText blocks →
      (blocks.map Block.kind).IsChain (· ≠ ·) → PairsCorrectly noNumbers 0 rawText blocks := by
  intro h
  have hpairs := h (written shiftedBlocks) shiftedBlocks ⟨by decide +kernel, by decide +kernel⟩ (by decide)
  revert hpairs
  rw [PairsCorrectly]
  decide +kernel

end Problem

end Labyrithm
