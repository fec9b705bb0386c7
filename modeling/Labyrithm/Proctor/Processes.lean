import Labyrithm.Proctor.Signals
import Labyrithm.Text.Words

/-!
# Terms on the two sides

`tokenize` and `matches_term` of `competitor-desktop/src-tauri/src/signals/processes.rs`, lines 183–196,
which are to do what `tokenize` and `matchesTerm` of `backend/internal/proctor/evaluator.go` do.  The
server lower-cases first and then splits, the agent splits first and lower-cases the letters of ASCII.

* `matchesTerm_eq` — the two matchers are the same function of tokens.
* `isWord_toLower` — what the server keeps: what the agent keeps, and two characters of which it makes
  letters of ASCII.
* **`agree_iff`** — the two sides agree on a candidate and a term exactly where none of these two
  characters is in either.
-/

namespace Labyrithm

namespace Processes

open Text

/-! ## The agent -/

/-- `tokenize` of the agent. -/
def tokenize (value : String) : List (List Char) :=
  (words Char.isAlphanum value.toList).map fun part => part.map Char.toLower

/-- `matches_term`. -/
def matches_term (candidate term : List (List Char)) : Bool :=
  if term = [] ∨ candidate.length < term.length then false
  else (windows term.length candidate).any fun window => window = term

/-! ## The matchers -/

variable {candidate term : List (List Char)}

/-- What both matchers ask first; a term that is too long is not in the candidate anyway. -/
lemma guarded_iff {found : Bool} (h : term ≠ [] → (found = true ↔ term <:+: candidate)) :
    (if term = [] ∨ candidate.length < term.length then false else found) = true ↔
      term ≠ [] ∧ term <:+: candidate := by
  split_ifs with hnone
  · constructor
    · intro hfalse
      cases hfalse
    · rintro ⟨hne, hterm⟩
      have hle := hterm.length_le
      exact absurd (hnone.resolve_left hne) (not_lt.mpr hle)
  · have hne : term ≠ [] := fun heq => hnone (Or.inl heq)
    rw [h hne, and_iff_right hne]

lemma matches_term_iff : matches_term candidate term = true ↔ term ≠ [] ∧ term <:+: candidate := by
  refine guarded_iff fun hne => ?_
  simp [mem_windows (List.length_pos_iff.mpr hne)]

lemma matchesTerm_iff : Proctor.matchesTerm candidate term = true ↔ term ≠ [] ∧ term <:+: candidate := by
  refine guarded_iff fun _ => ?_
  simp only [List.any_eq_true, List.mem_range, decide_eq_true_eq]
  constructor
  · rintro ⟨i, -, htake⟩
    rw [← htake]
    exact (List.take_prefix _ _).isInfix.trans (List.drop_suffix i candidate).isInfix
  · rintro ⟨before, after, rfl⟩
    refine ⟨before.length, ?_, ?_⟩
    · simp only [List.length_append]
      omega
    · rw [List.append_assoc, List.drop_left, List.take_left]

/-- The two matchers are the same function. -/
theorem matchesTerm_eq (candidate term : List (List Char)) :
    Proctor.matchesTerm candidate term = matches_term candidate term := by
  rw [Bool.eq_iff_iff, matchesTerm_iff, matches_term_iff]

/-! ## The tokens -/

/-- A character of which `strings.ToLower` makes a letter of ASCII, and which is none. -/
def Foreign (ch : Char) : Prop := ch = 'İ' ∨ ch = '\u212a'

instance (ch : Char) : Decidable (Foreign ch) := inferInstanceAs (Decidable (_ ∨ _))

/-- A character as `strings.ToLower` leaves it. -/
def lower (ch : Char) : Char := if ch = 'İ' then 'i' else if ch = '\u212a' then 'k' else ch.toLower

lemma lower_of_not_foreign {ch : Char} (h : ¬ Foreign ch) : lower ch = ch.toLower := by
  rw [lower, if_neg fun heq => h (Or.inl heq), if_neg fun heq => h (Or.inr heq)]

/-- Lower-casing the letters of ASCII keeps letters and digits what they are. -/
lemma isWord_toLower (ch : Char) : Proctor.isWord ch.toLower = ch.isAlphanum := by
  show (ch.toLower.isLower || ch.toLower.isDigit) = (ch.isUpper || ch.isLower || ch.isDigit)
  delta Char.isUpper Char.isLower Char.isDigit Char.toLower
  split <;> grind [UInt32.toNat_add, Char.toNat_val]

/-- The server keeps what the agent keeps, and these two. -/
lemma isWord_lower (ch : Char) :
    Proctor.isWord (lower ch) = (ch.isAlphanum || decide (Foreign ch)) := by
  by_cases hforeign : Foreign ch
  · rcases hforeign with rfl | rfl <;> decide
  · simp [lower_of_not_foreign hforeign, isWord_toLower, hforeign]

/-- `strings.FieldsFunc` finds the words, and begins with the one that it is reading. -/
lemma fields_eq (word s : List Char) :
    Proctor.fields word s =
      ((s.splitOnP fun ch => !Proctor.isWord ch).modifyHead (word ++ ·)).filter fun part => part ≠ [] := by
  induction s generalizing word with
  | nil => by_cases hword : word = [] <;> simp [Proctor.fields, List.splitOnP_nil, hword]
  | cons ch s ih =>
      obtain ⟨part, parts, hparts⟩ := List.exists_cons_of_ne_nil
        (List.splitOnP_ne_nil (fun ch => !Proctor.isWord ch) s)
      rw [Proctor.fields, List.splitOnP_cons_eq_if_modifyHead]
      cases hch : Proctor.isWord ch with
      | true => simp [ih, hparts]
      | false => by_cases hword : word = [] <;> simp [ih, hparts, hword]

/-- The tokens of the server: the words of the characters, lower-cased. -/
lemma server_tokenize (value : String) :
    Proctor.tokenize value = words Proctor.isWord (value.toList.map lower) := by
  show Proctor.fields [] (value.toList.map lower) = _
  rw [fields_eq, words]
  cases (value.toList.map lower).splitOnP fun ch => !Proctor.isWord ch <;> rfl

/-- No character of the string is foreign. -/
def Plain (value : String) : Prop := ∀ ch ∈ value.toList, ¬ Foreign ch

instance (value : String) : Decidable (Plain value) :=
  inferInstanceAs (Decidable (∀ ch ∈ value.toList, ¬ Foreign ch))

/-- The server keeps one character more for each that is foreign. -/
lemma length_flatten_tokenize (value : String) :
    (Proctor.tokenize value).flatten.length =
      (tokenize value).flatten.length + value.toList.countP fun ch => Foreign ch := by
  have hagent : (tokenize value).flatten.length = value.toList.countP Char.isAlphanum := by
    rw [tokenize, ← List.map_flatten, flatten_words, List.length_map, List.countP_eq_length_filter]
  rw [server_tokenize, flatten_words, hagent, ← List.countP_eq_length_filter, List.countP_map]
  induction value.toList with
  | nil => rfl
  | cons ch s ih =>
      have hdisj : Foreign ch → ch.isAlphanum = false := by
        rintro (rfl | rfl) <;> decide
      rw [List.countP_cons, List.countP_cons, List.countP_cons, ih, Function.comp_apply, isWord_lower]
      by_cases hforeign : Foreign ch
      · simp only [hforeign, hdisj hforeign, decide_true, Bool.or_true, if_true]
        simp
        omega
      · simp only [hforeign, decide_false, Bool.or_false]
        simp
        omega

/-- Where no character is foreign the two sides find the same tokens, and nowhere else. -/
theorem tokenize_eq_iff (value : String) : Proctor.tokenize value = tokenize value ↔ Plain value := by
  constructor
  · intro heq ch hch hforeign
    have hlen := length_flatten_tokenize value
    have hpos : 0 < value.toList.countP fun ch => Foreign ch :=
      List.countP_pos_iff.mpr ⟨ch, hch, by simpa using hforeign⟩
    rw [heq] at hlen
    omega
  · intro hplain
    have hlower : value.toList.map lower = value.toList.map Char.toLower :=
      List.map_congr_left fun ch hch => lower_of_not_foreign (hplain ch hch)
    rw [server_tokenize, hlower]
    exact words_map fun ch _ => isWord_toLower ch

/-! ## The result -/

/-- The two sides find the same tokens in both strings, and the same match. -/
def Agree (candidate term : String) : Prop :=
  Proctor.tokenize candidate = tokenize candidate ∧ Proctor.tokenize term = tokenize term ∧
    Proctor.matchesTerm (Proctor.tokenize candidate) (Proctor.tokenize term) =
      matches_term (tokenize candidate) (tokenize term)

/-- **The two sides agree exactly on strings without foreign characters.** -/
theorem agree_iff (candidate term : String) :
    Agree candidate term ↔ Plain candidate ∧ Plain term := by
  constructor
  · rintro ⟨hcandidate, hterm, -⟩
    exact ⟨(tokenize_eq_iff candidate).mp hcandidate, (tokenize_eq_iff term).mp hterm⟩
  · rintro ⟨hcandidate, hterm⟩
    have hc := (tokenize_eq_iff candidate).mpr hcandidate
    have ht := (tokenize_eq_iff term).mpr hterm
    refine ⟨hc, ht, ?_⟩
    rw [hc, ht, matchesTerm_eq]

/-- A name that the server matches and the agent does not, and one the other way round. -/
theorem agree_broken :
    ¬ Agree "\u212aite" "kite" ∧ ¬ Agree "İda" "da" ∧
    Proctor.matchesTerm (Proctor.tokenize "\u212aite") (Proctor.tokenize "kite") = true ∧
    matches_term (tokenize "\u212aite") (tokenize "kite") = false ∧
    Proctor.matchesTerm (Proctor.tokenize "İda") (Proctor.tokenize "da") = false ∧
    matches_term (tokenize "İda") (tokenize "da") = true := by
  refine ⟨?_, ?_, ?_, ?_, ?_, ?_⟩
  · rintro ⟨-, -, hmatch⟩
    revert hmatch
    decide +kernel
  · rintro ⟨-, -, hmatch⟩
    revert hmatch
    decide +kernel
  all_goals decide +kernel

end Processes

end Labyrithm
