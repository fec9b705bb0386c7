import Labyrithm.Go.Float
import Labyrithm.Js.Groups
import Labyrithm.Js.Strings
import Mathlib.Algebra.Order.BigOperators.Group.List

/-!
# Files of tests

`matchTestFilePairs` of `admin-frontend/src/lib/testcase-utils.ts` makes pairs of uploaded files whose
names have the same key.  A group of files with one key has two places, one for the input and one for the
expected output: the first file takes the place of its name, the second one the place that is left,
whatever its name says, and for a third one there is none.

* `place` — a file of a group takes its place.
* `slots_two` — who is in the two places of a group of two or more.
* `keepsAll_iff` — nothing is lost where no key has three files.

**`matching_keeps_iff`** — every file is matched or reported, and none in the other one's place, exactly
where each group is `Pairable` (`third_lost`).
-/

namespace Labyrithm

namespace Problem

open Js

/-! ## Names -/

/-- `File`, with a content of some type. -/
structure File (β : Type) where
  name : List Char
  size : ℕ
  blob : β
  deriving DecidableEq, Repr

/-- What `normalizeKey` makes of a name; there is no `num` where it is infinite. -/
structure NormalizedKey where
  base : List Char
  isInput : Bool
  isOutput : Bool
  num : Option ℚ

/-- `parseInt` of decimal digits, which is infinite from 2^1024 on. -/
def parseInt (digits : List Char) : Option ℚ :=
  let num := Go.float64 (digits.foldl (fun n ch => 10 * n + (ch.toNat - '0'.toNat)) 0 : ℕ)
  if num < 2 ^ 1024 then some num else none

/-- `match(/\d+/)`. -/
def firstDigits (s : List Char) : Option (List Char) :=
  match (s.dropWhile fun ch => !ch.isDigit).takeWhile Char.isDigit with
  | [] => none
  | digits => some digits

def extensions : List (List Char) :=
  [".txt".toList, ".in".toList, ".out".toList, ".ans".toList, ".dat".toList]

/-- `replace(/\.(txt|in|out|ans|dat)$/i, "")`. -/
def dropExtension (s : List Char) : List Char :=
  (extensions.findSome? fun extension =>
    let n := s.length - extension.length
    if (s.drop n).map Char.toLower = extension then some (s.take n) else none).getD s

/-- The words for the roles of files. -/
def roleWords : List (List Char) :=
  ["input".toList, "output".toList, "expected".toList, "answer".toList, "in".toList, "out".toList,
    "ans".toList]

/-- A character of `[._-]`. -/
def isSeparator (ch : Char) : Bool := ch = '.' || ch = '_' || ch = '-'

/-- What follows a word for a role, and the separator behind it. -/
def afterRole (s : List Char) : Option (List Char) :=
  roleWords.findSome? fun word =>
    if (s.take word.length).map Char.toLower = word then
      match s.drop word.length with
      | [] => some []
      | ch :: s => if isSeparator ch then some s else none
    else none

/-- A text with `_` for its roles behind separators; the first characters belong to a role. -/
def replaceRolesAfter : ℕ → List Char → List Char
  | _, [] => []
  | n + 1, _ :: s => replaceRolesAfter n s
  | 0, ch :: s =>
      match if isSeparator ch then afterRole s else none with
      | some rest => '_' :: replaceRolesAfter (s.length - rest.length) s
      | none => ch :: replaceRolesAfter 0 s

/-- `replace(/(?:^|[._-])(input|output|expected|answer|in|out|ans)(?:[._-]|$)/gi, "_")`. -/
def replaceRoles (s : List Char) : List Char :=
  match afterRole s with
  | some rest => '_' :: replaceRolesAfter (s.length - rest.length) s
  | none => replaceRolesAfter 0 s

/-- `replace(/_+/g, "_")`. -/
def collapse : List Char → List Char
  | '_' :: '_' :: s => collapse ('_' :: s)
  | ch :: s => ch :: collapse s
  | [] => []

/-- `replace(/^_+|_+$/g, "")`. -/
def strip (s : List Char) : List Char := (s.dropWhile (· = '_')).rdropWhile (· = '_')

def normalizeKey (casing : Casing) (filename : List Char) : NormalizedKey :=
  let lower := toLowerCase casing filename
  let numMatch := firstDigits lower
  let base := strip (collapse (replaceRoles (dropExtension lower)))
  { base :=
      if base ≠ [] then base
      else match numMatch with
        | some digits => "case_".toList ++ digits
        | none => filename
    isInput := includes lower "in".toList && !includes lower "out".toList && !includes lower "ans".toList
    isOutput := includes lower "out".toList || includes lower "ans".toList ||
      includes lower "expected".toList
    num :=
      match numMatch with
      | some digits => parseInt digits
      | none => some 999999 }

/-! ## The function -/

/-- An entry of the map. -/
structure FileGroup (β : Type) where
  input : Option (File β)
  expected : Option (File β)
  sortKey : Option ℚ

structure PairedTestFiles (β : Type) where
  baseName : List Char
  inputFile : File β
  expectedFile : File β
  totalSize : ℕ

structure MatchedFiles (β : Type) where
  pairs : List (PairedTestFiles β)
  unmatched : List (List Char)

section Match

variable {β : Type} (casing : Casing) (localeCompare : List Char → List Char → ℤ)

def keyOf (file : File β) : List Char := (normalizeKey casing file.name).base

def isInput (file : File β) : Bool := (normalizeKey casing file.name).isInput

def isOutput (file : File β) : Bool := (normalizeKey casing file.name).isOutput

def emptyGroup (file : File β) : FileGroup β :=
  { input := none, expected := none, sortKey := (normalizeKey casing file.name).num }

/-- A file takes its place in the entry of its key. -/
def place (entry : FileGroup β) (file : File β) : FileGroup β :=
  if isInput casing file && entry.input.isNone then { entry with input := some file }
  else if isOutput casing file && entry.expected.isNone then { entry with expected := some file }
  else if entry.input.isNone then { entry with input := some file }
  else if entry.expected.isNone then { entry with expected := some file }
  else entry

/-- `a.sortKey - b.sortKey || a.key.localeCompare(b.key)` is not above 0; a difference of infinities is
not a number, and so none that decides. -/
def notAfter (a b : List Char × FileGroup β) : Bool :=
  match a.2.sortKey, b.2.sortKey with
  | some x, some y => if x = y then localeCompare a.1 b.1 ≤ 0 else x < y
  | some _, none => true
  | none, some _ => false
  | none, none => localeCompare a.1 b.1 ≤ 0

def groups (files : List (File β)) : List (List Char × FileGroup β) :=
  group (keyOf casing) (emptyGroup casing) (place casing) files

def sortedGroups (files : List (File β)) : List (List Char × FileGroup β) :=
  (groups casing files).mergeSort (notAfter localeCompare)

/-- The files in the places of an entry. -/
def FileGroup.files (entry : FileGroup β) : List (File β) := entry.input.toList ++ entry.expected.toList

/-- The pair of a group. -/
def pairOf (g : List Char × FileGroup β) : Option (PairedTestFiles β) := do
  let input ← g.2.input
  let expected ← g.2.expected
  return { baseName := g.1, inputFile := input, expectedFile := expected,
           totalSize := input.size + expected.size }

/-- The files of a group that is no pair. -/
def leftOver (g : List Char × FileGroup β) : List (File β) :=
  if (pairOf g).isSome then [] else g.2.files

def matchTestFilePairs (files : List (File β)) : MatchedFiles β :=
  if files = [] then { pairs := [], unmatched := [] }
  else
    { pairs := (sortedGroups casing localeCompare files).filterMap pairOf
      unmatched :=
        (sortedGroups casing localeCompare files).flatMap fun g => (leftOver g).map File.name }

end Match

/-! ## The property -/

section Spec

variable {β : Type} (casing : Casing)

/-- The name is that of an input, and not that of an output. -/
def InputOnly (file : File β) : Prop := isInput casing file = true ∧ isOutput casing file = false

/-- The name is that of an output, and not that of an input. -/
def OutputOnly (file : File β) : Prop := isInput casing file = false ∧ isOutput casing file = true

instance (file : File β) : Decidable (InputOnly casing file) := inferInstanceAs (Decidable (_ ∧ _))

instance (file : File β) : Decidable (OutputOnly casing file) := inferInstanceAs (Decidable (_ ∧ _))

variable {casing} in
lemma OutputOnly.not_inputOnly {file : File β} (h : OutputOnly casing file) : ¬ InputOnly casing file :=
  fun hin => Bool.false_ne_true (hin.2.symm.trans h.2)

def PairedTestFiles.files (pair : PairedTestFiles β) : List (File β) :=
  [pair.inputFile, pair.expectedFile]

/-- Every file is once in a pair or among the files whose names are reported. -/
def KeepsAll (matched : MatchedFiles β) (files : List (File β)) : Prop :=
  ∃ rest : List (File β), rest.map File.name = matched.unmatched ∧
    (matched.pairs.flatMap PairedTestFiles.files ++ rest).Perm files

/-- No file is in a place against its name. -/
def KeepsRoles (matched : MatchedFiles β) : Prop :=
  ∀ pair ∈ matched.pairs, ¬ OutputOnly casing pair.inputFile ∧ ¬ InputOnly casing pair.expectedFile

/-- The files of a key are not more than two, and the name of the second one is not against the place
that the first one leaves. -/
def Pairable : List (File β) → Prop
  | [] => True
  | [_] => True
  | [first, second] =>
      if OutputOnly casing first then ¬ OutputOnly casing second else ¬ InputOnly casing second
  | _ :: _ :: _ :: _ => False

instance : DecidablePred (Pairable (β := β) casing)
  | [] | [_] => isTrue trivial
  | [_, _] => inferInstanceAs (Decidable (ite _ _ _))
  | _ :: _ :: _ :: _ => isFalse not_false

/-- The files of the key of a file. -/
def sameKey (files : List (File β)) (key : List Char) : List (File β) :=
  files.filter fun file => keyOf casing file = key

/-- All groups are pairable. -/
def Matchable (files : List (File β)) : Prop :=
  ∀ file ∈ files, Pairable casing (sameKey casing files (keyOf casing file))

instance (files : List (File β)) : Decidable (Matchable casing files) :=
  inferInstanceAs (Decidable (∀ _ ∈ files, _))

end Spec

/-! ## Groups -/

section Slots

variable {β : Type} {casing : Casing} {first second : File β} {files : List (File β)}

variable (casing) in
/-- The entry that the files of one key leave. -/
def entryOf : List (File β) → FileGroup β
  | [] => { input := none, expected := none, sortKey := none }
  | first :: files => (first :: files).foldl (place casing) (emptyGroup casing first)

lemma groups_eq (files : List (File β)) :
    groups casing files = (firsts (files.map (keyOf casing))).map fun key =>
      (key, entryOf casing (sameKey casing files key)) := by
  refine group_eq (fun _ => rfl) (fun files file hne => ?_) files
  cases files with
  | nil => exact absurd rfl hne
  | cons first files =>
      rw [List.cons_append, entryOf, entryOf, ← List.cons_append, List.foldl_append]
      rfl

lemma place_first (file : File β) :
    place casing (emptyGroup casing file) file
      = if OutputOnly casing file then { emptyGroup casing file with expected := some file }
        else { emptyGroup casing file with input := some file } := by
  cases hin : isInput casing file <;> cases hout : isOutput casing file <;>
    simp [place, emptyGroup, OutputOnly, hin, hout]

/-- A file does not move once it has its place, and where both are taken there is none. -/
lemma foldl_place_full {entry : FileGroup β} (hinput : entry.input = some first)
    (hexpected : entry.expected = some second) (files : List (File β)) :
    files.foldl (place casing) entry = entry := by
  induction files with
  | nil => rfl
  | cons file files ih =>
      have hplace : place casing entry file = entry := by simp [place, hinput, hexpected]
      rw [List.foldl_cons, hplace, ih]

lemma slots_one (file : File β) : (entryOf casing [file]).files = [file] := by
  rw [entryOf, List.foldl_cons, place_first]
  split_ifs <;> rfl

variable (casing) in
/-- **Who is in the two places** of a group. -/
lemma slots_two (first second : File β) (files : List (File β)) :
    (entryOf casing (first :: second :: files)).input
        = some (if OutputOnly casing first then second else first) ∧
      (entryOf casing (first :: second :: files)).expected
        = some (if OutputOnly casing first then first else second) := by
  rw [entryOf, List.foldl_cons, place_first, List.foldl_cons]
  split_ifs with hout
  · have hplace : place casing { emptyGroup casing first with expected := some first } second
        = { emptyGroup casing first with input := some second, expected := some first } := by
      simp [place, emptyGroup]
    rw [hplace, foldl_place_full rfl rfl]
    exact ⟨rfl, rfl⟩
  · have hplace : place casing { emptyGroup casing first with input := some first } second
        = { emptyGroup casing first with input := some first, expected := some second } := by
      simp [place, emptyGroup]
    rw [hplace, foldl_place_full rfl rfl]
    exact ⟨rfl, rfl⟩

end Slots

/-! ## Results -/

section Results

variable {β : Type} {casing : Casing} {localeCompare : List Char → List Char → ℤ} {files : List (File β)}

lemma pairOf_of_full {g : List Char × FileGroup β} {input expected : File β}
    (hinput : g.2.input = some input) (hexpected : g.2.expected = some expected) :
    pairOf g = some { baseName := g.1, inputFile := input, expectedFile := expected,
                      totalSize := input.size + expected.size } := by
  rw [pairOf, hinput, hexpected]
  rfl

/-- What is in the places of groups is in the pairs, or left over. -/
lemma slots_perm (gs : List (List Char × FileGroup β)) :
    ((gs.filterMap pairOf).flatMap PairedTestFiles.files ++ gs.flatMap leftOver).Perm
      (gs.flatMap fun g => g.2.files) := by
  have hpairs : (gs.filterMap pairOf).flatMap PairedTestFiles.files
      = gs.flatMap fun g => ((pairOf g).map PairedTestFiles.files).getD [] := by
    induction gs with
    | nil => rfl
    | cons g gs ih => cases hg : pairOf g <;> simp [hg, ih]
  rw [hpairs]
  refine (List.flatMap_append_perm _ _ _).trans (List.Perm.of_eq (List.flatMap_congr fun g _ => ?_))
  obtain ⟨key, input, expected, sortKey⟩ := g
  cases input <;> cases expected <;> rfl

/-- The entries of a list of files, in the order of the result. -/
lemma sortedGroups_perm (files : List (File β)) :
    (sortedGroups casing localeCompare files).Perm (groups casing files) := List.mergeSort_perm _ _

lemma sortedGroups_nil : sortedGroups casing localeCompare ([] : List (File β)) = [] := by
  simp [sortedGroups, groups, group]

lemma match_pairs (files : List (File β)) :
    (matchTestFilePairs casing localeCompare files).pairs
      = (sortedGroups casing localeCompare files).filterMap pairOf := by
  rw [matchTestFilePairs]
  split_ifs with hnil
  · rw [hnil, sortedGroups_nil]
    rfl
  · rfl

lemma match_unmatched (files : List (File β)) :
    (matchTestFilePairs casing localeCompare files).unmatched
      = ((sortedGroups casing localeCompare files).flatMap leftOver).map File.name := by
  rw [matchTestFilePairs, List.map_flatMap]
  split_ifs with hnil
  · rw [hnil, sortedGroups_nil]
    rfl
  · rfl

variable (casing localeCompare) in
/-- What is in the pairs or left over, group by group. -/
lemma match_perm (files : List (File β)) :
    ((matchTestFilePairs casing localeCompare files).pairs.flatMap PairedTestFiles.files
        ++ (sortedGroups casing localeCompare files).flatMap leftOver).Perm
      ((firsts (files.map (keyOf casing))).flatMap fun key =>
        (entryOf casing (sameKey casing files key)).files) := by
  rw [match_pairs]
  refine (slots_perm _).trans ((sortedGroups_perm files).flatMap_right _ |>.trans (List.Perm.of_eq ?_))
  rw [groups_eq, List.flatMap_map]

lemma slots_length (l : List (File β)) : (entryOf casing l).files.length = min 2 l.length := by
  match l with
  | [] => rfl
  | [file] => rw [slots_one, List.length_singleton, min_eq_right (by omega)]
  | first :: second :: files =>
      obtain ⟨hinput, hexpected⟩ := slots_two casing first second files
      rw [FileGroup.files, hinput, hexpected, List.length_cons, List.length_cons, min_eq_left (by omega)]
      rfl

lemma slots_perm_self {l : List (File β)} (h : l.length ≤ 2) : (entryOf casing l).files.Perm l := by
  match l with
  | [] => exact List.Perm.refl _
  | [file] => rw [slots_one]
  | [first, second] =>
      obtain ⟨hinput, hexpected⟩ := slots_two casing first second []
      rw [FileGroup.files, hinput, hexpected]
      split_ifs
      · exact List.Perm.swap first second []
      · exact List.Perm.refl _

/-- **Nothing is lost** where no key has three files. -/
theorem keepsAll_iff :
    KeepsAll (matchTestFilePairs casing localeCompare files) files
      ↔ ∀ key ∈ firsts (files.map (keyOf casing)), (sameKey casing files key).length ≤ 2 := by
  have hall := flatMap_filter_perm (keyOf casing) files
  have hmatch := match_perm casing localeCompare files
  constructor
  · rintro ⟨rest, hrest, hperm⟩ key hkey
    by_contra hthree
    -- as many files as there are places for
    have hrest : rest.length = ((sortedGroups casing localeCompare files).flatMap leftOver).length := by
      simpa [match_unmatched] using congrArg List.length hrest
    have hcount := hmatch.length_eq
    rw [List.length_append, ← hrest, ← List.length_append, hperm.length_eq, ← hall.length_eq,
      List.length_flatMap, List.length_flatMap] at hcount
    refine absurd hcount.symm (ne_of_lt (List.sum_lt_sum _ _ (fun key _ => ?_) ⟨key, hkey, ?_⟩))
    · rw [slots_length]
      exact min_le_right _ _
    · rw [slots_length]
      exact min_lt_of_left_lt (not_le.mp hthree)
  · intro h
    refine ⟨_, (match_unmatched files).symm, hmatch.trans (List.Perm.trans ?_ hall)⟩
    exact List.Perm.flatMap_left _ fun key hkey => slots_perm_self (h key hkey)

lemma mem_match_pairs {pair : PairedTestFiles β} :
    pair ∈ (matchTestFilePairs casing localeCompare files).pairs
      ↔ ∃ key ∈ firsts (files.map (keyOf casing)),
          pairOf (key, entryOf casing (sameKey casing files key)) = some pair := by
  rw [match_pairs, List.mem_filterMap]
  constructor
  · rintro ⟨g, hg, hpair⟩
    have hmem := (sortedGroups_perm files).mem_iff.mp hg
    rw [groups_eq] at hmem
    obtain ⟨key, hkey, rfl⟩ := List.mem_map.mp hmem
    exact ⟨key, hkey, hpair⟩
  · rintro ⟨key, hkey, hpair⟩
    refine ⟨_, (sortedGroups_perm files).mem_iff.mpr ?_, hpair⟩
    rw [groups_eq]
    exact List.mem_map.mpr ⟨key, hkey, rfl⟩

/-- **One group**: it is pairable if it keeps its files and their roles. -/
lemma pairable_iff (key : List Char) (l : List (File β)) :
    Pairable casing l ↔ l.length ≤ 2 ∧ ∀ pair, pairOf (key, entryOf casing l) = some pair →
      ¬ OutputOnly casing pair.inputFile ∧ ¬ InputOnly casing pair.expectedFile := by
  match l with
  | [] => simp [Pairable, pairOf, entryOf]
  | [file] =>
      have hnone : pairOf (key, entryOf casing [file]) = none := by
        rw [entryOf, List.foldl_cons, place_first]
        split_ifs <;> rfl
      simp [Pairable, hnone]
  | [first, second] =>
      obtain ⟨hinput, hexpected⟩ := slots_two casing first second []
      have hpair := pairOf_of_full (g := (key, entryOf casing [first, second])) hinput hexpected
      rw [Pairable, hpair]
      by_cases hout : OutputOnly casing first
      · simp [hout, hout.not_inputOnly]
      · simp [hout]
  | first :: second :: third :: files =>
      simp [Pairable]

/-- **What the matching keeps**: every file is in one pair, or reported by its name, and no file is in a
place against its name, exactly where all groups are pairable. -/
theorem matching_keeps_iff (casing : Casing) (localeCompare : List Char → List Char → ℤ)
    (files : List (File β)) :
    (KeepsAll (matchTestFilePairs casing localeCompare files) files ∧
      KeepsRoles casing (matchTestFilePairs casing localeCompare files)) ↔ Matchable casing files := by
  have hgroups : Matchable casing files
      ↔ ∀ key ∈ firsts (files.map (keyOf casing)), Pairable casing (sameKey casing files key) := by
    simp [Matchable]
  rw [hgroups, keepsAll_iff]
  constructor
  · rintro ⟨hlength, hroles⟩ key hkey
    exact (pairable_iff key _).mpr ⟨hlength key hkey, fun pair hpair =>
      hroles pair (mem_match_pairs.mpr ⟨key, hkey, hpair⟩)⟩
  · intro h
    refine ⟨fun key hkey => ((pairable_iff key _).mp (h key hkey)).1, fun pair hpair => ?_⟩
    obtain ⟨key, hkey, hpair⟩ := mem_match_pairs.mp hpair
    exact ((pairable_iff key _).mp (h key hkey)).2 pair hpair

end Results

/-! ## What is lost -/

/-- An empty file. -/
def emptyFile (name : String) : File Unit := { name := name.toList, size := 0, blob := () }

/-- Names that come in the order of their characters. -/
def compareChars (a b : List Char) : ℤ := if a = b then 0 else if a < b then -1 else 1

def threeOfOneKey : List (File Unit) := [emptyFile "1.in", emptyFile "1.out", emptyFile "1.ans"]

def twoInputs : List (File Unit) := [emptyFile "1.in", emptyFile "1_in.txt"]

example : Matchable asciiOnly [emptyFile "1.in", emptyFile "2.txt", emptyFile "1.out"] := by decide

/-- The third file of a key is in no pair and not reported, and the second of two inputs is taken for
the expected output. -/
theorem third_lost :
    ¬ KeepsAll (matchTestFilePairs asciiOnly compareChars threeOfOneKey) threeOfOneKey ∧
      ¬ KeepsRoles asciiOnly (matchTestFilePairs asciiOnly compareChars twoInputs) := by
  constructor
  · rw [keepsAll_iff]
    decide
  · intro hroles
    have hkey : sameKey asciiOnly twoInputs ['1'] = twoInputs := by decide
    have hmem : ['1'] ∈ firsts (twoInputs.map (keyOf asciiOnly)) := by decide
    obtain ⟨hinput, hexpected⟩ :=
      slots_two asciiOnly (emptyFile "1.in") (emptyFile "1_in.txt") []
    have hpair := pairOf_of_full (g := (['1'], entryOf asciiOnly twoInputs)) hinput hexpected
    have hbad := (hroles _ (mem_match_pairs.mpr ⟨['1'], hmem, by rw [hkey]; exact hpair⟩)).2
    exact absurd hbad (by decide)

end Problem

end Labyrithm
