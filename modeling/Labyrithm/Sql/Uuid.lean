import Mathlib.Data.List.Basic
import Mathlib.Tactic.Common

/-!
# The texts of a uuid

What PostgreSQL reads in a text that is to be a uuid: 32 hexadecimal digits in either letter case, where
a hyphen may stand after each four of them but the last, and braces around the whole.  It writes a uuid
in one way only, in small letters and with four hyphens.

* `uuid` — the text of the server for the uuid that is read.
* **`uuid_uuid`** — what the server writes is read as itself.
-/

namespace Sql

/-! ## Digits -/

def smallDigits : List Char := "0123456789abcdef".toList

/-- A digit as the server writes it. -/
def hexDigit (c : Char) : Option Char := smallDigits.find? fun d => d = c || d.toUpper = c

def hexDigits : List Char → Option (List Char)
  | [] => some []
  | c :: src => (hexDigit c).bind fun d => (hexDigits src).map (d :: ·)

lemma hexDigit_of_mem : ∀ d ∈ smallDigits, hexDigit d = some d :=
  List.forall_iff_forall_mem.mp (by decide)

lemma ne_of_mem : ∀ d ∈ smallDigits, d ≠ '-' ∧ d ≠ '{' := List.forall_iff_forall_mem.mp (by decide)

variable {g src : List Char}

lemma hexDigits_eq_some (h : hexDigits src = some g) : g.length = src.length ∧ ∀ d ∈ g, d ∈ smallDigits := by
  induction src generalizing g with
  | nil =>
      obtain rfl := Option.some.inj h
      exact ⟨rfl, by simp⟩
  | cons c src ih =>
      obtain ⟨d, hd, h⟩ := Option.bind_eq_some_iff.mp h
      obtain ⟨g, hg, rfl⟩ := Option.map_eq_some_iff.mp h
      obtain ⟨hlen, hall⟩ := ih hg
      exact ⟨congrArg (· + 1) hlen, List.forall_mem_cons.mpr ⟨List.mem_of_find?_eq_some hd, hall⟩⟩

lemma hexDigits_of_mem (h : ∀ d ∈ g, d ∈ smallDigits) : hexDigits g = some g := by
  induction g with
  | nil => rfl
  | cons d g ih =>
      obtain ⟨hd, hg⟩ := List.forall_mem_cons.mp h
      rw [hexDigits, hexDigit_of_mem d hd, Option.bind_some, ih hg, Option.map_some]

/-! ## Groups -/

/-- What comes after a group, without the hyphen that may stand before another one. -/
def afterHyphen : ℕ → List Char → List Char
  | _ + 1, '-' :: src => src
  | _, src => src

/-- The digits of a text, by fours. -/
def groups : ℕ → List Char → Option (List (List Char))
  | 0, [] => some []
  | n + 1, a :: b :: c :: d :: src =>
      (hexDigits [a, b, c, d]).bind fun g => (groups n (afterHyphen n src)).map (g :: ·)
  | _, _ => none

/-- Groups, with a hyphen after those before another one that are to have one. -/
def spell : List Bool → List (List Char) → List Char
  | true :: hyphens, g :: g' :: gs => g ++ '-' :: spell hyphens (g' :: gs)
  | hyphens, g :: gs => g ++ spell hyphens.tail gs
  | _, [] => []

/-- Four digits as the server writes them. -/
def IsGroup (g : List Char) : Prop := g.length = 4 ∧ ∀ d ∈ g, d ∈ smallDigits

variable {n : ℕ} {gs : List (List Char)}

/-- What is read are groups. -/
lemma groups_eq_some (h : groups n src = some gs) : gs.length = n ∧ ∀ g ∈ gs, IsGroup g := by
  fun_induction groups n src generalizing gs with
  | case1 =>
      obtain rfl := Option.some.inj h
      exact ⟨rfl, by simp⟩
  | case2 n a b c d src ih =>
      obtain ⟨g, hg, h⟩ := Option.bind_eq_some_iff.mp h
      obtain ⟨gs, hgs, rfl⟩ := Option.map_eq_some_iff.mp h
      obtain ⟨hlen, hall⟩ := ih hgs
      exact ⟨congrArg (· + 1) hlen, List.forall_mem_cons.mpr ⟨hexDigits_eq_some hg, hall⟩⟩
  | case3 => cases h

/-- A group is read as itself. -/
lemma groups_append (hg : IsGroup g) :
    groups (n + 1) (g ++ src) = (groups n (afterHyphen n src)).map (g :: ·) := by
  obtain ⟨hlen, hall⟩ := hg
  obtain ⟨a, b, c, d, rfl⟩ := List.length_eq_four.mp hlen
  simp only [List.cons_append, List.nil_append, groups, hexDigits_of_mem hall, Option.bind_some]

/-- The first character of a group is a digit. -/
lemma IsGroup.head (hg : IsGroup g) : ∃ d ∈ smallDigits, ∃ tail, g = d :: tail := by
  obtain ⟨hlen, hall⟩ := hg
  obtain ⟨a, b, c, d, rfl⟩ := List.length_eq_four.mp hlen
  exact ⟨a, hall a List.mem_cons_self, _, rfl⟩

/-- It is no hyphen. -/
lemma afterHyphen_append (hg : IsGroup g) : afterHyphen n (g ++ src) = g ++ src := by
  obtain ⟨d, hd, tail, rfl⟩ := hg.head
  rw [List.cons_append, afterHyphen]
  exact fun _ _ _ heq => (ne_of_mem d hd).1 (List.cons.inj heq).1

lemma afterHyphen_spell {hyphens : List Bool} (h : ∀ g ∈ gs, IsGroup g) :
    afterHyphen n (spell hyphens gs) = spell hyphens gs := by
  fun_cases spell hyphens gs with
  | case1 => exact afterHyphen_append (h _ List.mem_cons_self)
  | case2 => exact afterHyphen_append (h _ List.mem_cons_self)
  | case3 => cases n <;> rfl

/-- Groups are read as themselves, with a hyphen or without one between them. -/
lemma groups_spell (hyphens : List Bool) (h : ∀ g ∈ gs, IsGroup g) :
    groups gs.length (spell hyphens gs) = some gs := by
  fun_induction spell hyphens gs with
  | case1 hyphens g g' gs ih =>
      obtain ⟨hg, hgs⟩ := List.forall_mem_cons.mp h
      rw [List.length_cons, groups_append hg, List.length_cons, afterHyphen, ← List.length_cons, ih hgs,
        Option.map_some]
  | case2 hyphens g gs _ ih =>
      obtain ⟨hg, hgs⟩ := List.forall_mem_cons.mp h
      rw [List.length_cons, groups_append hg, afterHyphen_spell hgs, ih hgs, Option.map_some]
  | case3 => rfl

/-! ## The text -/

/-- The digits of a text that may have braces around it. -/
def uuidGroups (src : List Char) : Option (List (List Char)) :=
  if src.head? = some '{' then
    if src.getLast? = some '}' then groups 8 src.tail.dropLast else none
  else groups 8 src

/-- The text of the server for the uuid that is read in a text. -/
def uuid (text : String) : Option String :=
  (uuidGroups text.toList).map fun gs => String.ofList (spell [false, true, true, true, true] gs)

lemma uuidGroups_eq_some (h : uuidGroups src = some gs) : gs.length = 8 ∧ ∀ g ∈ gs, IsGroup g := by
  unfold uuidGroups at h
  split_ifs at h
  · exact groups_eq_some h
  · exact groups_eq_some h

/-- What the server writes is read as itself. -/
theorem uuid_uuid {text id : String} (h : uuid text = some id) : uuid id = some id := by
  obtain ⟨gs, hgs, rfl⟩ := Option.map_eq_some_iff.mp h
  obtain ⟨hlen, hall⟩ := uuidGroups_eq_some hgs
  have hgroups : groups 8 (spell [false, true, true, true, true] gs) = some gs :=
    hlen ▸ groups_spell _ hall
  have hhead : (spell [false, true, true, true, true] gs).head? ≠ some '{' := by
    obtain ⟨g, gs, rfl⟩ := List.exists_cons_of_length_eq_add_one hlen
    obtain ⟨d, hd, tail, rfl⟩ := (hall g List.mem_cons_self).head
    simpa [spell] using (ne_of_mem d hd).2
  rw [uuid, String.toList_ofList, uuidGroups, if_neg hhead, hgroups, Option.map_some]

end Sql
