import Labyrithm.Js.Strings

/-!
# Documents of JavaScript

`JSON.parse`, and `String` of what it gives.  A number is kept as its literal: what the nearest `number`
is written like is a parameter.

* `parse` — `none` where `JSON.parse` throws; of two calls in a row one takes a character, so that twice
  the length of a text is enough fuel.
* `parse_of_other` — what begins like no value is none.
-/

namespace Js

inductive Json
  | null
  | bool (b : Bool)
  | number (literal : List Char)
  | string (s : List Char)
  | array (l : List Json)
  | object (l : List (List Char × Json))

namespace Json

/-- The blanks between the tokens of a document. -/
def skip (s : List Char) : List Char := s.dropWhile fun ch => ch ∈ [' ', '\t', '\n', '\r']

/-- The digits in front, of which there is one at least. -/
def digits (s : List Char) : Option (List Char × List Char) :=
  if s.takeWhile Char.isDigit = [] then none
  else some (s.takeWhile Char.isDigit, s.dropWhile Char.isDigit)

/-- The whole part of a number, without zeros in front. -/
def whole : List Char → Option (List Char × List Char)
  | '0' :: s => some (['0'], s)
  | s => digits s

/-- The fraction, where there is one. -/
def fraction : List Char → Option (List Char × List Char)
  | '.' :: s => (digits s).map fun r => ('.' :: r.1, r.2)
  | s => some ([], s)

/-- The exponent, where there is one. -/
def exponent : List Char → Option (List Char × List Char)
  | ch :: s =>
      if ch = 'e' ∨ ch = 'E' then
        match s with
        | '+' :: s => (digits s).map fun r => (ch :: '+' :: r.1, r.2)
        | '-' :: s => (digits s).map fun r => (ch :: '-' :: r.1, r.2)
        | s => (digits s).map fun r => (ch :: r.1, r.2)
      else some ([], ch :: s)
  | [] => some ([], [])

/-- A number, without its sign. -/
def unsigned (s : List Char) : Option (List Char × List Char) := do
  let (n, s) ← whole s
  let (f, s) ← fraction s
  let (e, s) ← exponent s
  some (n ++ f ++ e, s)

def parseNumber : List Char → Option (Json × List Char)
  | '-' :: s => (unsigned s).map fun r => (.number ('-' :: r.1), r.2)
  | s => (unsigned s).map fun r => (.number r.1, r.2)

def hexDigit (ch : Char) : Option ℕ :=
  if ch.isDigit then some (ch.toNat - 48)
  else if 'a' ≤ ch ∧ ch ≤ 'f' then some (ch.toNat - 87)
  else if 'A' ≤ ch ∧ ch ≤ 'F' then some (ch.toNat - 55)
  else none

/-- Four hexadecimal digits. -/
def unit : List Char → Option (ℕ × List Char)
  | a :: b :: c :: d :: s => do
      some ((((← hexDigit a) * 16 + (← hexDigit b)) * 16 + (← hexDigit c)) * 16 + (← hexDigit d), s)
  | _ => none

/-- The character of a `\u` and, where it is half of one, of the `\u` that follows. -/
def unicode (s : List Char) : Option (Char × List Char) := do
  let (hi, s) ← unit s
  if 0xd800 ≤ hi ∧ hi < 0xdc00 then
    match s with
    | '\\' :: 'u' :: s' =>
        match unit s' with
        | some (lo, s') =>
            if 0xdc00 ≤ lo ∧ lo < 0xe000 then
              some (Char.ofNat (0x10000 + (hi - 0xd800) * 0x400 + (lo - 0xdc00)), s')
            else some ('\ufffd', s)
        | none => some ('\ufffd', s)
    | _ => some ('\ufffd', s)
  else if 0xdc00 ≤ hi ∧ hi < 0xe000 then some ('\ufffd', s)
  else some (Char.ofNat hi, s)

/-- What follows a backslash. -/
def escape : List Char → Option (Char × List Char)
  | '"' :: s => some ('"', s)
  | '\\' :: s => some ('\\', s)
  | '/' :: s => some ('/', s)
  | 'b' :: s => some ('\x08', s)
  | 'f' :: s => some ('\x0c', s)
  | 'n' :: s => some ('\n', s)
  | 'r' :: s => some ('\r', s)
  | 't' :: s => some ('\t', s)
  | 'u' :: s => unicode s
  | _ => none

/-- The rest of a string. -/
def parseString : ℕ → List Char → Option (List Char × List Char)
  | _, [] => none
  | 0, _ => none
  | fuel + 1, ch :: s =>
      if ch = '"' then some ([], s)
      else if ch = '\\' then do
        let (ch, s) ← escape s
        let (rest, s) ← parseString fuel s
        some (ch :: rest, s)
      else if ch.toNat < 0x20 then none
      else (parseString fuel s).map fun r => (ch :: r.1, r.2)

mutual

def parseValue : ℕ → List Char → Option (Json × List Char)
  | 0, _ => none
  | fuel + 1, s =>
      match skip s with
      | 'n' :: 'u' :: 'l' :: 'l' :: s => some (.null, s)
      | 't' :: 'r' :: 'u' :: 'e' :: s => some (.bool true, s)
      | 'f' :: 'a' :: 'l' :: 's' :: 'e' :: s => some (.bool false, s)
      | '"' :: s => (parseString fuel s).map fun r => (.string r.1, r.2)
      | '[' :: s =>
          match skip s with
          | ']' :: s => some (.array [], s)
          | s => (parseElements fuel s).map fun r => (.array r.1, r.2)
      | '{' :: s =>
          match skip s with
          | '}' :: s => some (.object [], s)
          | s => (parseMembers fuel s).map fun r => (.object r.1, r.2)
      | s => parseNumber s

/-- The elements of an array, with the bracket. -/
def parseElements : ℕ → List Char → Option (List Json × List Char)
  | 0, _ => none
  | fuel + 1, s => do
      let (v, s) ← parseValue fuel s
      match skip s with
      | ',' :: s => (parseElements fuel s).map fun r => (v :: r.1, r.2)
      | ']' :: s => some ([v], s)
      | _ => none

/-- The members of an object, with the brace. -/
def parseMembers : ℕ → List Char → Option (List (List Char × Json) × List Char)
  | 0, _ => none
  | fuel + 1, s =>
      match skip s with
      | '"' :: s => do
          let (key, s) ← parseString fuel s
          match skip s with
          | ':' :: s => do
              let (v, s) ← parseValue fuel s
              match skip s with
              | ',' :: s => (parseMembers fuel s).map fun r => ((key, v) :: r.1, r.2)
              | '}' :: s => some ([(key, v)], s)
              | _ => none
          | _ => none
      | _ => none

end

/-- `JSON.parse`. -/
def parse (s : List Char) : Option Json := do
  let (v, rest) ← parseValue (2 * s.length + 2) s
  if skip rest = [] then some v else none

/-- A property, or `none` where it is undefined; of a key that comes twice the last one stands. -/
def get (key : List Char) : Json → Option Json
  | .object l => (l.reverse.find? fun m => m.1 = key).map (·.2)
  | _ => none

mutual

/-- `String`, where `numberText` is the text of the number that is nearest to a literal.  It throws on an
object whose own `toString` is no function, as nothing is that was parsed. -/
def text (numberText : List Char → List Char) : Json → Option (List Char)
  | .null => some "null".toList
  | .bool b => some (toString b).toList
  | .number literal => some (numberText literal)
  | .string s => some s
  | .array l => (texts numberText l).map (List.intercalate [','])
  | .object l => if (l.any fun m => m.1 = "toString".toList) then none else some "[object Object]".toList

/-- The elements that `join` puts together, for which `null` is empty. -/
def texts (numberText : List Char → List Char) : List Json → Option (List (List Char))
  | [] => some []
  | .null :: l => (texts numberText l).map ([] :: ·)
  | v :: l => do
      let s ← text numberText v
      (texts numberText l).map (s :: ·)

end

/-- What begins like no value is none. -/
lemma parse_of_other {ch : Char} {s : List Char}
    (h : ch ∉ [' ', '\t', '\n', '\r', 'n', 't', 'f', '"', '[', '{', '-'] ∧ ch.isDigit = false) :
    parse (ch :: s) = none := by
  obtain ⟨hch, hdigit⟩ := h
  simp only [List.mem_cons, List.not_mem_nil, or_false, not_or] at hch
  obtain ⟨h1, h2, h3, h4, h5, h6, h7, h8, h9, h10, h11⟩ := hch
  have hskip : skip (ch :: s) = ch :: s := by
    rw [skip, List.dropWhile_cons_of_neg (by simp [h1, h2, h3, h4])]
  have hnumber : parseNumber (ch :: s) = none := by
    have hdigits : digits (ch :: s) = none := by simp [digits, hdigit]
    have hwhole : whole (ch :: s) = none := by
      unfold whole
      split
      · simp_all
      · exact hdigits
    unfold parseNumber
    split
    · simp_all
    · simp [unsigned, hwhole]
  have hvalue : parseValue (2 * (ch :: s).length + 2) (ch :: s) = none := by
    rw [parseValue, hskip]
    split <;> simp_all
  rw [parse, hvalue]
  rfl

end Json

end Js
