import Mathlib.Algebra.Order.Ring.Int
import Mathlib.Data.Int.Notation
import Mathlib.Tactic.Common

/-!
# Strings

What is used of Go's `strings`, `strconv` and `unicode`, on lists of characters, and `strings.TrimSpace`
on the bytes of a string, which need not be the encoding of any.
-/

namespace Go

/-- `unicode.IsSpace`. -/
def isSpace (ch : Char) : Bool :=
  let n := ch.toNat
  (9 ≤ n && n ≤ 13) || n = 0x20 || n = 0x85 || n = 0xa0 || n = 0x1680 ||
    (0x2000 ≤ n && n ≤ 0x200a) || n = 0x2028 || n = 0x2029 || n = 0x202f || n = 0x205f || n = 0x3000

/-- `len`: the bytes of the encoding. -/
def len (s : List Char) : ℕ := (s.map Char.utf8Size).sum

/-- `strings.TrimSpace`. -/
def trimSpace (s : List Char) : List Char :=
  ((s.dropWhile isSpace).reverse.dropWhile isSpace).reverse

/-- The encodings of the characters that are spaces. -/
def spaces : List (List UInt8) :=
  [[9], [10], [11], [12], [13], [0x20], [0xc2, 0x85], [0xc2, 0xa0], [0xe1, 0x9a, 0x80],
    [0xe2, 0x80, 0x80], [0xe2, 0x80, 0x81], [0xe2, 0x80, 0x82], [0xe2, 0x80, 0x83],
    [0xe2, 0x80, 0x84], [0xe2, 0x80, 0x85], [0xe2, 0x80, 0x86], [0xe2, 0x80, 0x87],
    [0xe2, 0x80, 0x88], [0xe2, 0x80, 0x89], [0xe2, 0x80, 0x8a], [0xe2, 0x80, 0xa8],
    [0xe2, 0x80, 0xa9], [0xe2, 0x80, 0xaf], [0xe2, 0x81, 0x9f], [0xe3, 0x80, 0x80]]

/-- Bytes without the words they begin with, for a number of rounds. -/
def dropPrefixes (words : List (List UInt8)) : ℕ → List UInt8 → List UInt8
  | 0, s => s
  | n + 1, s =>
      match words.find? (·.isPrefixOf s) with
      | none => s
      | some word => dropPrefixes words n (s.drop word.length)

/-- `strings.TrimSpace` on bytes. -/
def trimSpaceBytes (s : List UInt8) : List UInt8 :=
  let s := dropPrefixes spaces s.length s
  (dropPrefixes (spaces.map List.reverse) s.length s.reverse).reverse

example : trimSpaceBytes [0x20, 0xc2, 0xa0, 65, 0x20, 66, 10] = [65, 0x20, 66] := by decide

/-- `strings.ToLower`, as far as letters of ASCII come out of it: other letters stay as they are. -/
def toLower (s : List Char) : List Char :=
  s.map fun ch => if ch = 'İ' then 'i' else if ch = '\u212a' then 'k' else ch.toLower

/-- The fold of a character, as far as letters of ASCII come out of it. -/
def fold (ch : Char) : Char :=
  if ch = '\u017f' then 's' else if ch = '\u212a' then 'k' else ch.toLower

/-- `strings.EqualFold`, where one of the strings is of ASCII. -/
def equalFold (s t : List Char) : Bool := s.map fold = t.map fold

/-- `strings.Split`, with a separator of one character. -/
def split (s : List Char) (sep : Char) : List (List Char) := s.splitOn sep

/-- The digits of a number, or `none` where one is none. -/
def digits : List Char → ℕ → Option ℕ
  | [], n => some n
  | ch :: rest, n => if ch.isDigit then digits rest (10 * n + (ch.toNat - 48)) else none

/-- `strconv.Atoi`, for an `int` of 64 bits: a sign or none, at least one digit, no overflow. -/
def atoi (s : List Char) : Option ℤ :=
  let (negative, rest) :=
    match s with
    | '-' :: rest => (true, rest)
    | '+' :: rest => (false, rest)
    | s => (false, s)
  if rest = [] then none
  else
    (digits rest 0).bind fun n =>
      let value : ℤ := if negative then -(n : ℤ) else n
      if -(2 ^ 63) ≤ value ∧ value < 2 ^ 63 then some value else none

example : atoi "-042".toList = some (-42) := by decide

end Go
