import Mathlib.Data.List.Induction
import Mathlib.Data.Fintype.Basic
import Mathlib.Tactic.Common
import Labyrithm.Go.Trim

/-!
# Hexadecimal text

`EncodeToString` and `DecodeString` of `encoding/hex`, on the bytes of a string.

* `fromHexChar_eq_some` — the digits, in either letter case.
* **`hexDecode_eq_ok`** — what is decoded to some bytes is their encoding, but for the letter case.
* `trimSpaceBytes_hexEncode` — there is no space in an encoding.
-/

namespace Go

/-- The digit of a number below 16. -/
def hexDigit (n : UInt8) : UInt8 := if n < 10 then 48 + n else 87 + n

/-- The number of a digit. -/
def fromHexChar (c : UInt8) : Option UInt8 :=
  if 48 ≤ c ∧ c ≤ 57 then some (c - 48)
  else if 97 ≤ c ∧ c ≤ 102 then some (c - 87)
  else if 65 ≤ c ∧ c ≤ 70 then some (c - 55)
  else none

/-- A letter of ASCII in lower case. -/
def lowerByte (c : UInt8) : UInt8 := if 65 ≤ c ∧ c ≤ 90 then c + 32 else c

/-! ## Digits -/

section Digits

variable {c a : UInt8}

/-- What holds of the 256 bytes holds of every byte. -/
lemma forall_byte {P : UInt8 → Prop} (h : ∀ i : Fin 256, P (UInt8.ofFin i)) (c : UInt8) : P c := h c.toFin

/-- All the digits, one by one. -/
lemma digits_table :
    (∀ i : Fin 256, (fromHexChar (UInt8.ofFin i)).all fun a =>
        a < 16 ∧ lowerByte (UInt8.ofFin i) = hexDigit a) ∧
      (∀ i : Fin 256, fromHexChar (lowerByte (UInt8.ofFin i)) = fromHexChar (UInt8.ofFin i)) ∧
      ∀ j : Fin 16, fromHexChar (hexDigit (UInt8.ofNat j)) = some (UInt8.ofNat j) := by
  decide +kernel

lemma fromHexChar_lower (c a : UInt8) (h : a ∈ fromHexChar c) : a < 16 ∧ lowerByte c = hexDigit a := by
  have hall : (fromHexChar c).all fun a => a < 16 ∧ lowerByte c = hexDigit a := digits_table.1 c.toFin
  rw [Option.mem_def] at h
  rw [h, Option.all_some, decide_eq_true_eq] at hall
  exact hall

/-- The letter case of a digit does not matter. -/
lemma fromHexChar_lowerByte : ∀ c : UInt8, fromHexChar (lowerByte c) = fromHexChar c :=
  forall_byte digits_table.2.1

lemma ofNat_of_lt (h : a < 16) : ∃ j : Fin 16, a = UInt8.ofNat j :=
  ⟨⟨a.toNat, h⟩, (UInt8.ofNat_toNat).symm⟩

/-- A digit says its number. -/
lemma fromHexChar_hexDigit (h : a < 16) : fromHexChar (hexDigit a) = some a := by
  obtain ⟨j, rfl⟩ := ofNat_of_lt h
  exact digits_table.2.2 j

/-- A digit is in lower case. -/
lemma lowerByte_hexDigit (h : a < 16) : lowerByte (hexDigit a) = hexDigit a :=
  (fromHexChar_lower _ a (fromHexChar_hexDigit h)).2

/-- The digits of a number, in either letter case. -/
lemma fromHexChar_eq_some : fromHexChar c = some a ↔ a < 16 ∧ lowerByte c = hexDigit a := by
  constructor
  · intro h
    exact fromHexChar_lower c a h
  · rintro ⟨hlt, hlower⟩
    rw [← fromHexChar_lowerByte, hlower, fromHexChar_hexDigit hlt]

end Digits

/-! ## Bytes -/

/-- `hex.EncodeToString`. -/
def hexEncode (src : List UInt8) : List UInt8 :=
  src.flatMap fun v : UInt8 => [hexDigit (v >>> 4), hexDigit (v &&& 0x0f)]

/-- The errors of `encoding/hex`. -/
inductive HexError
  | invalidByte (c : UInt8)
  | length
  deriving DecidableEq, Repr

/-- `hex.DecodeString`. -/
def hexDecode : List UInt8 → Except HexError (List UInt8)
  | [] => .ok []
  | [p] => if (fromHexChar p).isNone then .error (.invalidByte p) else .error .length
  | p :: q :: src =>
      match fromHexChar p, fromHexChar q with
      | none, _ => .error (.invalidByte p)
      | some _, none => .error (.invalidByte q)
      | some a, some b => (hexDecode src).map ((a <<< 4 ||| b) :: ·)

section Bytes

variable {a b v : UInt8}

/-- All the bytes and their halves, one by one. -/
lemma halves_table :
    (∀ i : Fin 256, UInt8.ofFin i >>> 4 < 16 ∧ UInt8.ofFin i &&& 0x0f < 16 ∧
      ((UInt8.ofFin i >>> 4) <<< 4 ||| (UInt8.ofFin i &&& 0x0f)) = UInt8.ofFin i) ∧
      ∀ i j : Fin 16, (UInt8.ofNat i <<< 4 ||| UInt8.ofNat j) >>> 4 = UInt8.ofNat i
        ∧ (UInt8.ofNat i <<< 4 ||| UInt8.ofNat j) &&& 0x0f = UInt8.ofNat j := by
  decide +kernel

/-- The halves of a byte. -/
lemma halves_lt : ∀ v : UInt8, v >>> 4 < 16 ∧ v &&& 0x0f < 16 ∧ ((v >>> 4) <<< 4 ||| (v &&& 0x0f)) = v :=
  forall_byte halves_table.1

lemma halves_of : ∀ i j : Fin 16,
    (UInt8.ofNat i <<< 4 ||| UInt8.ofNat j) >>> 4 = UInt8.ofNat i
      ∧ (UInt8.ofNat i <<< 4 ||| UInt8.ofNat j) &&& 0x0f = UInt8.ofNat j :=
  halves_table.2

/-- A byte has one upper and one lower half. -/
lemma halves_iff (ha : a < 16) (hb : b < 16) :
    (a <<< 4 ||| b) = v ↔ a = v >>> 4 ∧ b = v &&& 0x0f := by
  constructor
  · rintro rfl
    obtain ⟨i, rfl⟩ := ofNat_of_lt ha
    obtain ⟨j, rfl⟩ := ofNat_of_lt hb
    exact ⟨(halves_of i j).1.symm, (halves_of i j).2.symm⟩
  · rintro ⟨rfl, rfl⟩
    exact (halves_lt v).2.2

/-- Two digits that are read as a byte. -/
lemma byte_iff {p q : UInt8} :
    (∃ a ∈ fromHexChar p, ∃ b ∈ fromHexChar q, (a <<< 4 ||| b) = v) ↔
      lowerByte p = hexDigit (v >>> 4) ∧ lowerByte q = hexDigit (v &&& 0x0f) := by
  constructor
  · rintro ⟨a, ha, b, hb, hv⟩
    obtain ⟨halt, hp⟩ := fromHexChar_eq_some.mp ha
    obtain ⟨hblt, hq⟩ := fromHexChar_eq_some.mp hb
    obtain ⟨rfl, rfl⟩ := (halves_iff halt hblt).mp hv
    exact ⟨hp, hq⟩
  · rintro ⟨hp, hq⟩
    obtain ⟨hhigh, hlow, hv⟩ := halves_lt v
    exact ⟨_, fromHexChar_eq_some.mpr ⟨hhigh, hp⟩, _, fromHexChar_eq_some.mpr ⟨hlow, hq⟩, hv⟩

end Bytes

/-! ## Texts -/

@[simp] lemma hexEncode_nil : hexEncode [] = [] := rfl

@[simp] lemma hexEncode_cons (v : UInt8) (bs : List UInt8) :
    hexEncode (v :: bs) = hexDigit (v >>> 4) :: hexDigit (v &&& 0x0f) :: hexEncode bs := rfl

lemma length_hexEncode (bs : List UInt8) : (hexEncode bs).length = 2 * bs.length := by
  induction bs with
  | nil => rfl
  | cons v bs ih =>
      rw [hexEncode_cons, List.length_cons, List.length_cons, ih, List.length_cons]
      omega

/-- Two digits and the rest. -/
lemma hexDecode_cons_cons {p q : UInt8} {src bs : List UInt8} :
    hexDecode (p :: q :: src) = .ok bs ↔
      ∃ v rest, (∃ a ∈ fromHexChar p, ∃ b ∈ fromHexChar q, (a <<< 4 ||| b) = v) ∧
        hexDecode src = .ok rest ∧ v :: rest = bs := by
  rw [hexDecode]
  cases fromHexChar p with
  | none => simp
  | some a =>
      cases fromHexChar q with
      | none => simp
      | some b => cases hexDecode src <;> simp [Except.map]

/-- **What is decoded is the encoding in either letter case**, digit by digit. -/
theorem hexDecode_eq_ok {s bs : List UInt8} :
    hexDecode s = .ok bs ↔ s.map lowerByte = hexEncode bs := by
  induction s using List.twoStepInduction generalizing bs with
  | nil => cases bs <;> simp [hexDecode]
  | singleton p =>
      rw [hexDecode]
      cases bs <;> split_ifs <;> simp
  | cons_cons p q src ih _ =>
      rw [hexDecode_cons_cons]
      cases bs with
      | nil => simp
      | cons v bs =>
          rw [hexEncode_cons, List.map_cons, List.map_cons, List.cons.injEq, List.cons.injEq, ← ih,
            ← and_assoc, ← byte_iff]
          constructor
          · rintro ⟨_, _, hv, hrest, heq⟩
            obtain ⟨rfl, rfl⟩ := List.cons.inj heq
            exact ⟨hv, hrest⟩
          · rintro ⟨hv, hrest⟩
            exact ⟨v, bs, hv, hrest, rfl⟩

/-- An encoding is in lower case. -/
@[simp] lemma map_lowerByte_hexEncode (bs : List UInt8) : (hexEncode bs).map lowerByte = hexEncode bs := by
  induction bs with
  | nil => rfl
  | cons v bs ih =>
      obtain ⟨hhigh, hlow, -⟩ := halves_lt v
      rw [hexEncode_cons, List.map_cons, List.map_cons, ih, lowerByte_hexDigit hhigh, lowerByte_hexDigit hlow]

/-- What is encoded is decoded. -/
theorem hexDecode_hexEncode (bs : List UInt8) : hexDecode (hexEncode bs) = .ok bs :=
  hexDecode_eq_ok.mpr (map_lowerByte_hexEncode bs)

/-! ## Spaces -/

/-- No byte of a space is a digit. -/
lemma not_digit_of_space : ∀ w ∈ spaces, ∀ b ∈ w, fromHexChar b = none := by
  have hall : spaces.all fun w => w.all fun b => fromHexChar b = none := by decide +kernel
  simpa only [List.all_eq_true, decide_eq_true_eq] using hall

lemma fromHexChar_of_mem {bs : List UInt8} {b : UInt8} (h : b ∈ hexEncode bs) :
    fromHexChar b ≠ none := by
  rw [hexEncode, List.mem_flatMap] at h
  obtain ⟨v, -, hb⟩ := h
  obtain ⟨hhigh, hlow, -⟩ := halves_lt v
  simp only [List.mem_cons, List.not_mem_nil, or_false] at hb
  obtain rfl | rfl := hb
  · rw [fromHexChar_hexDigit hhigh]
    exact Option.some_ne_none _
  · rw [fromHexChar_hexDigit hlow]
    exact Option.some_ne_none _

/-- There is nothing to trim. -/
theorem trimSpaceBytes_hexEncode (bs : List UInt8) : trimSpaceBytes (hexEncode bs) = hexEncode bs := by
  have hnone (w : List UInt8) (hw : w ∈ spaces) : ¬ w ⊆ hexEncode bs := by
    intro hsub
    obtain ⟨b, w', rfl⟩ := List.exists_cons_of_ne_nil (code_spaces.1 w hw)
    have hb : b ∈ b :: w' := List.mem_cons_self
    exact fromHexChar_of_mem (hsub hb) (not_digit_of_space _ hw b hb)
  have htrimmed : Trimmed (hexEncode bs) :=
    ⟨fun w hw h => hnone w hw h.subset, fun w hw h => hnone w hw h.subset⟩
  simpa using trimSpaceBytes_eq Made.nil htrimmed Made.nil

end Go
