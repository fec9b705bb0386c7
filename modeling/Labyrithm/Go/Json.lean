import Labyrithm.Go.Map
import Labyrithm.Go.Strings

/-!
# Documents

What `json.Unmarshal` of Go's `encoding/json` leaves in the variable that it is given.  A document is
kept as its tree, the text of a number as it stands; documents nest less deep than the decoder can
follow.

A decoder is given what the variable holds and answers what it holds then, or `none` where the document
does not fit its type: `json.Unmarshal` goes on after such a value, but ends in an error.  `null` leaves
a string, a number, a flag and a structure as they are, and unsets a map and a slice.

* `Slice` — a slice keeps what lies behind its end in its array, and a longer one that is decoded into
  it starts from that.
* `decodeStruct` — a key goes to the field of that name, in letters of either case, and to none where
  there is no such field.
-/

namespace Go

inductive Json
  | null
  | bool (b : Bool)
  | number (text : String)
  | string (s : String)
  | array (l : List Json)
  | object (l : List (String × Json))

/-- `json.RawMessage`. -/
inductive RawMessage
  | empty
  /-- no document at all -/
  | malformed
  | document (j : Json)

/-- A slice, with the values behind its end that its array has room for. -/
structure Slice (α : Type) where
  elems : List α
  rest : List α := []
  deriving DecidableEq, Repr

/-- What a document makes of the value that is there. -/
abbrev Decoder (α : Type) := α → Json → Option α

variable {α : Type}

def decodeString : Decoder String
  | s, .null => some s
  | _, .string s => some s
  | _, _ => none

def decodeBool : Decoder Bool
  | b, .null => some b
  | _, .bool b => some b
  | _, _ => none

/-- An `int` or `int64`. -/
def decodeInt : Decoder ℤ
  | n, .null => some n
  | _, .number text => atoi text.toList
  | _, _ => none

/-- A map, whose values all start from `zero`. -/
def decodeMap (zero : α) (value : Decoder α) : Decoder (Map String α)
  | _, .null => some ∅
  | m, .object l => l.foldlM (fun m e => (value zero e.2).map fun v => m.insert e.1 v) m
  | _, _ => none

/-- The elements of an array, which start from the old ones and then from `zero`. -/
def decodeElems (zero : α) (value : Decoder α) : List α → List Json → Option (List α)
  | _, [] => some []
  | old, j :: l => do
      let v ← value (old.headD zero) j
      let vs ← decodeElems zero value old.tail l
      some (v :: vs)

def decodeSlice (zero : α) (value : Decoder α) : Decoder (Slice α)
  | _, .null => some ⟨[], []⟩
  | _, .array [] => some ⟨[], []⟩
  | s, .array l =>
      (decodeElems zero value (s.elems ++ s.rest) l).map fun elems =>
        ⟨elems, (s.elems ++ s.rest).drop l.length⟩
  | _, _ => none

/-- A structure, by its fields and their decoders. -/
def decodeStruct (fields : List (String × Decoder α)) : Decoder α
  | x, .null => some x
  | x, .object l =>
      l.foldlM (fun x e =>
        match fields.find? fun f => equalFold f.1.toList e.1.toList with
        | some f => f.2 x e.2
        | none => some x) x
  | _, _ => none

/-- `json.Unmarshal` into a variable that holds `zero`. -/
def unmarshal (decode : Decoder α) (zero : α) : RawMessage → Option α
  | .document j => decode zero j
  | _ => none

/-- A document without a key of the structure leaves it as it is. -/
lemma decodeStruct_unknown {fields : List (String × Decoder α)} {l : List (String × Json)}
    (h : ∀ e ∈ l, ∀ f ∈ fields, equalFold f.1.toList e.1.toList = false) (x : α) :
    decodeStruct fields x (.object l) = some x := by
  rw [decodeStruct]
  induction l with
  | nil => rfl
  | cons e l ih =>
      have hnone : fields.find? (fun f => equalFold f.1.toList e.1.toList) = none :=
        List.find?_eq_none.mpr fun f hf => by simp [h e (List.mem_cons_self ..) f hf]
      rw [List.foldlM_cons, hnone]
      exact ih fun e' he' => h e' (List.mem_cons_of_mem _ he')

example : decodeSlice "" decodeString ⟨["a", "b"], []⟩ (.array [.string "c"])
    = some ⟨["c"], ["b"]⟩ := by decide +kernel

end Go
