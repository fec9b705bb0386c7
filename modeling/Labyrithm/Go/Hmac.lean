import Mathlib.Data.List.Basic
import Mathlib.Data.List.FinRange
import Mathlib.Tactic.Common

/-!
# Keyed hashing

`HMAC` as RFC 2104 has it, over any hash with blocks of `B` bytes and digests of `L`.  A key that is longer
than a block is hashed first, a shorter one is filled up with zeros; the block is combined with two pads,
one before the text and one before the digest of that.

* `hmac` — the definition.
* `foldl_set` — a loop that changes each element of an array in turn.
-/

namespace Go

/-! ## The definition -/

section Hmac

variable {L : ℕ} (hash : List UInt8 → Vector UInt8 L) (B : ℕ) (key text : List UInt8)

/-- The key as a block. -/
def hmacKey : List UInt8 :=
  let key := if key.length > B then (hash key).toList else key
  key ++ List.replicate (B - key.length) 0

/-- RFC 2104. -/
def hmac : Vector UInt8 L :=
  let key := hmacKey hash B key
  hash (key.map (· ^^^ 0x5c) ++ (hash (key.map (· ^^^ 0x36) ++ text)).toList)

end Hmac

/-! ## Arrays -/

section Array

variable {n : ℕ} {α : Type}

/-- A loop that sets the elements at some positions, each by its old value, one after the other. -/
lemma foldl_set (f : Fin n → α → α) (v : Vector α n) (is : List (Fin n)) (hnodup : is.Nodup) (j : Fin n) :
    (is.foldl (fun v i => v.set i (f i v[i])) v)[j] = if j ∈ is then f j v[j] else v[j] := by
  induction is generalizing v with
  | nil => simp
  | cons i is ih =>
      rw [List.nodup_cons] at hnodup
      rw [List.foldl_cons, ih _ hnodup.2]
      by_cases hij : j = i
      · subst hij
        simp [hnodup.1]
      · have hne : (i : ℕ) ≠ j := fun h => hij (Fin.ext h.symm)
        simp [hij, Vector.getElem_set_ne _ _ hne]

/-- Over all positions. -/
lemma foldl_finRange_set (f : Fin n → α → α) (v : Vector α n) :
    (List.finRange n).foldl (fun v i => v.set i (f i v[i])) v = Vector.ofFn fun i => f i v[i] := by
  refine Vector.ext fun j hj => ?_
  have hset := foldl_set f v (List.finRange n) (List.nodup_finRange n) ⟨j, hj⟩
  simpa using hset

end Array

end Go
