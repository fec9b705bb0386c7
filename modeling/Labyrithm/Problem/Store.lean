import Labyrithm.Problem.Tests
import Labyrithm.Sql.Table

/-!
# The store of problems

The problems with their samples and tests, and the calls of the repository that write them.  Every
call is about one problem, by its id; the ids of problems and tests come from the database.

* `Call.run` — what a call makes of the row of its problem.
* `Store.call` — the call on the store, with the constraint that a slug is there once.
* `Store.call_frame` — the other problems are left alone; `Store.call_row` — what became of this one.
-/

namespace Labyrithm

namespace Problem

/-- The problems by their ids. -/
abbrev Store := Sql.Table String ProblemRow

/-- A call that writes. -/
inductive Call
  | create (input : CreateProblemInput)
  | update (input : CreateProblemInput)
  | setPublished (published : Bool)
  | delete
  | edit (op : TestOp)
  | getTestMetadata

/-- What an edit comes to where there is no such problem. -/
def TestOp.runMissing : TestOp → Except Err Unit
  | .replaceTests .. => .error (.noRows "failed to read problem max_score")
  | .addSingleTest .. | .deleteSingleTest .. => .error (.noRows "read problem max_score")
  | .updateSingleTest .. => .error .notFound
  | .updateTestPoints pointsMap =>
      if pointsMap.any (·.2 < 0) then .error .pointsNegative else .ok ()

/-- A call on the row of its problem; `none` is no row. -/
def Call.run (sha : List UInt8 → String) : Call → Option ProblemRow → Except Err (Option ProblemRow)
  | .create input, none => .ok (some (.create input))
  | .create _, some _ => .error .duplicateSlug
  | .update input, some p => .ok (some (p.update input))
  | .setPublished published, some p => .ok (some (p.setPublished published))
  | .delete, some _ => .ok none
  | .update _, none | .setPublished _, none | .delete, none => .error .notFound
  | .edit op, some p => (op.run sha p).map some
  | .edit op, none => op.runMissing.map fun _ => none
  | .getTestMetadata, row => .ok (row.map (·.getTestMetadata))

/-- A problem has the slug that a new one is to have. -/
def Store.slugTaken (σ : Store) : Call → Bool
  | .create input => σ.rows.any (·.2.slug = input.slug)
  | _ => false

def Store.put (id : String) (row : Option ProblemRow) (σ : Store) : Store :=
  match row with
  | some p => σ.insert id p
  | none => σ.erase id

/-- A call on the store. -/
def Store.call (sha : List UInt8 → String) (id : String) (call : Call) (σ : Store) :
    Except Err Store :=
  if σ.slugTaken call then .error .duplicateSlug
  else (call.run sha (σ.lookup id)).map fun row => σ.put id row

/-! ## What a call leaves -/

section Call

variable {sha : List UInt8 → String} {id q : String} {call : Call} {σ σ' : Store}

lemma lookup_put (id : String) (row : Option ProblemRow) (σ : Store) (q : String) :
    (σ.put id row).lookup q = if id = q then row else σ.lookup q := by
  cases row with
  | some p => exact Sql.Table.lookup_insert_eq σ id q p
  | none => exact Sql.Table.lookup_erase_eq σ id q

lemma Store.call_eq_ok (h : σ.call sha id call = .ok σ') :
    ∃ row, call.run sha (σ.lookup id) = .ok row ∧ σ' = σ.put id row := by
  unfold Store.call at h
  split_ifs at h
  cases hrun : call.run sha (σ.lookup id) with
  | error err =>
      rw [hrun] at h
      cases h
  | ok row =>
      rw [hrun] at h
      exact ⟨row, rfl, (Except.ok.inj h).symm⟩

/-- A call leaves the other problems alone. -/
lemma Store.call_frame (h : σ.call sha id call = .ok σ') (hq : q ≠ id) :
    σ'.lookup q = σ.lookup q := by
  obtain ⟨row, -, rfl⟩ := Store.call_eq_ok h
  rw [lookup_put, if_neg (Ne.symm hq)]

lemma Store.call_row (h : σ.call sha id call = .ok σ') :
    call.run sha (σ.lookup id) = .ok (σ'.lookup id) := by
  obtain ⟨row, hrun, rfl⟩ := Store.call_eq_ok h
  rw [lookup_put, if_pos rfl]
  exact hrun

/-- A problem after a call is a new one, or it was there and the call made it what it is. -/
lemma Store.call_some {p' : ProblemRow} (h : σ.call sha id call = .ok σ')
    (hp : σ'.lookup id = some p') :
    (∃ input, call = .create input ∧ p' = .create input) ∨
      ∃ p, σ.lookup id = some p ∧ call.run sha (some p) = .ok (some p') := by
  have hrow := Store.call_row h
  rw [hp] at hrow
  cases hold : σ.lookup id with
  | some p => exact .inr ⟨p, rfl, hold ▸ hrow⟩
  | none =>
      rw [hold] at hrow
      cases call with
      | create input => exact .inl ⟨input, rfl, by simpa [Call.run, eq_comm] using hrow⟩
      | update | setPublished | delete | getTestMetadata => simp [Call.run] at hrow
      | edit op => cases hmissing : op.runMissing <;> simp [Call.run, hmissing, Except.map] at hrow

end Call

end Problem

end Labyrithm
