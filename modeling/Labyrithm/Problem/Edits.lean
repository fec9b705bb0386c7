import Labyrithm.Problem.Ordinals
import Labyrithm.Sql.Guarded
import Mathlib.Data.List.Permutation
import Mathlib.Data.List.Sort

/-!
# Edits as transactions

`AddSingleTest`, `UpdateSingleTest`, `ReplaceTests` and `DeleteSingleTest` of
`backend/internal/problem/tests.go`, statement by statement, on the row of one problem with its rows of
`problem_tests`.  `Tests.lean` has them as functions, one call at a time.

A statement that writes rows finds them in its snapshot, waits for each, and looks at it again before
it writes.  The database has the rows in no order, so `ORDER BY ordinal` sorts.

An `INSERT` refers to the problem, and is held up by whoever has locked its row `FOR UPDATE`.  Two that
refer to it do not hold up each other, but only `ReplaceTests` inserts without the lock, and it starts
with the ordinal 1; so the second waits at the unique constraint for the first one to end.  Both are
the lock `RowLock.problem` here.

* `recheck`, `lockRow`, `updateRows`, `insertRow` — the statements.
* `Edit.handler` — the four calls; `Edit.op` names each as in `Tests.lean`.
* `Edit.SameGrounds` — what a call that holds the row of the problem has gone by.
* `Edit.Undisturbed` — the condition on a commit: nothing that the calls went by has changed.
-/

namespace Labyrithm

namespace Problem

open Sql Tx

/-- What a transaction locks: the row of the problem, or of a test. -/
inductive RowLock
  | problem
  | test (id : String)
  deriving DecidableEq

/-- A row that is written. -/
inductive RowWrite
  | insert (row : TestRow)
  | delete (id : String)
  | setOrdinal (id : String) (ordinal : ℤ)
  | setPoints (id : String) (points : ℤ)
  | setContent (id : String) (content : TestRow)
  deriving DecidableEq

/-- The row that it is. -/
def RowWrite.id : RowWrite → String
  | insert row => row.id
  | delete id => id
  | setOrdinal id _ => id
  | setPoints id _ => id
  | setContent id _ => id

/-- The row with an id gets new values. -/
def modifyRow (id : String) (f : TestRow → TestRow) (tests : List TestRow) : List TestRow :=
  tests.map fun t => if t.id = id then f t else t

/-- The columns that `UpdateSingleTest` writes. -/
def TestRow.withContent (content t : TestRow) : TestRow :=
  { t with
    input := content.input
    expected := content.expected
    inputSha := content.inputSha
    expectedSha := content.expectedSha
    points := content.points }

def RowWrite.apply : RowWrite → List TestRow → List TestRow
  | insert row, tests => tests ++ [row]
  | delete id, tests => tests.filter (·.id ≠ id)
  | setOrdinal id ordinal, tests => modifyRow id (fun t => { t with ordinal := ordinal }) tests
  | setPoints id points, tests => modifyRow id (fun t => { t with points := points }) tests
  | setContent id content, tests => modifyRow id content.withContent tests

instance : Sql.Store ProblemRow RowWrite := ⟨fun w p => { p with tests := w.apply p.tests }⟩

/-- A handler of the repository. -/
abbrev EditHandler (α : Type) := ExceptT Err (Tx ProblemRow RowWrite RowLock) α

/-! ## Statements -/

/-- `ORDER BY ordinal ASC`. -/
def byOrdinal (tests : List TestRow) : List TestRow :=
  tests.insertionSort fun t u => t.ordinal ≤ u.ordinal

/-- A row that was found is waited for, and is still what the statement is about. -/
def recheck (cond : TestRow → Bool) (id : String) : EditHandler (Option TestRow) := do
  acquire (.test id)
  select fun p => p.tests.find? fun t => t.id = id && cond t

def recheckFound (cond : TestRow → Bool) : Option TestRow → EditHandler (Option TestRow)
  | none => return none
  | some t => recheck cond t.id

/-- A statement that is about one row, by an id or by an ordinal. -/
def lockRow (cond : TestRow → Bool) : EditHandler (Option TestRow) := do
  let row ← select fun p => p.tests.find? cond
  recheckFound cond row

/-- The rows that a statement finds, in the order it visits them. -/
def rowsFound (scan : Scan) (cond : TestRow → Bool) (tests : List TestRow) : List String :=
  (scan.order (found cond tests)).filterMap fun i => tests[i]?.map (·.id)

/-- A statement that writes all rows that meet a condition. -/
def updateRows (scan : Scan) (cond : TestRow → Bool) (write : TestRow → EditHandler Unit) :
    EditHandler Unit := do
  let ids ← select fun p => rowsFound scan cond p.tests
  let _ ← forEach (fun id => do
    let row ← recheck cond id
    match row with
    | none => return ()
    | some t => write t) ids
  return ()

/-- A new ordinal, with the constraint that a problem has an ordinal once. -/
def writeOrdinal (f : ℤ → ℤ) (t : TestRow) : EditHandler Unit := do
  let taken ← select fun p => p.tests.any fun u => u.id ≠ t.id && u.ordinal = f t.ordinal
  if taken then throw .uniqueViolation else put (.setOrdinal t.id (f t.ordinal))

/-- An `INSERT` into `problem_tests`. -/
def insertRow (row : TestRow) : EditHandler Unit := do
  acquire .problem
  acquire (.test row.id)
  let taken ← select fun p => p.tests.any fun t => t.id = row.id || t.ordinal = row.ordinal
  if taken then throw .uniqueViolation else put (.insert row)

/-- The loop of `DistributeProblemPointsTx`. -/
def writeShares (maxScore : ℤ) (n : ℕ) (ids : List (String × ℕ)) : EditHandler Unit := do
  let _ ← forEach (fun (id, i) => do
    let row ← lockRow (·.id = id)
    match row with
    | none => return ()
    | some t => put (.setPoints t.id (share maxScore n i))) ids
  return ()

/-- `DistributeProblemPointsTx`. -/
def distributeProblemPointsTx (maxScore : ℤ) : EditHandler Unit := do
  let ids ← select fun p => (byOrdinal p.tests).map (·.id)
  if ids = [] ∨ maxScore ≤ 0 then return ()
  else writeShares maxScore ids.length ids.zipIdx

/-! ## The calls -/

/-- `AddSingleTest`.  `id` is the id of the new row. -/
def addSingleTest (sha : List UInt8 → String) (id : String) (input expected : List UInt8)
    (points : ℤ) : EditHandler Unit := transaction do
  acquire .problem
  let maxScore ← select (·.maxScore)
  let nextOrd ← select (·.nextOrdinal)
  if points < 0 then throw .pointsNegative
  else do
    let existingPoints ← select fun p => (byOrdinal p.tests).map (·.points)
    let currentSum := existingPoints.foldl (fun sum points => int32 (sum + points)) 0
    let shouldAutoDistribute := points ≤ 0 && isEvenDistribution existingPoints maxScore
    let pts := if shouldAutoDistribute then 0 else points
    if !shouldAutoDistribute ∧ points > 0 ∧ int32 (currentSum + points) > maxScore then
      throw (.exceedsMaxScore points maxScore currentSum)
    else do
      let existing ← select (·.findIdentical (sha input) (sha expected) none)
      match existing with
      | some t => throw (.identicalToExisting t.ordinal)
      | none =>
          insertRow (ProblemRow.testRow sha id nextOrd input expected pts)
          if shouldAutoDistribute then do
            distributeProblemPointsTx maxScore
            let row ← select fun p => p.tests.find? (·.ordinal = nextOrd)
            match row with
            | none => throw .noRow
            | some _ => finish
          else finish

/-- `UpdateSingleTest`; `none` leaves a part as it is. -/
def updateSingleTest (sha : List UInt8 → String) (ordinal : ℤ) (input expected : Option (List UInt8))
    (points : Option ℤ) : EditHandler Unit := transaction do
  let row ← lockRow (·.ordinal = ordinal)
  match row with
  | none => throw .notFound
  | some current =>
      if ∃ n ∈ points, n < 0 then throw .pointsNegative
      else do
        let content := ProblemRow.testRow sha current.id ordinal (input.getD current.input)
          (expected.getD current.expected) (points.getD current.points)
        let existing ← select (·.findIdentical content.inputSha content.expectedSha (some ordinal))
        match existing with
        | some t => throw (.identicalToExisting t.ordinal)
        | none =>
            let row ← lockRow (·.ordinal = ordinal)
            match row with
            | none => throw .noRow
            | some t =>
                put (.setContent t.id content)
                finish

/-- The loop of `ReplaceTests`, as in `ProblemRow.insertTests`. -/
def insertRows (sha : List UInt8 → String) (ids : ℕ → String) :
    List TestInput → ℕ → List (String × ℕ) → EditHandler Unit
  | [], _, _ => return ()
  | t :: rest, i, seenHashes =>
      let pairHash := sha t.input ++ ":" ++ sha t.expected
      match seenHashes.lookup pairHash with
      | some firstIdx => throw (.identicalTo (i + 1) (firstIdx + 1))
      | none => do
          insertRow (ProblemRow.testRow sha (ids i) (i + 1) t.input t.expected t.points)
          insertRows sha ids rest (i + 1) ((pairHash, i) :: seenHashes)

/-- `ReplaceTests`.  `scan` is the order of the `DELETE`, `ids` are the ids of the new rows. -/
def replaceTests (sha : List UInt8 → String) (scan : Scan) (ids : ℕ → String)
    (tests : List TestInput) : EditHandler Unit := transaction do
  let maxScore ← select (·.maxScore)
  match validateTestPoints tests maxScore with
  | .error err => throw err
  | .ok () => do
      updateRows scan (fun _ => true) fun t => put (.delete t.id)
      insertRows sha ids (distributePoints tests maxScore) 0 []
      finish

/-- `DeleteSingleTest`; `scan₁` and `scan₂` are the orders of the two `UPDATE`s. -/
def deleteSingleTest (scan₁ scan₂ : Scan) (ordinal : ℤ) : EditHandler Unit := transaction do
  acquire .problem
  let maxScore ← select (·.maxScore)
  let existingPoints ← select fun p => (byOrdinal p.tests).map (·.points)
  let wasEven := isEvenDistribution existingPoints maxScore
  let row ← lockRow (·.ordinal = ordinal)
  match row with
  | none => throw .notFound
  | some t => do
      put (.delete t.id)
      updateRows scan₁ (·.ordinal > ordinal) (writeOrdinal fun o => -o)
      updateRows scan₂ (·.ordinal < 0) (writeOrdinal fun o => -o - 1)
      if wasEven then do
        distributeProblemPointsTx maxScore
        finish
      else finish

/-- A call that edits the suite in one transaction. -/
inductive Edit
  | addSingleTest (id : String) (input expected : List UInt8) (points : ℤ)
  | updateSingleTest (ordinal : ℤ) (input expected : Option (List UInt8)) (points : Option ℤ)
  | replaceTests (scan : Scan) (ids : ℕ → String) (tests : List TestInput)
  | deleteSingleTest (scan₁ scan₂ : Scan) (ordinal : ℤ)

def Edit.handler (sha : List UInt8 → String) : Edit → EditHandler Unit
  | .addSingleTest id input expected points => Problem.addSingleTest sha id input expected points
  | .updateSingleTest ordinal input expected points =>
      Problem.updateSingleTest sha ordinal input expected points
  | .replaceTests scan ids tests => Problem.replaceTests sha scan ids tests
  | .deleteSingleTest scan₁ scan₂ ordinal => Problem.deleteSingleTest scan₁ scan₂ ordinal

def Edit.prog (sha : List UInt8 → String) (e : Edit) : Tx ProblemRow RowWrite RowLock (Except Err Unit) :=
  (e.handler sha).run

/-- The call as one step. -/
def Edit.op : Edit → TestOp
  | .addSingleTest id input expected points => .addSingleTest id input expected points
  | .updateSingleTest ordinal input expected points => .updateSingleTest ordinal input expected points
  | .replaceTests _ ids tests => .replaceTests ids tests
  | .deleteSingleTest scan₁ scan₂ ordinal => .deleteSingleTest scan₁ scan₂ ordinal

/-- The calls so far, and the suite they are at. -/
abbrev Editing := Sys Edit ProblemRow RowWrite RowLock (Except Err Unit)

/-! ## The condition -/

/-- A new test does not fit into the score. -/
def ProblemRow.exceeds (points : ℤ) (p : ProblemRow) : Prop :=
  points > 0 ∧ int32 (p.currentSum + points) > p.maxScore

instance (points : ℤ) (p : ProblemRow) : Decidable (p.exceeds points) :=
  inferInstanceAs (Decidable (_ ∧ _))

/-- What a call that holds the row of the problem has gone by is the same in two suites. -/
def Edit.SameGrounds : Edit → ProblemRow → ProblemRow → Prop
  | .addSingleTest _ _ _ points, p, p' =>
      p'.nextOrdinal = p.nextOrdinal ∧ p'.shouldAutoDistribute points = p.shouldAutoDistribute points ∧
        (p'.exceeds points ↔ p.exceeds points)
  | .deleteSingleTest .., p, p' =>
      isEvenDistribution p'.points p'.maxScore = isEvenDistribution p.points p.maxScore
  | .updateSingleTest .., _, _ => True
  | .replaceTests .., _, _ => True

instance (e : Edit) (p p' : ProblemRow) : Decidable (e.SameGrounds p p') :=
  match e with
  | .addSingleTest .. => inferInstanceAs (Decidable (_ ∧ _ ∧ _))
  | .deleteSingleTest .. => inferInstanceAs (Decidable (_ = _))
  | .updateSingleTest .. => isTrue trivial
  | .replaceTests .. => isTrue trivial

/-- What a call has checked is still so: no test has the content it writes, and `ReplaceTests` has
deleted the tests there are. -/
def Edit.UpToDate (sha : List UInt8 → String) : Edit → List RowWrite → ProblemRow → Prop
  | .addSingleTest _ input expected _, _, p =>
      p.findIdentical (sha input) (sha expected) none = none
  | .updateSingleTest ordinal input expected _, _, p =>
      ∀ t ∈ p.tests.find? (·.ordinal = ordinal),
        p.findIdentical (sha (input.getD t.input)) (sha (expected.getD t.expected)) (some ordinal) = none
  | .replaceTests .., ws, p => ∀ t ∈ p.tests, .delete t.id ∈ ws
  | .deleteSingleTest .., _, _ => True

instance (sha : List UInt8 → String) (e : Edit) (ws : List RowWrite) (p : ProblemRow) :
    Decidable (e.UpToDate sha ws p) :=
  match e with
  | .addSingleTest .. => inferInstanceAs (Decidable (_ = none))
  | .updateSingleTest ordinal input expected _ => inferInstanceAs (Decidable
      (∀ t ∈ p.tests.find? (·.ordinal = ordinal),
        p.findIdentical (sha (input.getD t.input)) (sha (expected.getD t.expected)) (some ordinal) = none))
  | .replaceTests .. => inferInstanceAs (Decidable (∀ t ∈ p.tests, RowWrite.delete t.id ∈ ws))
  | .deleteSingleTest .. => isTrue trivial

/-- A commit that comes too late for nobody: what the call has checked is still so, and the others that
hold the row of the problem find in the new suite what they have gone by. -/
def Edit.Undisturbed (sha : List UInt8 → String) (e : Edit) (ws : List RowWrite)
    (others : List (Edit × List RowLock)) (p : ProblemRow) : Prop :=
  e.UpToDate sha ws p ∧ ∀ o ∈ others, .problem ∈ o.2 → o.1.SameGrounds p (view ws p)

instance (sha : List UInt8 → String) (e : Edit) (ws : List RowWrite)
    (others : List (Edit × List RowLock)) (p : ProblemRow) :
    Decidable (e.Undisturbed sha ws others p) :=
  inferInstanceAs (Decidable (_ ∧ ∀ o ∈ others, RowLock.problem ∈ o.2 → o.1.SameGrounds p (view ws p)))

/-- Some order of the calls that were committed, one after the other, makes the suite what it is. -/
def Serializable (sha : List UInt8 → String) (p : ProblemRow) (s : Editing) : Prop :=
  ∃ order : List Edit, order.Perm s.committed ∧
    order.foldlM (fun p e => e.op.run sha p) p = .ok s.db

instance (sha : List UInt8 → String) (p : ProblemRow) (s : Editing) : Decidable (Serializable sha p s) :=
  decidable_of_iff (∃ order ∈ s.committed.permutations',
      order.foldlM (fun p e => e.op.run sha p) p = .ok s.db) (by
    simp only [Serializable, List.mem_permutations'])

/-- No two tests have the same input and expected output. -/
def ProblemRow.Distinct (p : ProblemRow) : Prop := (p.tests.map fun t => (t.input, t.expected)).Nodup

instance (p : ProblemRow) : Decidable p.Distinct := inferInstanceAs (Decidable (List.Nodup _))

end Problem

end Labyrithm
