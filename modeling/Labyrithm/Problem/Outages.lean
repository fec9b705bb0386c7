import Labyrithm.Problem.Announcements
import Labyrithm.Problem.Budget

/-!
# The admin handlers over a store that fails

The handlers of `admin_problem_tests.go` and `admin_problems.go` once more, where the operations of the
repositories may fail because the database does.  A handler makes an operation at most once, so what
fails in a request is a map from the operations to errors.  A transaction that fails at one of its
statements, or at its commit, is rolled back, so it is one operation; `GetTestMetadata` is not one
transaction, and its statements fail by themselves, with errors that the code ignores.

* `attemptIn`, `readMetadata` — the parts of the handlers that may fail.
* `Request.handleIn` — the handlers.
* **`handleIn_up`** — with a store that does not fail they are those of `Handlers.lean`.
* `Outcome.after` — what a request leaves.
-/

namespace Labyrithm

namespace Problem

/-- An operation on the store. -/
inductive StoreOp
  | getByID
  | getTestMetadata
  /-- the score that is to be split among the tests of a suite without points -/
  | readMaxScore
  /-- the `UPDATE` of the points of one of them -/
  | givePoints (ordinal : ℤ)
  | getProblemTests
  | create
  | update
  | setPublished
  | delete
  | edit
  deriving DecidableEq, Repr

/-- The errors of the operations that fail. -/
abbrev Outage := StoreOp → Option String

/-- A store that does not fail. -/
def up : Outage := fun _ => none

def Outage.fails (down : Outage) (op : StoreOp) : Bool := (down op).isSome

/-- The operation that a call is. -/
def Call.op : Call → StoreOp
  | .create _ => .create
  | .update _ => .update
  | .setPublished _ => .setPublished
  | .delete => .delete
  | .edit _ => .edit
  | .getTestMetadata => .getTestMetadata

/-- An error of a call: one of its own, or one of the store. -/
inductive Failure
  | err (e : Err)
  | down (text : String)
  deriving DecidableEq, Repr

def Failure.message : Failure → String
  | err e => e.message
  | down text => text

/-- A test for errors that the calls make themselves. -/
def Failure.is (f : Err → Bool) : Failure → Bool
  | err e => f e
  | down _ => false

/-! ## The parts of a handler -/

/-- A call of the repository, over a store that may fail. -/
def attemptIn (down : Outage) (sha : List UInt8 → String) (id : String) (call : Call)
    (onError : Failure → Reply) (σ : Store) (next : Store → Outcome) : Outcome :=
  match down call.op with
  | some text => refuse (onError (.down text))
  | none => attempt sha id call (fun e => onError (.err e)) σ next

/-- `GetByID`, where an error is no problem. -/
def Store.getByID (down : Outage) (id : String) (σ : Store) : Option ProblemRow :=
  if down.fails .getByID then none else σ.lookup id

/-- The points that `GetTestMetadata` writes, by the ordinals of the tests. -/
def ProblemRow.pointsGiven (down : Outage) (p : ProblemRow) : List (ℤ × ℤ) :=
  if p.Unscored ∧ !down.fails .readMaxScore then
    (p.tests.mapIdx fun i t => (t.ordinal, share p.maxScore p.tests.length i)).filter fun e =>
      !down.fails (.givePoints e.1)
  else []

/-- What `GetTestMetadata` does to the row of its problem: all of it, or the updates that go through. -/
def metadataCall (down : Outage) (row : Option ProblemRow) : Call :=
  if row.map (·.pointsGiven down) = row.map (·.pointsGiven up) then .getTestMetadata
  else .edit (.updateTestPoints ((row.map (·.pointsGiven down)).getD []))

/-- What it returns, with the points it has written or tried to. -/
def Store.metadataRead (down : Outage) (id : String) (σ : Store) : List TestCaseMetadata :=
  (((σ.lookup id).map fun p => if down.fails .readMaxScore then p else p.getTestMetadata).map
    fun p => p.tests.map TestRow.metadata).getD []

/-- `GetTestMetadata`. -/
def readMetadata (down : Outage) (sha : List UInt8 → String) (id : String) (σ : Store)
    (onError : Outcome) (next : List TestCaseMetadata → Store → Outcome) : Outcome :=
  if down.fails .getTestMetadata then onError
  else attempt sha id (metadataCall down (σ.lookup id)) (fun _ => onError.1) σ
    (next (σ.metadataRead down id))

/-! ## The suite of a problem -/

/-- `replaceTestCases`; an error of reading the problem is ignored. -/
def replaceTestCasesIn (down : Outage) (sha : List UInt8 → String) (id : String) (ids : ℕ → String)
    (tests : List TestCaseDTO) (σ : Store) : Outcome :=
  if tests = [] then refuse (badRequest "test cases list cannot be empty")
  else
    check (tests.findSome? checkTestCase) <|
      check ((σ.getByID down id).bind fun p => validateTestsAgainstSamples p.samples tests) <|
        attemptIn down sha id (.edit (.replaceTests ids (tests.map TestCaseDTO.toInput)))
          (fun err =>
            if err.is Err.isPointsMismatch || err.is Err.isDuplicateTest then badRequest err.message
            else internalError err.message) σ
          fun _ => announce id (refuse .noContent)

/-- `getAdminProblemTests`. -/
def getAdminProblemTestsIn (down : Outage) (sha : List UInt8 → String) (id : String) (σ : Store) :
    Outcome :=
  readMetadata down sha id σ (refuse (internalError "failed to fetch test case metadata"))
    fun metadata _ => refuse (.tests 200 none (some metadata))

/-- `addSingleTestCase`. -/
def addSingleTestCaseIn (down : Outage) (sha : List UInt8 → String) (id testId : String)
    (body : SingleTestBody) (σ : Store) : Outcome :=
  let (input, expected) := body.given
  let points := body.points.getD 0
  check (body.checkFiles s!"input file exceeds max size of {maxSingleTestFileSize / (1024 * 1024)} MB"
      s!"expected output file exceeds max size of {maxSingleTestFileSize / (1024 * 1024)} MB") <|
    check (checkSizes points input expected) <|
      if input = [] ∨ expected = [] then
        refuse (badRequest "both input and expected output are required")
      else
        match σ.getByID down id with
        | none => refuse (notFound "problem not found")
        | some p =>
            check ((identicalSample p.samples input expected).map fun s =>
                s!"test case is identical to public sample {s.ordinal}; " ++
                  "evaluation test cases must be distinct") <|
              attemptIn down sha id (.edit (.addSingleTest testId input expected points))
                (fun err =>
                  if err.is Err.isDuplicateTest || err = .err .notFound || err.is Err.isAboutPoints then
                    badRequest err.message
                  else internalError ("failed to save test case: " ++ err.message)) σ
                fun σ₁ => announce id <|
                  let added := (σ₁.metadata id).getLast?
                  readMetadata down sha id σ₁ (refuse (.tests 201 added (some added.toList)))
                    fun metadata _ => refuse (.tests 201 added (some metadata))

/-- `updateSingleTestCase`. -/
def updateSingleTestCaseIn (down : Outage) (sha : List UInt8 → String) (id : String)
    (ordinal : List Char) (body : SingleTestBody) (σ : Store) : Outcome :=
  match ordinalParam ordinal with
  | none => refuse (badRequest "invalid test case ordinal")
  | some ord =>
      let (input, expected) := body.changes
      let points := body.points
      check (body.checkFiles "input file exceeds 20MB limit" "expected file exceeds 20MB limit") <|
        check (checkSizes (points.getD 0) (input.getD []) (expected.getD [])) <|
          attemptIn down sha id (.edit (.updateSingleTest ord input expected points))
            (fun err =>
              if err = .err .notFound then notFound "test case not found"
              else if err.is Err.isDuplicateTest || err.is Err.isAboutPoints then badRequest err.message
              else internalError ("failed to update test case: " ++ err.message)) σ
            fun σ => announce id <|
              refuse (.tests 200 (((σ.tests id).find? (·.ordinal = ord)).map TestRow.metadata) none)

/-- The end of `deleteSingleTestCase`, after the checks. -/
def deleteTestIn (down : Outage) (sha : List UInt8 → String) (id : String) (ord : ℤ)
    (scan₁ scan₂ : Sql.Scan) (σ : Store) : Outcome :=
  attemptIn down sha id (.edit (.deleteSingleTest scan₁ scan₂ ord))
    (fun err =>
      if err = .err .notFound then notFound "test case not found"
      else internalError ("failed to delete test case: " ++ err.message)) σ
    fun _ => announce id (refuse .noContent)

/-- `deleteSingleTestCase`; the number of tests is looked at only if nothing fails. -/
def deleteSingleTestCaseIn (down : Outage) (sha : List UInt8 → String) (id : String)
    (ordinal : List Char) (scan₁ scan₂ : Sql.Scan) (σ : Store) : Outcome :=
  match ordinalParam ordinal with
  | none => refuse (badRequest "invalid test case ordinal")
  | some ord =>
      if (σ.getByID down id).any (·.published) then
        readMetadata down sha id σ (deleteTestIn down sha id ord scan₁ scan₂ σ) fun metadata σ =>
          if metadata.length ≤ minEvaluationTestCases then
            refuse (badRequest <| "cannot delete test case: published problems require at least " ++
              s!"{minEvaluationTestCases} evaluation test cases")
          else deleteTestIn down sha id ord scan₁ scan₂ σ
      else deleteTestIn down sha id ord scan₁ scan₂ σ

/-- `updateTestPoints`. -/
def updateTestPointsIn (down : Outage) (sha : List UInt8 → String) (id : String)
    (payload : PointsPayload) (σ : Store) : Outcome :=
  match σ.getByID down id with
  | none => refuse (notFound "problem not found")
  | some p =>
      if payload.checked = [] then refuse (badRequest "points payload cannot be empty")
      else
        check (payload.checked.findSome? fun (ord, pts) => checkPoints ord pts) <|
          let sum := payload.checked.foldl (fun sum (_, pts) => int32 (sum + pts)) 0
          if sum ≠ p.maxScore then
            refuse (badRequest s!"points sum ({sum}) does not match problem max score ({p.maxScore})")
          else
            attemptIn down sha id (.edit (.updateTestPoints payload.written))
              (fun err => internalError ("failed to update test points: " ++ err.message)) σ
              fun _ => announce id (refuse .noContent)

/-! ## Problems -/

/-- The tests of a payload are saved, and the suite is announced. -/
def saveTestsIn (down : Outage) (sha : List UInt8 → String) (id : String) (ids : ℕ → String)
    (tests : List TestCaseDTO) (σ : Store) (next : Outcome) : Outcome :=
  attemptIn down sha id (.edit (.replaceTests ids (numberTests tests)))
    (fun err =>
      if err.is Err.isPointsMismatch then badRequest err.message
      else internalError ("failed to save evaluation test cases: " ++ err.message)) σ
    fun _ => announce id next

/-- `createProblem`. -/
def createProblemIn (down : Outage) (sha : List UInt8 → String) (id : String) (ids : ℕ → String)
    (req : ProblemPayload) (σ : Store) : Outcome :=
  let tests := req.tests.getD []
  if !validateSlug req.trimmedSlug then refuse (badRequest errInvalidSlug)
  else if req.published ∧ tests.length < minEvaluationTestCases then refuse (badRequest tooFewTests)
  else
    check (validateTestsAgainstSamples req.samples tests) <|
      attemptIn down sha id (.create req.toInput)
        (fun err =>
          if err = .err .duplicateSlug then .error 409 "problem slug already exists"
          else internalError ("failed to create problem: " ++ err.message)) σ
        fun σ =>
          if tests = [] then refuse (.problem 201 id)
          else saveTestsIn down sha id ids tests σ (refuse (.problem 201 id))

/-- The end of `updateProblem`, after the checks. -/
def saveProblemIn (down : Outage) (sha : List UInt8 → String) (id : String) (ids : ℕ → String)
    (req : ProblemPayload) (σ : Store) : Outcome :=
  attemptIn down sha id (.update req.toInput)
    (fun err =>
      if err = .err .notFound then notFound "problem not found"
      else internalError ("failed to update problem: " ++ err.message)) σ
    fun σ =>
      match req.tests with
      | none => refuse (.problem 200 id)
      | some tests => saveTestsIn down sha id ids tests σ (refuse (.problem 200 id))

/-- `updateProblem`. -/
def updateProblemIn (down : Outage) (sha : List UInt8 → String) (id : String) (ids : ℕ → String)
    (req : ProblemPayload) (σ : Store) : Outcome :=
  if req.trimmedSlug ≠ [] ∧ !validateSlug req.trimmedSlug then refuse (badRequest errInvalidSlug)
  else
    match req.tests with
    | some tests =>
        if req.published ∧ tests.length < minEvaluationTestCases then refuse (badRequest tooFewTests)
        else
          check (validateTestsAgainstSamples req.samples tests) (saveProblemIn down sha id ids req σ)
    | none =>
        if req.published then
          readMetadata down sha id σ (refuse (badRequest tooFewTests)) fun metadata σ =>
            if metadata.length < minEvaluationTestCases then refuse (badRequest tooFewTests)
            else saveProblemIn down sha id ids req σ
        else saveProblemIn down sha id ids req σ

/-- `setProblemPublished`. -/
def setProblemPublishedIn (down : Outage) (sha : List UInt8 → String) (id : String)
    (published : Bool) (σ : Store) : Outcome :=
  if published ∧ (down.fails .getProblemTests ∨ (σ.tests id).length < minEvaluationTestCases) then
    refuse (badRequest <| "cannot publish problem with fewer than " ++
      s!"{minEvaluationTestCases} evaluation test cases")
  else
    attemptIn down sha id (.setPublished published)
      (fun err =>
        if err = .err .notFound then notFound "problem not found"
        else internalError "failed to set published status") σ
      fun _ => refuse .noContent

/-- `deleteProblem`. -/
def deleteProblemIn (down : Outage) (sha : List UInt8 → String) (id : String) (σ : Store) : Outcome :=
  attemptIn down sha id .delete
    (fun err =>
      if err = .err .notFound then notFound "problem not found"
      else internalError "failed to delete problem") σ
    fun _ => announce id (refuse .noContent)

def Request.handleIn (down : Outage) (sha : List UInt8 → String) : Request → Store → Outcome
  | .replaceTestCases id ids tests => replaceTestCasesIn down sha id ids tests
  | .getAdminProblemTests id => getAdminProblemTestsIn down sha id
  | .addSingleTestCase id testId body => addSingleTestCaseIn down sha id testId body
  | .updateSingleTestCase id ordinal body => updateSingleTestCaseIn down sha id ordinal body
  | .deleteSingleTestCase id ordinal scan₁ scan₂ =>
      deleteSingleTestCaseIn down sha id ordinal scan₁ scan₂
  | .updateTestPoints id payload => updateTestPointsIn down sha id payload
  | .createProblem id ids req => createProblemIn down sha id ids req
  | .updateProblem id ids req => updateProblemIn down sha id ids req
  | .setProblemPublished id published => setProblemPublishedIn down sha id published
  | .deleteProblem id => deleteProblemIn down sha id

/-! ## A store that does not fail -/

section Up

variable {sha : List UInt8 → String} {id : String} {σ σ' : Store}

lemma attemptIn_up (call : Call) (onError : Failure → Reply) (next : Store → Outcome) :
    attemptIn up sha id call onError σ next =
      attempt sha id call (fun e => onError (.err e)) σ next := rfl

/-- The store after the metadata of a problem have been read. -/
def Store.scored (id : String) (σ : Store) : Store :=
  σ.put id ((σ.lookup id).map (·.getTestMetadata))

/-- Reading the metadata is no error. -/
lemma attempt_metadata (onError : Err → Reply) (next : Store → Outcome) :
    attempt sha id .getTestMetadata onError σ next =
      ((next (σ.scored id)).1, .commit id .getTestMetadata :: (next (σ.scored id)).2) := rfl

/-- What is returned is what is then stored. -/
lemma metadataRead_up : σ.metadataRead up id = (σ.scored id).metadata id := by
  rw [Store.metadata, Store.tests, Store.scored, lookup_put, if_pos rfl, Store.metadataRead]
  cases σ.lookup id <;> rfl

lemma readMetadata_up (onError : Outcome) (next : List TestCaseMetadata → Store → Outcome) :
    readMetadata up sha id σ onError next =
      ((next ((σ.scored id).metadata id) (σ.scored id)).1,
        .commit id .getTestMetadata :: (next ((σ.scored id).metadata id) (σ.scored id)).2) := by
  have hcall : metadataCall up (σ.lookup id) = .getTestMetadata := if_pos rfl
  have hread : readMetadata up sha id σ onError next =
      attempt sha id (metadataCall up (σ.lookup id)) (fun _ => onError.1) σ
        (next (σ.metadataRead up id)) := rfl
  rw [hread, hcall, attempt_metadata, metadataRead_up]

lemma length_metadata (id : String) (σ : Store) : (σ.metadata id).length = (σ.tests id).length :=
  List.length_map ..

/-- **With a store that does not fail, the handlers do what they did.** -/
theorem handleIn_up (sha : List UInt8 → String) (r : Request) (σ : Store) :
    r.handleIn up sha σ = r.handle sha σ := by
  cases r with
  | replaceTestCases | updateTestPoints => rfl
  | getAdminProblemTests id =>
      simp only [Request.handleIn, Request.handle, getAdminProblemTestsIn, getAdminProblemTests,
        readMetadata_up, attempt_metadata]
  | addSingleTestCase id testId body =>
      simp only [Request.handleIn, Request.handle, addSingleTestCaseIn, addSingleTestCase, attemptIn_up,
        Failure.err.injEq, readMetadata_up, attempt_metadata]
      rfl
  | updateSingleTestCase id ordinal body =>
      simp only [Request.handleIn, Request.handle, updateSingleTestCaseIn, updateSingleTestCase,
        attemptIn_up, Failure.err.injEq]
      rfl
  | deleteSingleTestCase id ordinal scan₁ scan₂ =>
      simp only [Request.handleIn, Request.handle, deleteSingleTestCaseIn, deleteSingleTestCase,
        deleteTestIn, deleteTest, attemptIn_up, Failure.err.injEq, readMetadata_up, attempt_metadata,
        length_metadata]
      rfl
  | updateProblem id ids req =>
      simp only [Request.handleIn, Request.handle, updateProblemIn, updateProblem, saveProblemIn,
        saveProblem, attemptIn_up, Failure.err.injEq, readMetadata_up, attempt_metadata, length_metadata]
      rfl
  | setProblemPublished id published =>
      simp only [Request.handleIn, Request.handle, setProblemPublishedIn, setProblemPublished,
        attemptIn_up, Failure.err.injEq, Outage.fails, up, Option.isSome_none, Bool.false_eq_true,
        false_or]
  | createProblem id ids req =>
      simp only [Request.handleIn, Request.handle, createProblemIn, createProblem, attemptIn_up,
        Failure.err.injEq]
      rfl
  | deleteProblem id =>
      simp only [Request.handleIn, Request.handle, deleteProblemIn, deleteProblem, attemptIn_up,
        Failure.err.injEq]

end Up

/-! ## What a request leaves -/

/-- What a handler does, done to the store. -/
def Store.apply (sha : List UInt8 → String) (σ : Store) : Effect → Store
  | .commit id call =>
      match σ.call sha id call with
      | .ok σ' => σ'
      | .error _ => σ
  | .invalidate _ => σ

/-- The store after a request. -/
def Store.after (sha : List UInt8 → String) (σ : Store) (o : Outcome) : Store :=
  o.2.foldl (Store.apply sha) σ

section After

variable {sha : List UInt8 → String} {down : Outage} {id : String} {σ σ' : Store} {call : Call}
  {next : Store → Outcome} {p : ProblemRow}

@[simp] lemma after_refuse (reply : Reply) : σ.after sha (refuse reply) = σ := rfl

@[simp] lemma after_announce (next : Outcome) : σ.after sha (announce id next) = σ.after sha next := rfl

lemma after_check (text : Option String) (next : Outcome) :
    σ.after sha (check text next) = if text = none then σ.after sha next else σ := by
  cases text <;> rfl

lemma after_attempt_ok (onError : Err → Reply) (h : σ.call sha id call = .ok σ') :
    σ.after sha (attempt sha id call onError σ next) = σ'.after sha (next σ') := by
  simp [attempt, Store.after, Store.apply, h]

lemma after_attempt_error {err : Err} (onError : Err → Reply) (h : σ.call sha id call = .error err) :
    σ.after sha (attempt sha id call onError σ next) = σ := by
  simp [attempt, Store.after, refuse, h]

lemma after_attemptIn_down (onError : Failure → Reply) (h : down.fails call.op = true) :
    σ.after sha (attemptIn down sha id call onError σ next) = σ := by
  obtain ⟨text, htext⟩ := Option.isSome_iff_exists.mp h
  simp [attemptIn, htext]

lemma after_attemptIn_up (onError : Failure → Reply) (h : down.fails call.op = false) :
    σ.after sha (attemptIn down sha id call onError σ next) =
      σ.after sha (attempt sha id call (fun e => onError (.err e)) σ next) := by
  have hnone : down call.op = none := by simpa [Outage.fails] using h
  simp [attemptIn, hnone]

/-- A call on the row of a problem, as one on the store. -/
lemma call_of_run {row : Option ProblemRow} (hfree : σ.slugTaken call = false)
    (h : call.run sha (σ.lookup id) = .ok row) : σ.call sha id call = .ok (σ.put id row) := by
  simp [Store.call, hfree, h, Except.map]

end After

/-! ## The metadata of a suite -/

namespace ProblemRow

variable {p : ProblemRow} {down : Outage} {points : List (ℤ × ℤ)}

/-- A suite with some points written, by the ordinals of the tests. -/
def withPoints (points : List (ℤ × ℤ)) (p : ProblemRow) : ProblemRow :=
  { p with tests := p.tests.map fun t => { t with points := (given points t.ordinal).getD t.points } }

lemma updateTestPoints_of_nonneg (h : ∀ e ∈ points, 0 ≤ e.2) :
    p.updateTestPoints points = .ok (p.withPoints points) := by
  induction points generalizing p with
  | nil =>
      have hsame : p.withPoints [] = p := by simp [withPoints, given]
      rw [hsame]
      rfl
  | cons e points ih =>
      obtain ⟨ord, pts⟩ := e
      obtain ⟨hfirst, hrest⟩ := List.forall_mem_cons.mp h
      rw [updateTestPoints, if_neg (not_lt.mpr hfirst), ih hrest]
      simp only [withPoints, setPoints, List.map_map]
      congr 2
      refine List.map_congr_left fun t _ => ?_
      simp only [Function.comp_apply, given]
      split_ifs <;> cases given points t.ordinal <;> rfl

lemma given_eq_some_iff {o n : ℤ} (hnodup : (points.map Prod.fst).Nodup) :
    given points o = some n ↔ (o, n) ∈ points := by
  induction points generalizing n with
  | nil => simp [given]
  | cons e points ih =>
      obtain ⟨ord, pts⟩ := e
      rw [List.map_cons, List.nodup_cons] at hnodup
      rw [given, Option.or_eq_some_iff, ih hnodup.2, List.mem_cons]
      by_cases ho : o = ord
      · subst ho
        have hnot (n : ℤ) : (o, n) ∉ points := fun hn => hnodup.1 (List.mem_map.mpr ⟨_, hn, rfl⟩)
        have hnone : given points o = none := by
          refine Option.eq_none_iff_forall_ne_some.mpr ?_
          intro n hn
          exact hnot n ((ih hnodup.2).mp hn)
        simp [hnot, hnone, eq_comm]
      · simp [ho]

lemma map_fst_shares (p : ProblemRow) :
    (p.tests.mapIdx fun i t => (t.ordinal, share p.maxScore p.tests.length i)).map Prod.fst =
      p.ordinals := by
  refine List.ext_getElem (by simp [ordinals]) fun i _ _ => ?_
  simp [ordinals]

lemma pointsGiven_nodup (h : p.Numbered) (down : Outage) : ((p.pointsGiven down).map Prod.fst).Nodup := by
  unfold pointsGiven
  split_ifs
  · refine (List.filter_sublist.map _).nodup ?_
    rw [map_fst_shares, h]
    exact nodup_oneTo _
  · exact List.nodup_nil

lemma pointsGiven_nonneg : ∀ e ∈ p.pointsGiven down, 0 ≤ e.2 := by
  intro e he
  unfold pointsGiven at he
  split_ifs at he with hscored
  · obtain ⟨i, hi, rfl⟩ := List.mem_mapIdx.mp (List.mem_of_mem_filter he)
    exact shares_nonneg hscored.1.2.2.le _ (List.mem_map_of_mem (List.mem_range.mpr hi))
  · cases he

/-- All the updates together give a suite its points. -/
lemma withPoints_up (h : p.Numbered) : p.withPoints (p.pointsGiven up) = p.getTestMetadata := by
  by_cases hscored : p.Unscored
  · have hgiven : p.pointsGiven up =
        p.tests.mapIdx fun i t => (t.ordinal, share p.maxScore p.tests.length i) := by
      simp [pointsGiven, hscored, up, Outage.fails]
    refine Eq.trans ?_ (if_pos hscored).symm
    rw [withPoints]
    congr 1
    refine List.ext_getElem (by simp) fun i hi _ => ?_
    have hi : i < p.tests.length := by simpa using hi
    have hshare : given (p.pointsGiven up) p.tests[i].ordinal =
        some (share p.maxScore p.tests.length i) := by
      rw [given_eq_some_iff (pointsGiven_nodup h up), hgiven]
      exact List.mem_mapIdx.mpr ⟨i, hi, rfl⟩
    simp [hshare]
  · have hnone : p.pointsGiven up = [] := by simp [pointsGiven, hscored]
    rw [getTestMetadata_eq hscored, hnone]
    simp [withPoints, given]

@[simp] lemma length_withPoints : (p.withPoints points).tests.length = p.tests.length := by
  simp [withPoints]

/-- What `GetTestMetadata` makes of a suite. -/
lemma metadataCall_run (h : p.Numbered) (sha : List UInt8 → String) (down : Outage) :
    (metadataCall down (some p)).run sha (some p) =
      .ok (some (p.withPoints (p.pointsGiven down))) := by
  unfold metadataCall
  split_ifs with hall
  · have hall : p.pointsGiven down = p.pointsGiven up := Option.some.inj hall
    rw [hall, withPoints_up h]
    rfl
  · simp [Call.run, TestOp.run, updateTestPoints_of_nonneg pointsGiven_nonneg, Except.map]

end ProblemRow

section Metadata

variable {sha : List UInt8 → String} {down : Outage} {id : String} {σ : Store}

/-- The store after the metadata of a problem have been read, as far as the store lets it. -/
def Store.scoredIn (down : Outage) (id : String) (σ : Store) : Store :=
  σ.put id ((σ.lookup id).map fun p => p.withPoints (p.pointsGiven down))

lemma call_metadataCall (hσ : σ.Numbered) :
    σ.call sha id (metadataCall down (σ.lookup id)) = .ok (σ.scoredIn down id) := by
  refine call_of_run ?_ ?_
  · unfold metadataCall
    split_ifs <;> rfl
  · cases hrow : σ.lookup id with
    | none => rfl
    | some p => exact ProblemRow.metadataCall_run (hσ id p hrow) sha down

lemma after_readMetadata (hσ : σ.Numbered) (onError : Outcome)
    (next : List TestCaseMetadata → Store → Outcome) :
    σ.after sha (readMetadata down sha id σ onError next) =
      if down.fails .getTestMetadata then σ.after sha onError
      else (σ.scoredIn down id).after sha (next (σ.metadataRead down id) (σ.scoredIn down id)) := by
  unfold readMetadata
  split_ifs
  · rfl
  · exact after_attempt_ok _ (call_metadataCall hσ)

/-- As many metadata are returned as there are tests. -/
lemma length_metadataRead : (σ.metadataRead down id).length = (σ.tests id).length := by
  unfold Store.metadataRead Store.tests
  cases σ.lookup id with
  | none => rfl
  | some p =>
      have hlen : p.getTestMetadata.tests.length = p.tests.length := by
        rw [← ProblemRow.length_ordinals, ProblemRow.getTestMetadata_ordinals, ProblemRow.length_ordinals]
      by_cases hfails : down.fails .readMaxScore <;> simp [hfails, hlen]

/-- Reading the metadata leaves as many tests as it returns. -/
lemma length_tests_scoredIn {p : ProblemRow} (hp : (σ.scoredIn down id).lookup id = some p) :
    (σ.metadataRead down id).length = p.tests.length := by
  rw [Store.scoredIn, lookup_put, if_pos rfl] at hp
  obtain ⟨p', hp', rfl⟩ := Option.map_eq_some_iff.mp hp
  rw [length_metadataRead, Store.tests, hp']
  simp

end Metadata

end Problem

end Labyrithm
