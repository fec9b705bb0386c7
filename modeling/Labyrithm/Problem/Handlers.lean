import Labyrithm.Go.Runs
import Labyrithm.Go.Strings
import Labyrithm.Problem.Store

/-!
# The admin handlers

`backend/internal/api/admin_problem_tests.go` and `admin_problems.go`: what the handlers that write
problems answer, and what they do, as the calls of the repository that are committed and the
invalidations that are published, in their order.  One request is served at a time.

Requests are as they come out of the JSON or of the multipart form; the store is the one the handler
starts from.  The id of a request is what PostgreSQL reads in its path (`Sent` has the text too); where
it reads no uuid there, every statement fails, and nothing is done.

* `check`, `attempt`, `announce` — a test of the request, a call of the repository, an
  `InvalidateTests`, and what comes after.
* `replaceTestCases` to `deleteProblem` — the handlers, under the names of the source.
* `Admin.step` — a request is taken up, or the one under way does what is next.
-/

namespace Labyrithm

namespace Problem

/-! ## Requests and replies -/

def minEvaluationTestCases : ℕ := 5
def maxSingleTestFileSize : ℕ := 20 * 1024 * 1024
def maxExpectedOutputSize : ℕ := 16 * 1024 * 1024

/-- `testCaseDTO`. -/
structure TestCaseDTO where
  ordinal : ℤ
  input : List UInt8
  expected : List UInt8
  points : ℤ
  deriving DecidableEq, Repr

/-- A file or a value of a multipart form. -/
inductive Part
  | absent
  | file (content : List UInt8)
  | value (content : List UInt8)
  deriving DecidableEq, Repr

/-- `none` is `nil`. -/
def Part.bytes : Part → Option (List UInt8)
  | absent => none
  | file content | value content => some content

def Part.tooLarge : Part → Bool
  | file content => content.length > maxSingleTestFileSize
  | _ => false

/-- The body of a request about a single test. -/
inductive SingleTestBody
  | form (input expected : Part) (points : Option (List Char))
  | json (test : TestCaseDTO)
  deriving DecidableEq, Repr

/-- `problemPayload`; `tests` may be `nil`. -/
structure ProblemPayload where
  slug : String
  timeLimitMs : ℤ
  memoryLimitMb : ℤ
  maxScore : ℤ
  published : Bool
  samples : List Sample
  tests : Option (List TestCaseDTO)
  maxScore_fits : FitsInt32 maxScore := by decide

/-- The map of an `updatePointsPayload`, as the loop of the handler meets its entries and as the one of
the repository does. -/
structure PointsPayload where
  checked : List (ℤ × ℤ)
  written : List (ℤ × ℤ)
  nodup : (checked.map Prod.fst).Nodup
  perm : written.Perm checked

/-- `TestCaseMetadata`. -/
structure TestCaseMetadata where
  ordinal : ℤ
  inputSize : ℕ
  expectedSize : ℕ
  inputSha : String
  expectedSha : String
  inputSnippet : List UInt8
  expectedSnippet : List UInt8
  points : ℤ
  deriving DecidableEq, Repr

def TestRow.metadata (t : TestRow) : TestCaseMetadata where
  ordinal := t.ordinal
  inputSize := t.input.length
  expectedSize := t.expected.length
  inputSha := t.inputSha
  expectedSha := t.expectedSha
  inputSnippet := t.input.take 256
  expectedSnippet := t.expected.take 256
  points := t.points

inductive Reply
  | error (status : ℕ) (text : String)
  | noContent
  | tests (status : ℕ) (test : Option TestCaseMetadata) (tests : Option (List TestCaseMetadata))
  | problem (status : ℕ) (id : String)
  deriving DecidableEq, Repr

def badRequest (text : String) : Reply := .error 400 text
def notFound (text : String) : Reply := .error 404 text
def internalError (text : String) : Reply := .error 500 text

/-- What a handler does that others see. -/
inductive Effect
  | commit (id : String) (call : Call)
  | invalidate (id : String)

/-- The reply, and what was done before it. -/
abbrev Outcome := Reply × List Effect

/-! ## The parts of a handler -/

def refuse (reply : Reply) : Outcome := (reply, [])

/-- A request that is turned down with a text, or goes on. -/
def check (text : Option String) (next : Outcome) : Outcome :=
  match text with
  | some text => refuse (badRequest text)
  | none => next

/-- A call of the repository.  It is committed, or the handler returns. -/
def attempt (sha : List UInt8 → String) (id : String) (call : Call) (onError : Err → Reply)
    (σ : Store) (next : Store → Outcome) : Outcome :=
  match σ.call sha id call with
  | .error err => refuse (onError err)
  | .ok σ' => ((next σ').1, .commit id call :: (next σ').2)

/-- `InvalidateTests`. -/
def announce (id : String) (next : Outcome) : Outcome := (next.1, .invalidate id :: next.2)

/-- The tests of a problem, if there is one. -/
def Store.tests (id : String) (σ : Store) : List TestRow := ((σ.lookup id).map (·.tests)).getD []

def Store.metadata (id : String) (σ : Store) : List TestCaseMetadata :=
  (σ.tests id).map TestRow.metadata

/-- `errors.Is(err, ErrPointsMismatch)`. -/
def Err.isPointsMismatch : Err → Bool
  | negativePoints _ | pointsMismatch .. => true
  | _ => false

/-- `errors.Is(err, ErrDuplicateTest)`. -/
def Err.isDuplicateTest : Err → Bool
  | identicalTo .. | identicalToExisting _ => true
  | _ => false

/-- The text has "exceeds problem max score" or "points cannot be negative" in it. -/
def Err.isAboutPoints : Err → Bool
  | exceedsMaxScore .. | pointsNegative => true
  | _ => false

/-- The sample that a test is identical to. -/
def identicalSample (samples : List Sample) (input expected : List UInt8) : Option Sample :=
  samples.find? fun s =>
    Go.trimSpaceBytes input = Go.trimSpaceBytes s.input &&
      Go.trimSpaceBytes expected = Go.trimSpaceBytes s.output

def validateTestsAgainstSamples (samples : List Sample) (tests : List TestCaseDTO) : Option String :=
  tests.findSome? fun t => (identicalSample samples t.input t.expected).map fun s =>
    s!"evaluation test case {t.ordinal} is identical to sample {s.ordinal}; " ++
      "evaluation test cases must be distinct from public samples"

/-! ## The suite of a problem -/

/-- The checks of `replaceTestCases` on one test. -/
def checkTestCase (t : TestCaseDTO) : Option String :=
  if t.points < 0 then some s!"test case {t.ordinal} points cannot be negative"
  else if t.input = [] ∨ t.expected = [] then
    some s!"test case {t.ordinal} input and expected output cannot be empty"
  else if t.input.length > maxSingleTestFileSize ∨ t.expected.length > maxSingleTestFileSize then
    some s!"test case {t.ordinal} exceeds max size of {maxSingleTestFileSize / (1024 * 1024)} MB"
  else if t.expected.length > maxExpectedOutputSize then
    some <| s!"test case {t.ordinal} expected output ({t.expected.length / (1024 * 1024)} MB) exceeds " ++
      s!"sandbox output limit of {maxExpectedOutputSize / (1024 * 1024)} MB; " ++
      "no submission could ever match it"
  else none

/-- A `TestInput` as `replaceTestCases` makes it. -/
def TestCaseDTO.toInput (t : TestCaseDTO) : TestInput := ⟨t.ordinal, t.input, t.expected, t.points⟩

/-- `replaceTestCases`.  `ids` are the ids of the new rows. -/
def replaceTestCases (sha : List UInt8 → String) (id : String) (ids : ℕ → String)
    (tests : List TestCaseDTO) (σ : Store) : Outcome :=
  if tests = [] then refuse (badRequest "test cases list cannot be empty")
  else
    check (tests.findSome? checkTestCase) <|
      check ((σ.lookup id).bind fun p => validateTestsAgainstSamples p.samples tests) <|
        attempt sha id (.edit (.replaceTests ids (tests.map TestCaseDTO.toInput)))
          (fun err =>
            if err.isPointsMismatch || err.isDuplicateTest then badRequest err.message
            else internalError err.message) σ
          fun _ => announce id (refuse .noContent)

/-- `getAdminProblemTests`. -/
def getAdminProblemTests (sha : List UInt8 → String) (id : String) (σ : Store) : Outcome :=
  attempt sha id .getTestMetadata (fun _ => internalError "failed to fetch test case metadata") σ
    fun σ => refuse (.tests 200 none (some (σ.metadata id)))

/-- `points` of a form: what is no number is ignored. -/
def SingleTestBody.points : SingleTestBody → Option ℤ
  | form _ _ points => (points.bind Go.atoi).map int32
  | json test => some test.points

/-- A form with a file that is too large. -/
def SingleTestBody.checkFiles (inputText expectedText : String) : SingleTestBody → Option String
  | form input expected _ =>
      if input.tooLarge then some inputText
      else if expected.tooLarge then some expectedText
      else none
  | json _ => none

/-- The checks that adding and updating a test have in common. -/
def checkSizes (points : ℤ) (input expected : List UInt8) : Option String :=
  if points < 0 then some "test case points cannot be negative"
  else if input.length > maxSingleTestFileSize then
    some s!"input file exceeds max size of {maxSingleTestFileSize / (1024 * 1024)} MB"
  else if expected.length > maxSingleTestFileSize then
    some s!"expected output file exceeds max size of {maxSingleTestFileSize / (1024 * 1024)} MB"
  else if expected.length > maxExpectedOutputSize then
    some <| s!"expected output ({expected.length / (1024 * 1024)} MB) exceeds sandbox output limit of " ++
      s!"{maxExpectedOutputSize / (1024 * 1024)} MB; no submission could ever match it"
  else none

/-- The input and the expected output as `addSingleTestCase` takes them. -/
def SingleTestBody.given : SingleTestBody → List UInt8 × List UInt8
  | form input expected _ => (input.bytes.getD [], expected.bytes.getD [])
  | json test => (test.input, test.expected)

/-- `addSingleTestCase`.  `testId` is the id of the new row. -/
def addSingleTestCase (sha : List UInt8 → String) (id testId : String) (body : SingleTestBody)
    (σ : Store) : Outcome :=
  let (input, expected) := body.given
  let points := body.points.getD 0
  check (body.checkFiles s!"input file exceeds max size of {maxSingleTestFileSize / (1024 * 1024)} MB"
      s!"expected output file exceeds max size of {maxSingleTestFileSize / (1024 * 1024)} MB") <|
    check (checkSizes points input expected) <|
      if input = [] ∨ expected = [] then
        refuse (badRequest "both input and expected output are required")
      else
        match σ.lookup id with
        | none => refuse (notFound "problem not found")
        | some p =>
            check ((identicalSample p.samples input expected).map fun s =>
                s!"test case is identical to public sample {s.ordinal}; " ++
                  "evaluation test cases must be distinct") <|
              attempt sha id (.edit (.addSingleTest testId input expected points))
                (fun err =>
                  if err.isDuplicateTest || err = .notFound || err.isAboutPoints then
                    badRequest err.message
                  else internalError ("failed to save test case: " ++ err.message)) σ
                fun σ₁ => announce id <|
                  attempt sha id .getTestMetadata (fun _ => .tests 201 (σ₁.metadata id).getLast? none)
                    σ₁ fun σ₂ =>
                      refuse (.tests 201 (σ₁.metadata id).getLast? (some (σ₂.metadata id)))

/-- The ordinal in a path. -/
def ordinalParam (ordinal : List Char) : Option ℤ :=
  match Go.atoi ordinal with
  | some ord => if ord < 1 then none else some (int32 ord)
  | none => none

/-- The parts of a test that `updateSingleTestCase` has new values for. -/
def SingleTestBody.changes : SingleTestBody → Option (List UInt8) × Option (List UInt8)
  | form input expected _ => (input.bytes, expected.bytes)
  | json test =>
      (if test.input = [] then none else some test.input,
        if test.expected = [] then none else some test.expected)

/-- `updateSingleTestCase`. -/
def updateSingleTestCase (sha : List UInt8 → String) (id : String) (ordinal : List Char)
    (body : SingleTestBody) (σ : Store) : Outcome :=
  match ordinalParam ordinal with
  | none => refuse (badRequest "invalid test case ordinal")
  | some ord =>
      let (input, expected) := body.changes
      let points := body.points
      check (body.checkFiles "input file exceeds 20MB limit" "expected file exceeds 20MB limit") <|
        check (checkSizes (points.getD 0) (input.getD []) (expected.getD [])) <|
          attempt sha id (.edit (.updateSingleTest ord input expected points))
            (fun err =>
              if err = .notFound then notFound "test case not found"
              else if err.isDuplicateTest || err.isAboutPoints then badRequest err.message
              else internalError ("failed to update test case: " ++ err.message)) σ
            fun σ => announce id <|
              refuse (.tests 200 (((σ.tests id).find? (·.ordinal = ord)).map TestRow.metadata) none)

/-- The end of `deleteSingleTestCase`, after the checks. -/
def deleteTest (sha : List UInt8 → String) (id : String) (ord : ℤ) (scan₁ scan₂ : Sql.Scan)
    (σ : Store) : Outcome :=
  attempt sha id (.edit (.deleteSingleTest scan₁ scan₂ ord))
    (fun err =>
      if err = .notFound then notFound "test case not found"
      else internalError ("failed to delete test case: " ++ err.message)) σ
    fun _ => announce id (refuse .noContent)

/-- `deleteSingleTestCase`.  `scan₁` and `scan₂` are the orders in which the rows are renumbered. -/
def deleteSingleTestCase (sha : List UInt8 → String) (id : String) (ordinal : List Char)
    (scan₁ scan₂ : Sql.Scan) (σ : Store) : Outcome :=
  match ordinalParam ordinal with
  | none => refuse (badRequest "invalid test case ordinal")
  | some ord =>
      if (σ.lookup id).any (·.published) then
        -- an error of the reading is ignored
        attempt sha id .getTestMetadata (fun _ => .noContent) σ fun σ =>
          if (σ.tests id).length ≤ minEvaluationTestCases then
            refuse (badRequest <| "cannot delete test case: published problems require at least " ++
              s!"{minEvaluationTestCases} evaluation test cases")
          else deleteTest sha id ord scan₁ scan₂ σ
      else deleteTest sha id ord scan₁ scan₂ σ

/-- The checks of `updateTestPoints` on one entry. -/
def checkPoints (ord pts : ℤ) : Option String :=
  if ord < 1 then some s!"invalid test case ordinal {ord}"
  else if pts < 0 then some s!"test case {ord} points cannot be negative"
  else none

/-- `updateTestPoints`; the sum is one of 32 bits. -/
def updateTestPoints (sha : List UInt8 → String) (id : String) (payload : PointsPayload) (σ : Store) :
    Outcome :=
  match σ.lookup id with
  | none => refuse (notFound "problem not found")
  | some p =>
      if payload.checked = [] then refuse (badRequest "points payload cannot be empty")
      else
        check (payload.checked.findSome? fun (ord, pts) => checkPoints ord pts) <|
          let sum := payload.checked.foldl (fun sum (_, pts) => int32 (sum + pts)) 0
          if sum ≠ p.maxScore then
            refuse (badRequest s!"points sum ({sum}) does not match problem max score ({p.maxScore})")
          else
            attempt sha id (.edit (.updateTestPoints payload.written))
              (fun err => internalError ("failed to update test points: " ++ err.message)) σ
              fun _ => announce id (refuse .noContent)

/-! ## Problems -/

/-- `ValidateSlug`: words of small letters and digits with a hyphen between them. -/
def validateSlug (slug : List Char) : Bool :=
  (Go.split slug '-').all fun word => word ≠ [] && word.all fun ch =>
    ('a' ≤ ch && ch ≤ 'z') || ('0' ≤ ch && ch ≤ '9')

def errInvalidSlug : String :=
  "slug must be lowercase alphanumeric and hyphens only (e.g. 'two-sum')"

/-- The slug of a payload, without blanks around it and in small letters. -/
def ProblemPayload.trimmedSlug (req : ProblemPayload) : List Char :=
  Go.toLower (Go.trimSpace req.slug.toList)

def ProblemPayload.toInput (req : ProblemPayload) : CreateProblemInput where
  slug := String.ofList req.trimmedSlug
  timeLimitMs := req.timeLimitMs
  memoryLimitMb := req.memoryLimitMb
  maxScore := req.maxScore
  published := req.published
  samples := req.samples
  maxScore_fits := req.maxScore_fits

/-- The `TestInput`s of a payload, numbered anew. -/
def numberTests (tests : List TestCaseDTO) : List TestInput :=
  tests.mapIdx fun i t => ⟨i + 1, t.input, t.expected, t.points⟩

def tooFewTests : String := "published problems require at least 5 evaluation test cases"

/-- The tests of a payload are saved, and the suite is announced. -/
def saveTests (sha : List UInt8 → String) (id : String) (ids : ℕ → String)
    (tests : List TestCaseDTO) (σ : Store) (next : Outcome) : Outcome :=
  attempt sha id (.edit (.replaceTests ids (numberTests tests)))
    (fun err =>
      if err.isPointsMismatch then badRequest err.message
      else internalError ("failed to save evaluation test cases: " ++ err.message)) σ
    fun _ => announce id next

/-- `createProblem`.  `id` and `ids` are the ids of the new rows. -/
def createProblem (sha : List UInt8 → String) (id : String) (ids : ℕ → String)
    (req : ProblemPayload) (σ : Store) : Outcome :=
  let tests := req.tests.getD []
  if !validateSlug req.trimmedSlug then refuse (badRequest errInvalidSlug)
  else if req.published ∧ tests.length < minEvaluationTestCases then refuse (badRequest tooFewTests)
  else
    check (validateTestsAgainstSamples req.samples tests) <|
      attempt sha id (.create req.toInput)
        (fun err =>
          if err = .duplicateSlug then .error 409 "problem slug already exists"
          else internalError ("failed to create problem: " ++ err.message)) σ
        fun σ =>
          if tests = [] then refuse (.problem 201 id)
          else saveTests sha id ids tests σ (refuse (.problem 201 id))

/-- The end of `updateProblem`, after the checks. -/
def saveProblem (sha : List UInt8 → String) (id : String) (ids : ℕ → String) (req : ProblemPayload)
    (σ : Store) : Outcome :=
  attempt sha id (.update req.toInput)
    (fun err =>
      if err = .notFound then notFound "problem not found"
      else internalError ("failed to update problem: " ++ err.message)) σ
    fun σ =>
      match req.tests with
      | none => refuse (.problem 200 id)
      | some tests => saveTests sha id ids tests σ (refuse (.problem 200 id))

/-- `updateProblem`. -/
def updateProblem (sha : List UInt8 → String) (id : String) (ids : ℕ → String)
    (req : ProblemPayload) (σ : Store) : Outcome :=
  if req.trimmedSlug ≠ [] ∧ !validateSlug req.trimmedSlug then refuse (badRequest errInvalidSlug)
  else
    match req.tests with
    | some tests =>
        if req.published ∧ tests.length < minEvaluationTestCases then refuse (badRequest tooFewTests)
        else
          check (validateTestsAgainstSamples req.samples tests) (saveProblem sha id ids req σ)
    | none =>
        if req.published then
          attempt sha id .getTestMetadata (fun _ => badRequest tooFewTests) σ fun σ =>
            if (σ.tests id).length < minEvaluationTestCases then refuse (badRequest tooFewTests)
            else saveProblem sha id ids req σ
        else saveProblem sha id ids req σ

/-- `setProblemPublished`. -/
def setProblemPublished (sha : List UInt8 → String) (id : String) (published : Bool) (σ : Store) :
    Outcome :=
  if published ∧ (σ.tests id).length < minEvaluationTestCases then
    refuse (badRequest <| "cannot publish problem with fewer than " ++
      s!"{minEvaluationTestCases} evaluation test cases")
  else
    attempt sha id (.setPublished published)
      (fun err =>
        if err = .notFound then notFound "problem not found"
        else internalError "failed to set published status") σ
      fun _ => refuse .noContent

/-- `deleteProblem`. -/
def deleteProblem (sha : List UInt8 → String) (id : String) (σ : Store) : Outcome :=
  attempt sha id .delete
    (fun err =>
      if err = .notFound then notFound "problem not found"
      else internalError "failed to delete problem") σ
    fun _ => announce id (refuse .noContent)

/-! ## One request at a time -/

/-- A request, with the ids that PostgreSQL reads or gives. -/
inductive Request
  | replaceTestCases (id : String) (ids : ℕ → String) (tests : List TestCaseDTO)
  | getAdminProblemTests (id : String)
  | addSingleTestCase (id testId : String) (body : SingleTestBody)
  | updateSingleTestCase (id : String) (ordinal : List Char) (body : SingleTestBody)
  | deleteSingleTestCase (id : String) (ordinal : List Char) (scan₁ scan₂ : Sql.Scan)
  | updateTestPoints (id : String) (payload : PointsPayload)
  | createProblem (id : String) (ids : ℕ → String) (req : ProblemPayload)
  | updateProblem (id : String) (ids : ℕ → String) (req : ProblemPayload)
  | setProblemPublished (id : String) (published : Bool)
  | deleteProblem (id : String)

def Request.handle (sha : List UInt8 → String) : Request → Store → Outcome
  | .replaceTestCases id ids tests => Problem.replaceTestCases sha id ids tests
  | .getAdminProblemTests id => Problem.getAdminProblemTests sha id
  | .addSingleTestCase id testId body => Problem.addSingleTestCase sha id testId body
  | .updateSingleTestCase id ordinal body => Problem.updateSingleTestCase sha id ordinal body
  | .deleteSingleTestCase id ordinal scan₁ scan₂ =>
      Problem.deleteSingleTestCase sha id ordinal scan₁ scan₂
  | .updateTestPoints id payload => Problem.updateTestPoints sha id payload
  | .createProblem id ids req => Problem.createProblem sha id ids req
  | .updateProblem id ids req => Problem.updateProblem sha id ids req
  | .setProblemPublished id published => Problem.setProblemPublished sha id published
  | .deleteProblem id => Problem.deleteProblem sha id

/-- The store, and what the request under way has still to do. -/
structure Admin where
  store : Store
  todo : List Effect

inductive AdminAction
  | request (r : Request)
  | proceed

def Admin.step (sha : List UInt8 → String) : AdminAction → Admin → Option Admin
  | .request r, ⟨σ, []⟩ => some ⟨σ, (r.handle sha σ).2⟩
  | .request _, ⟨_, _ :: _⟩ => none
  | .proceed, ⟨_, []⟩ => none
  | .proceed, ⟨σ, .commit id call :: todo⟩ =>
      match σ.call sha id call with
      | .ok σ' => some ⟨σ', todo⟩
      | .error _ => none
  | .proceed, ⟨σ, .invalidate _ :: todo⟩ => some ⟨σ, todo⟩

/-- No problems yet. -/
def Admin.new : Admin := ⟨∅, []⟩

/-! ## A problem for the samples -/

/-- The bytes as characters. -/
def sampleSha (bytes : List UInt8) : String := String.ofList (bytes.map fun b => Char.ofNat b.toNat)

/-- A draft with two tests, worth 100 points. -/
def sampleProblem : ProblemPayload where
  slug := "two-sum"
  timeLimitMs := 1000
  memoryLimitMb := 64
  maxScore := 100
  published := false
  samples := []
  tests := some [⟨1, [49], [50], 0⟩, ⟨2, [51], [52], 0⟩]

/-- Points for its tests. -/
def samplePoints : PointsPayload where
  checked := [(1, 60), (2, 40)]
  written := [(2, 40), (1, 60)]
  nodup := by decide
  perm := by decide

/-- It is created: two commits, and an invalidation. -/
def sampleCreate : List AdminAction :=
  .request (.createProblem "p" Nat.repr sampleProblem) :: List.replicate 3 .proceed

end Problem

end Labyrithm
