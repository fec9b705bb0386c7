import Labyrithm.Problem.Outages

/-!
# Requests about one test

What `updateSingleTestCase` of `backend/internal/api/admin_problem_tests.go` leaves of a test, by what the
request carries.  A form leaves out what it does not change.  A JSON payload is decoded into a
`testCaseDTO`, where a field that is not there is the zero value of its type; an empty input or expected
output is then taken for none, but the points are always passed on.

* `Accepts` — what an update is accepted by; `updated_of_accepts` is what it does then.
* `UpdateRequest` — a request with the fields that it carries; `Twin` is the same one in both encodings.

**`partialUpdate_iff`** — an update leaves alone what the request does not carry, and does the same in both
encodings, unless it is an accepted payload without points for a test that has some.
-/

namespace Labyrithm

namespace Problem

/-! ## Parts of a handler -/

section Parts

variable {sha : List UInt8 → String} {id : String} {σ : Store}

lemma check_effects {text : Option String} {next : Outcome} (h : (check text next).2 ≠ []) :
    text = none ∧ next.2 ≠ [] := by
  cases text with
  | none => exact ⟨rfl, h⟩
  | some text => exact absurd rfl h

/-- An edit that was committed. -/
lemma attempt_edit_effects {op : TestOp} {onError : Err → Reply} {next : Store → Outcome}
    (h : (attempt sha id (.edit op) onError σ next).2 ≠ []) :
    ∃ row, Call.run sha (.edit op) (σ.lookup id) = .ok row
      ∧ attempt sha id (.edit op) onError σ next
        = ((next (σ.put id row)).1, .commit id (.edit op) :: (next (σ.put id row)).2) := by
  cases hcall : σ.call sha id (.edit op) with
  | error err =>
      rw [attempt, hcall] at h
      exact absurd rfl h
  | ok σ' =>
      obtain ⟨row, hrow, rfl⟩ := Store.call_eq_ok hcall
      exact ⟨row, hrow, by rw [attempt, hcall]⟩

lemma tests_put_some (p : ProblemRow) : (σ.put id (some p)).tests id = p.tests := by
  rw [Store.tests, lookup_put, if_pos rfl]
  rfl

end Parts

/-! ## An update -/

/-- Nothing is against an update: the row of the problem, and that of the test. -/
structure Accepts (sha : List UInt8 → String) (id : String) (ordinal : List Char)
    (body : SingleTestBody) (σ : Store) (ord : ℤ) (p : ProblemRow) (current : TestRow) : Prop where
  param : ordinalParam ordinal = some ord
  files : body.checkFiles "input file exceeds 20MB limit" "expected file exceeds 20MB limit" = none
  sizes : checkSizes (body.points.getD 0) (body.changes.1.getD []) (body.changes.2.getD []) = none
  problem : σ.lookup id = some p
  test : p.tests.find? (·.ordinal = ord) = some current
  distinct : p.findIdentical (sha (body.changes.1.getD current.input))
    (sha (body.changes.2.getD current.expected)) (some ord) = none

/-- The test after an update. -/
def SingleTestBody.row (sha : List UInt8 → String) (ord : ℤ) (current : TestRow)
    (body : SingleTestBody) : TestRow :=
  ProblemRow.testRow sha current.id ord (body.changes.1.getD current.input)
    (body.changes.2.getD current.expected) (body.points.getD current.points)

/-- The problem after it. -/
def ProblemRow.withTest (ord : ℤ) (row : TestRow) (p : ProblemRow) : ProblemRow :=
  { p with tests := p.tests.map fun t => if t.ordinal = ord then row else t }

section Update

variable {sha : List UInt8 → String} {id : String} {ordinal : List Char} {body body' : SingleTestBody}
  {σ : Store} {ord : ℤ} {p : ProblemRow} {current row : TestRow}

lemma checkSizes_nonneg {points : ℤ} {input expected : List UInt8}
    (h : checkSizes points input expected = none) : 0 ≤ points := by
  unfold checkSizes at h
  split_ifs at h with hneg
  exact not_lt.mp hneg

lemma checkSizes_le {points : ℤ} {input expected : List UInt8}
    (h : checkSizes points input expected = none) :
    input.length ≤ maxSingleTestFileSize ∧ expected.length ≤ maxSingleTestFileSize := by
  unfold checkSizes at h
  split_ifs at h with hneg hinput hexpected
  exact ⟨not_lt.mp hinput, not_lt.mp hexpected⟩

/-- What is accepted is done. -/
lemma updated_of_accepts (h : Accepts sha id ordinal body σ ord p current) :
    (updateSingleTestCase sha id ordinal body σ).2
        = [.commit id (.edit (.updateSingleTest ord body.changes.1 body.changes.2 body.points)),
            .invalidate id]
      ∧ σ.after sha (updateSingleTestCase sha id ordinal body σ)
        = σ.put id (some (p.withTest ord (body.row sha ord current))) := by
  have hpos : ¬ ∃ n ∈ body.points, n < 0 := by
    rintro ⟨n, hn, hneg⟩
    have hnonneg := checkSizes_nonneg h.sizes
    rw [Option.mem_def.mp hn] at hnonneg
    exact absurd hneg (not_lt.mpr hnonneg)
  have hrun : p.updateSingleTest sha ord body.changes.1 body.changes.2 body.points
      = .ok (p.withTest ord (body.row sha ord current)) := by
    rw [ProblemRow.updateSingleTest, h.test]
    simp only [if_neg hpos, ProblemRow.testRow, h.distinct]
    rfl
  have hcall : σ.call sha id (.edit (.updateSingleTest ord body.changes.1 body.changes.2 body.points))
      = .ok (σ.put id (some (p.withTest ord (body.row sha ord current)))) :=
    call_of_run rfl (by simp [h.problem, Call.run, TestOp.run, hrun, Except.map])
  unfold updateSingleTestCase
  simp only [h.param, h.files, h.sizes, check]
  refine ⟨?_, ?_⟩
  · rw [attempt, hcall]
    rfl
  · rw [after_attempt_ok _ hcall]
    rfl

/-- And nothing else. -/
lemma accepts_of_updated (h : (updateSingleTestCase sha id ordinal body σ).2 ≠ []) :
    ∃ ord p current, Accepts sha id ordinal body σ ord p current := by
  unfold updateSingleTestCase at h
  cases hparam : ordinalParam ordinal with
  | none =>
      rw [hparam] at h
      exact absurd rfl h
  | some ord =>
      simp only [hparam] at h
      obtain ⟨hfiles, h⟩ := check_effects h
      obtain ⟨hsizes, h⟩ := check_effects h
      obtain ⟨updated, hrun, -⟩ := attempt_edit_effects h
      cases hproblem : σ.lookup id with
      | none => simp [hproblem, Call.run, TestOp.runMissing, Except.map] at hrun
      | some p =>
          cases hop : p.updateSingleTest sha ord body.changes.1 body.changes.2 body.points with
          | error err => simp [hproblem, Call.run, TestOp.run, hop, Except.map] at hrun
          | ok p' =>
              obtain ⟨current, row, htest, -, rfl, hdistinct, -⟩ := ProblemRow.updateSingleTest_eq_ok hop
              exact ⟨ord, p, current, hparam, hfiles, hsizes, hproblem, htest, hdistinct⟩

/-- A refused update leaves the store as it is. -/
lemma after_of_not_accepts (h : ¬ ∃ ord p current, Accepts sha id ordinal body σ ord p current) :
    σ.after sha (updateSingleTestCase sha id ordinal body σ) = σ := by
  have hnil : (updateSingleTestCase sha id ordinal body σ).2 = [] :=
    of_not_not fun hne => h (accepts_of_updated hne)
  rw [Store.after, hnil]
  rfl

/-- The test is found again after the update. -/
lemma find_withTest (htest : p.tests.find? (·.ordinal = ord) = some current) (hrow : row.ordinal = ord) :
    (p.withTest ord row).tests.find? (·.ordinal = ord) = some row := by
  rw [ProblemRow.withTest]
  dsimp only
  generalize p.tests = tests at htest ⊢
  induction tests with
  | nil => cases htest
  | cons t tests ih =>
      rw [List.map_cons]
      by_cases ht : t.ordinal = ord
      · rw [if_pos ht, List.find?_cons_of_pos (by simpa using hrow)]
      · rw [List.find?_cons_of_neg (by simpa using ht)] at htest
        rw [if_neg ht, List.find?_cons_of_neg (by simpa using ht)]
        exact ih htest

end Update

/-! ## What a request carries -/

/-- An `int32`. -/
abbrev Int32Value := { n : ℤ // FitsInt32 n }

/-- A request; a field of a payload that is `null` is not there. -/
inductive UpdateRequest
  | form (input expected : Part) (points : Option (List Char))
  | json (input expected : Option (List UInt8)) (points : Option Int32Value)

namespace UpdateRequest

/-- The decoded request.  The ordinal of a payload is not looked at. -/
def body : UpdateRequest → SingleTestBody
  | form input expected points => .form input expected points
  | json input expected points =>
      .json ⟨0, input.getD [], expected.getD [], (points.map Subtype.val).getD 0⟩

def input : UpdateRequest → Option (List UInt8)
  | form input _ _ => input.bytes
  | json input _ _ => input

def expected : UpdateRequest → Option (List UInt8)
  | form _ expected _ => expected.bytes
  | json _ expected _ => expected

def carriesPoints : UpdateRequest → Bool
  | form _ _ points => points.isSome
  | json _ _ points => points.isSome

/-- What an accepted request does not carry stays as it is. -/
def Keeps (sha : List UInt8 → String) (id : String) (ordinal : List Char) (request : UpdateRequest)
    (σ : Store) : Prop :=
  (updateSingleTestCase sha id ordinal request.body σ).2 ≠ [] →
    ∀ ord current, ordinalParam ordinal = some ord →
      (σ.tests id).find? (·.ordinal = ord) = some current →
      ∃ row, ((σ.after sha (updateSingleTestCase sha id ordinal request.body σ)).tests id).find?
          (·.ordinal = ord) = some row
        ∧ (request.input = none → row.input = current.input)
        ∧ (request.expected = none → row.expected = current.expected)
        ∧ (request.carriesPoints = false → row.points = current.points)

/-- A form with the fields of a payload, none of them empty. -/
def Twin : UpdateRequest → UpdateRequest → Prop
  | json input expected points, form input' expected' points' =>
      (input'.bytes = input ∧ input ≠ some []) ∧ (expected'.bytes = expected ∧ expected ≠ some [])
        ∧ points'.map Go.atoi = points.map fun n => some n.1
  | _, _ => False

/-- The request is a partial update, and its twins do the same. -/
def PartialUpdate (sha : List UInt8 → String) (id : String) (ordinal : List Char)
    (request : UpdateRequest) (σ : Store) : Prop :=
  request.Keeps sha id ordinal σ ∧ ∀ twin, request.Twin twin →
    σ.after sha (updateSingleTestCase sha id ordinal request.body σ)
      = σ.after sha (updateSingleTestCase sha id ordinal twin.body σ)

/-- A payload without points is accepted for a test that has some. -/
def Zeroes (sha : List UInt8 → String) (id : String) (ordinal : List Char) (request : UpdateRequest)
    (σ : Store) : Prop :=
  ∃ input expected ord p current, request = json input expected none
    ∧ Accepts sha id ordinal request.body σ ord p current ∧ current.points ≠ 0

/-! ## Partial updates -/

section Partial

variable {sha : List UInt8 → String} {id : String} {ordinal : List Char} {request twin : UpdateRequest}
  {σ : Store} {ord : ℤ} {p : ProblemRow} {current : TestRow}

lemma nonempty_or_none (field : Option (List UInt8)) :
    (if field.getD [] = [] then none else some (field.getD [])) = field ∨ field = some [] := by
  cases field with
  | none => exact .inl rfl
  | some content =>
      by_cases h : content = []
      · exact .inr (congrArg some h)
      · exact .inl (if_neg h)

/-- No part of a test is changed that the request does not carry. -/
lemma changes_of_none (request : UpdateRequest) :
    (request.input = none → request.body.changes.1 = none)
      ∧ (request.expected = none → request.body.changes.2 = none) := by
  cases request with
  | form input expected points => exact ⟨id, id⟩
  | json input expected points =>
      refine ⟨fun h => ?_, fun h => ?_⟩
      · obtain rfl : input = none := h
        rfl
      · obtain rfl : expected = none := h
        rfl

/-- The test after an accepted update. -/
lemma find_after (h : Accepts sha id ordinal request.body σ ord p current) :
    ((σ.after sha (updateSingleTestCase sha id ordinal request.body σ)).tests id).find?
      (·.ordinal = ord) = some (request.body.row sha ord current) := by
  rw [(updated_of_accepts h).2, tests_put_some]
  exact find_withTest h.test rfl

lemma keeps_of_points (h : request.carriesPoints = false →
      ∀ ord p current, Accepts sha id ordinal request.body σ ord p current →
        (request.body.row sha ord current).points = current.points) :
    request.Keeps sha id ordinal σ := by
  intro heffects ord current hparam hcurrent
  obtain ⟨ord', p, current', haccepts⟩ := accepts_of_updated heffects
  obtain rfl : ord' = ord := Option.some.inj (haccepts.param.symm.trans hparam)
  have htests : σ.tests id = p.tests := by
    rw [Store.tests, haccepts.problem]
    rfl
  rw [htests] at hcurrent
  obtain rfl : current' = current := Option.some.inj (haccepts.test.symm.trans hcurrent)
  obtain ⟨hinput, hexpected⟩ := request.changes_of_none
  refine ⟨_, find_after haccepts, fun hnone => ?_, fun hnone => ?_, fun hnone =>
    h hnone _ _ _ haccepts⟩
  · show (request.body.changes.1).getD _ = _
    rw [hinput hnone]
    rfl
  · show (request.body.changes.2).getD _ = _
    rw [hexpected hnone]
    rfl

/-- The bodies of twins differ at most in that the payload has no points to leave out. -/
lemma Twin.body (h : request.Twin twin) :
    twin.body.changes = request.body.changes
      ∧ (twin.body.points = request.body.points
        ∨ (request.carriesPoints = false ∧ twin.body.points = none ∧ request.body.points = some 0)) := by
  cases request with
  | form input expected points => cases h
  | json input expected points =>
      cases twin with
      | json _ _ _ => cases h
      | form input' expected' points' =>
          obtain ⟨⟨hinput, hinputne⟩, ⟨hexpected, hexpectedne⟩, hpoints⟩ := h
          refine ⟨?_, ?_⟩
          · have hchanges : (UpdateRequest.json input expected points).body.changes
                = (input, expected) :=
              Prod.ext ((nonempty_or_none input).resolve_right hinputne)
                ((nonempty_or_none expected).resolve_right hexpectedne)
            rw [hchanges]
            exact Prod.ext hinput hexpected
          · cases points with
            | none =>
                have hnone : points' = none := by simpa using hpoints
                subst hnone
                exact .inr ⟨rfl, rfl, rfl⟩
            | some n =>
                obtain ⟨text, rfl, htext⟩ := Option.map_eq_some_iff.mp hpoints
                refine .inl ?_
                show ((some text).bind Go.atoi).map int32 = some n.1
                rw [Option.bind_some, htext, Option.map_some, int32_of_fits n.2]

/-- Twins are accepted alike. -/
lemma Twin.accepts_iff (h : request.Twin twin) :
    Accepts sha id ordinal twin.body σ ord p current
      ↔ Accepts sha id ordinal request.body σ ord p current := by
  obtain ⟨hchanges, hpoints⟩ := h.body
  have hvalue : twin.body.points.getD 0 = request.body.points.getD 0 := by
    obtain heq | ⟨-, hnone, hzero⟩ := hpoints
    · rw [heq]
    · rw [hnone, hzero]
      rfl
  have hsizes : checkSizes (twin.body.points.getD 0) (twin.body.changes.1.getD [])
        (twin.body.changes.2.getD []) = none
      ↔ checkSizes (request.body.points.getD 0) (request.body.changes.1.getD [])
        (request.body.changes.2.getD []) = none := by
    rw [hvalue, hchanges]
  cases request with
  | form input expected points => cases h
  | json input expected points =>
      cases twin with
      | json _ _ _ => cases h
      | form input' expected' points' =>
          constructor
          · intro haccepts
            exact ⟨haccepts.param, rfl, hsizes.mp haccepts.sizes, haccepts.problem, haccepts.test,
              hchanges ▸ haccepts.distinct⟩
          · intro haccepts
            have hsmall := hsizes.mpr haccepts.sizes
            refine ⟨haccepts.param, ?_, hsmall, haccepts.problem, haccepts.test,
              hchanges.symm ▸ haccepts.distinct⟩
            obtain ⟨hinput, hexpected⟩ := checkSizes_le hsmall
            have hfile (part : Part) (hpart : (part.bytes.getD []).length ≤ maxSingleTestFileSize) :
                part.tooLarge = false := by
              cases part with
              | absent => rfl
              | value content => rfl
              | file content => exact decide_eq_false (not_lt.mpr hpart)
            show (if input'.tooLarge then _ else if expected'.tooLarge then _ else none) = none
            rw [hfile input' hinput, hfile expected' hexpected]
            rfl

/-- Where the points stay as they are, twins do the same. -/
lemma Twin.after_eq (h : request.Twin twin) (hzeroes : ¬ request.Zeroes sha id ordinal σ) :
    σ.after sha (updateSingleTestCase sha id ordinal request.body σ)
      = σ.after sha (updateSingleTestCase sha id ordinal twin.body σ) := by
  by_cases haccepts : ∃ ord p current, Accepts sha id ordinal request.body σ ord p current
  · obtain ⟨ord, p, current, haccepts⟩ := haccepts
    rw [(updated_of_accepts haccepts).2, (updated_of_accepts (h.accepts_iff.mpr haccepts)).2]
    obtain ⟨hchanges, hpoints⟩ := h.body
    have hvalue : twin.body.points.getD current.points = request.body.points.getD current.points := by
      obtain heq | ⟨hcarries, hnone, hzero⟩ := hpoints
      · rw [heq]
      · rw [hnone, hzero]
        by_contra hne
        cases request with
        | form _ _ _ => cases h
        | json input expected points =>
            obtain rfl : points = none := by simpa [carriesPoints] using hcarries
            exact hzeroes ⟨input, expected, ord, p, current, rfl, haccepts, hne⟩
    have hrow : twin.body.row sha ord current = request.body.row sha ord current := by
      rw [SingleTestBody.row, SingleTestBody.row, hchanges, hvalue]
    rw [hrow]
  · have htwin : ¬ ∃ ord p current, Accepts sha id ordinal twin.body σ ord p current := by
      rintro ⟨ord, p, current, htwin⟩
      exact haccepts ⟨ord, p, current, h.accepts_iff.mp htwin⟩
    rw [after_of_not_accepts haccepts, after_of_not_accepts htwin]

/-- **An update leaves alone what the request does not carry, and does the same in both encodings**, unless
it is an accepted payload without points for a test that has some. -/
theorem partialUpdate_iff (sha : List UInt8 → String) (id : String) (ordinal : List Char)
    (request : UpdateRequest) (σ : Store) :
    request.PartialUpdate sha id ordinal σ ↔ ¬ request.Zeroes sha id ordinal σ := by
  constructor
  · rintro ⟨hkeeps, -⟩ ⟨input, expected, ord, p, current, rfl, haccepts, hne⟩
    have htests : (σ.tests id).find? (·.ordinal = ord) = some current := by
      rw [Store.tests, haccepts.problem]
      exact haccepts.test
    have heffects : (updateSingleTestCase sha id ordinal (json input expected none).body σ).2 ≠ [] := by
      rw [(updated_of_accepts haccepts).1]
      simp
    obtain ⟨row, hrow, -, -, hpoints⟩ := hkeeps heffects ord current haccepts.param htests
    rw [find_after haccepts] at hrow
    obtain rfl := Option.some.inj hrow
    exact hne (hpoints rfl).symm
  · intro hzeroes
    refine ⟨keeps_of_points fun hcarries ord p current haccepts => ?_, fun twin h => h.after_eq hzeroes⟩
    cases request with
    | form input expected points =>
        obtain rfl : points = none := by simpa [carriesPoints] using hcarries
        rfl
    | json input expected points =>
        obtain rfl : points = none := by simpa [carriesPoints] using hcarries
        by_contra hne
        exact hzeroes ⟨input, expected, ord, p, current, rfl, haccepts, fun hzero => hne hzero.symm⟩

/-- A problem with one test that is worth 60 points. -/
def scoredSample : Store :=
  AList.singleton "p" {
    slug := "two-sum"
    timeLimitMs := 1000
    memoryLimitMb := 64
    maxScore := 100
    published := false
    samples := []
    tests := [ProblemRow.testRow sampleSha "t" 1 [49] [50] 60] }

/-- A new input for it, as a payload without points: the test loses its points, with a form it does
not. -/
theorem partialUpdate_zeroes :
    ((scoredSample.after sampleSha (updateSingleTestCase sampleSha "p" ['1']
        (json (some [51]) none none).body scoredSample)).tests "p").map (·.points) = [0]
      ∧ ((scoredSample.after sampleSha (updateSingleTestCase sampleSha "p" ['1']
        (form (.value [51]) .absent none).body scoredSample)).tests "p").map (·.points) = [60]
      ∧ ¬ (json (some [51]) none none).PartialUpdate sampleSha "p" ['1'] scoredSample := by
  refine ⟨by decide +kernel, by decide +kernel, fun h => ?_⟩
  obtain ⟨row, hrow, -, -, hpoints⟩ := h.1 (by decide +kernel) 1
    (ProblemRow.testRow sampleSha "t" 1 [49] [50] 60) (by decide +kernel) (by decide +kernel)
  have hupdated : ((scoredSample.after sampleSha (updateSingleTestCase sampleSha "p" ['1']
      (json (some [51]) none none).body scoredSample)).tests "p").find? (·.ordinal = 1)
      = some (ProblemRow.testRow sampleSha "t" 1 [51] [50] 0) := by decide +kernel
  rw [hupdated] at hrow
  obtain rfl := Option.some.inj hrow
  exact absurd (hpoints rfl) (by decide)

end Partial

end UpdateRequest

end Problem

end Labyrithm
