import Labyrithm.Judge.Grading

/-!
# The laws of a result

What the runner does with a suite is told by the tests that are run, each with what it really brings
(`ran`).  The verdicts come from there (`verdictsOf`), whatever the runner returns in the end.

* `runCases_eq` — `OnCase` gets the results with their outputs, once each and in order; the blanked ones
  are returned.
* `get?_graded` — what `OnCase` has graded is there for every result that is returned.
* `evaluate_rows` — the rows of a result, from the tests that are run and the others.
* **`evaluate_lawful`** — what holds between the rows, the score, the verdict and the points.
-/

namespace Labyrithm

namespace Grading

open Problem (shares)
open TestCache (TestCase)

/-! ## What is run -/

/-- The tests that are run with what they bring, and the error that ends the batch. -/
def ran (execute : Execute) : List TestCase → List (TestCase × CaseRun) × Option RunErr
  | [] => ([], none)
  | t :: tests =>
      match execute ⟨t.ordinal, t.input⟩ with
      | .error err => ([], some err)
      | .ok run => ((t, run) :: (ran execute tests).1, (ran execute tests).2)

/-- The tests that are run are the first ones, and all where there is no error. -/
lemma ran_prefix (execute : Execute) (tests : List TestCase) :
    ∃ rest, tests = (ran execute tests).1.map Prod.fst ++ rest ∧
      ((ran execute tests).2 = none → rest = []) := by
  induction tests with
  | nil => exact ⟨[], rfl, fun _ => rfl⟩
  | cons t tests ih =>
      obtain ⟨rest, hsplit, hall⟩ := ih
      rw [ran]
      cases execute ⟨t.ordinal, t.input⟩ with
      | error err => exact ⟨t :: tests, rfl, by simp⟩
      | ok run => exact ⟨rest, by simpa using hsplit, hall⟩

/-- The result of a test, as `OnCase` gets it. -/
def resultOf (p : TestCase × CaseRun) : BatchCaseResult := { p.2 with ordinal := p.1.ordinal }

/-- `OnCase` gets the results with their outputs; the blanked ones are returned. -/
lemma runCases_eq {σ : Type} (execute : Execute) (onCase : σ → BatchCaseResult → σ)
    (tests : List TestCase) (results : List BatchCaseResult) (s : σ) :
    runCases execute onCase (tests.map fun t => BatchCase.mk t.ordinal t.input) results s =
      (results ++ (ran execute tests).1.map fun p => (resultOf p).blanked, (ran execute tests).2,
        (ran execute tests).1.foldl (fun s p => onCase s (resultOf p)) s) := by
  induction tests generalizing results s with
  | nil => simp [runCases, ran]
  | cons t tests ih =>
      rw [List.map_cons, runCases, ran]
      cases execute ⟨t.ordinal, t.input⟩ with
      | error err => simp
      | ok run =>
          show runCases execute onCase _ _ _ = _
          rw [ih]
          simp [resultOf]

/-! ## Verdicts -/

/-- The verdict on what running a test really brings. -/
def judged (p : TestCase × CaseRun) : Verdict :=
  if p.2.verdict ≠ .AC then verdictLabel p.2.verdict
  else if Outputs.outputsEqual p.2.stdout p.1.expected then .AC else .WA

/-- The points for it. -/
def earned (p : TestCase × CaseRun) : ℤ := if judged p = .AC then p.1.points else 0

lemma verdictLabel_ne_AC {verdict : Verdict} (h : verdict ≠ .AC) : verdictLabel verdict ≠ .AC := by
  cases verdict <;> simp_all [verdictLabel]

/-- Ordinals tell tests apart. -/
def Distinct (tests : List TestCase) : Prop := (tests.map TestCase.ordinal).Nodup

instance (tests : List TestCase) : Decidable (Distinct tests) :=
  inferInstanceAs (Decidable (List.Nodup _))

lemma get?_testMap {tests : List TestCase} (h : Distinct tests) {t : TestCase} (ht : t ∈ tests) :
    (testMap tests).get? t.ordinal = some t := by
  induction tests using List.reverseRecOn with
  | nil => cases ht
  | append_singleton tests last ih =>
      rw [Distinct, List.map_append, List.map_singleton, List.nodup_append] at h
      rw [testMap, List.foldl_append, List.foldl_cons, List.foldl_nil, Go.Map.get?_insert]
      rcases List.mem_append.mp ht with hmem | hlast
      · have hne : t.ordinal ≠ last.ordinal :=
          h.2.2 _ (List.mem_map_of_mem hmem) _ (List.mem_singleton_self _)
        rw [if_neg hne]
        exact ih h.1 hmem
      · obtain rfl := List.mem_singleton.mp hlast
        exact if_pos rfl

/-- `grade` looks at the real output. -/
lemma grade_eq {tests : List TestCase} (h : Distinct tests) {p : TestCase × CaseRun}
    (hp : p.1 ∈ tests) : grade tests (resultOf p) = ⟨judged p, earned p⟩ := by
  have hget : (testMap tests).get? (resultOf p).ordinal = some p.1 := get?_testMap h hp
  rw [grade, hget, earned, judged]
  show (if p.2.verdict ≠ .AC then _ else _) = _
  by_cases hverdict : p.2.verdict = .AC
  · by_cases hequal : Outputs.outputsEqual p.2.stdout p.1.expected = true
    · simp [hverdict, hequal, resultOf]
    · simp [hverdict, hequal, resultOf]
  · simp [hverdict, verdictLabel_ne_AC hverdict, resultOf]

section Graded

variable {s : Claimed} {tests : List TestCase} {maxScore : ℤ} {recent : ℕ → Bool}

/-- A case leaves the other grades alone. -/
lemma get?_graded_of_not_mem {pairs : List (TestCase × CaseRun)} {o : ℤ}
    (h : o ∉ pairs.map fun p => p.1.ordinal) (progress : Progress) :
    (pairs.foldl (fun acc p => onCase s tests maxScore recent acc (resultOf p)) progress).graded.get? o =
      progress.graded.get? o := by
  induction pairs generalizing progress with
  | nil => rfl
  | cons p pairs ih =>
      rw [List.map_cons, List.mem_cons, not_or] at h
      rw [List.foldl_cons, ih h.2]
      exact Go.Map.get?_insert.trans (if_neg h.1)

/-- What has been graded is there. -/
lemma get?_graded {pairs : List (TestCase × CaseRun)} (h : (pairs.map fun p => p.1.ordinal).Nodup)
    (progress : Progress) {p : TestCase × CaseRun} (hp : p ∈ pairs) :
    (pairs.foldl (fun acc p => onCase s tests maxScore recent acc (resultOf p)) progress).graded.get?
      p.1.ordinal = some (grade tests (resultOf p)) := by
  induction pairs generalizing progress with
  | nil => cases hp
  | cons q pairs ih =>
      obtain ⟨hq, hrest⟩ := List.nodup_cons.mp h
      rw [List.foldl_cons]
      rcases List.mem_cons.mp hp with rfl | hmem
      · rw [get?_graded_of_not_mem hq]
        exact Go.Map.get?_insert.trans (if_pos rfl)
      · exact ih hrest _ hmem

end Graded

/-! ## Rows -/

/-- The row of a test that has been run. -/
def rowOf (p : TestCase × CaseRun) : ℤ × SubmissionTest :=
  (p.1.ordinal, ⟨judged p, p.2.timeMs, p.2.memoryKB, earned p, p.1.points⟩)

/-- The row of a test that has not. -/
def missingRow (t : TestCase) : ℤ × SubmissionTest := (t.ordinal, ⟨.IE, 0, 0, 0, t.points⟩)

/-- The first verdict that is not `AC`. -/
def firstFailure (verdicts : List Verdict) : Verdict := (verdicts.find? (· ≠ .AC)).getD .AC

lemma firstFailure_eq_AC {verdicts : List Verdict} :
    firstFailure verdicts = .AC ↔ ∀ verdict ∈ verdicts, verdict = .AC := by
  rw [firstFailure]
  cases hfind : verdicts.find? (· ≠ .AC) with
  | none => simpa using hfind
  | some verdict =>
      have hne : verdict ≠ .AC := by simpa using List.find?_some hfind
      simp only [Option.getD_some, hne, false_iff]
      exact fun hall => hne (hall verdict (List.mem_of_find?_eq_some hfind))

section Tallied

variable {tests : List TestCase} {graded : Go.Map ℤ GradedCase}

/-- `graded` has the grades of these tests. -/
def Graded (graded : Go.Map ℤ GradedCase) (pairs : List (TestCase × CaseRun)) : Prop :=
  ∀ p ∈ pairs, graded.get? p.1.ordinal = some ⟨judged p, earned p⟩

/-- One pass over a result that has been graded: the blanked output is not looked at. -/
lemma tally_eq (hdistinct : Distinct tests) {p : TestCase × CaseRun} (hp : p.1 ∈ tests)
    (hgraded : graded.get? p.1.ordinal = some ⟨judged p, earned p⟩) (acc : Tally) :
    tally tests graded acc (resultOf p).blanked =
      { overallVerdict :=
          if judged p ≠ .AC ∧ acc.overallVerdict = .AC then judged p else acc.overallVerdict
        runCases := acc.runCases.insert p.1.ordinal true
        submissionTests := acc.submissionTests ++ [rowOf p] } := by
  have hget : (testMap tests).get? (resultOf p).blanked.ordinal = some p.1 :=
    get?_testMap hdistinct hp
  have hgrade : graded.get? (resultOf p).blanked.ordinal = some ⟨judged p, earned p⟩ := hgraded
  rw [tally, hget, hgrade]
  rfl

variable {pairs : List (TestCase × CaseRun)}

/-- The loop over the results. -/
lemma tally_run (hdistinct : Distinct tests) (hmem : ∀ p ∈ pairs, p.1 ∈ tests)
    (hgraded : Graded graded pairs) (acc : Tally) :
    let out := (pairs.map fun p => (resultOf p).blanked).foldl (tally tests graded) acc
    out.submissionTests = acc.submissionTests ++ pairs.map rowOf ∧
      out.overallVerdict =
        (if acc.overallVerdict = .AC then firstFailure (pairs.map judged) else acc.overallVerdict) ∧
      ∀ o, (out.runCases.get? o).getD false = true ↔
        (acc.runCases.get? o).getD false = true ∨ o ∈ pairs.map fun p => p.1.ordinal := by
  induction pairs generalizing acc with
  | nil => simp [firstFailure]
  | cons p pairs ih =>
      have hhead := tally_eq hdistinct (hmem p (by simp)) (hgraded p (by simp)) acc
      obtain ⟨hrows, hverdict, hseen⟩ := ih (fun q hq => hmem q (by simp [hq]))
        (fun q hq => hgraded q (by simp [hq])) (tally tests graded acc (resultOf p).blanked)
      rw [hhead] at hrows hverdict hseen
      simp only [List.map_cons, List.foldl_cons, hhead]
      refine ⟨by simpa using hrows, hverdict.trans ?_, fun o => (hseen o).trans ?_⟩
      · by_cases hacc : acc.overallVerdict = .AC
        · by_cases hjudged : judged p = .AC
          · simp [hacc, hjudged, firstFailure]
          · simp [hacc, hjudged, firstFailure]
        · simp [hacc]
      · rw [Go.Map.get?_insert]
        by_cases ho : o = p.1.ordinal <;> simp [ho]

/-- After a runner error the tests that have not been run get the rest of the rows. -/
lemma fail_rows {rest : List TestCase} (hdistinct : Distinct (pairs.map Prod.fst ++ rest)) {acc : Tally}
    (hseen : ∀ o, (acc.runCases.get? o).getD false = true ↔ o ∈ pairs.map fun p => p.1.ordinal) :
    (acc.fail (pairs.map Prod.fst ++ rest)).submissionTests =
      acc.submissionTests ++ rest.map missingRow := by
  rw [Distinct, List.map_append, List.nodup_append] at hdistinct
  have hran : ((pairs.map Prod.fst).filter fun t => !((acc.runCases.get? t.ordinal).getD false)) = [] := by
    rw [List.filter_eq_nil_iff]
    intro t ht
    obtain ⟨p, hp, rfl⟩ := List.mem_map.mp ht
    simpa using (hseen p.1.ordinal).mpr (List.mem_map_of_mem hp)
  have hrest : (rest.filter fun t => !((acc.runCases.get? t.ordinal).getD false)) = rest := by
    rw [List.filter_eq_self]
    intro t ht
    have hnot : t.ordinal ∉ pairs.map fun p => p.1.ordinal := by
      intro hin
      exact hdistinct.2.2 t.ordinal (by simpa using hin) t.ordinal (List.mem_map_of_mem ht) rfl
    simpa using mt (hseen t.ordinal).mp hnot
  rw [Tally.fail, List.filter_append, hran, hrest]
  rfl

end Tallied

/-! ## Points -/

/-- Only points are set. -/
lemma resolveTestPoints_same (tests : List TestCase) (declaredMax : ℤ) :
    (resolveTestPoints tests declaredMax).1.map (fun t => (t.ordinal, t.input, t.expected)) =
      tests.map fun t => (t.ordinal, t.input, t.expected) := by
  have hfst : tests.zipIdx.map (fun x => (x.1.ordinal, x.1.input, x.1.expected)) =
      tests.map fun t => (t.ordinal, t.input, t.expected) := by
    conv_rhs => rw [← List.zipIdx_map_fst 0 tests, List.map_map]
    rfl
  simp only [resolveTestPoints]
  split_ifs <;> simp [Function.comp_def, hfst]

section Resolved

variable {tests : List TestCase} {declaredMax : ℤ}

/-- Where no test has points, they are shared. -/
lemma resolveTestPoints_zero (hzero : ∀ t ∈ tests, t.points = 0) (hne : tests ≠ []) :
    (resolveTestPoints tests declaredMax).1.map TestCase.points =
        shares (if declaredMax = 0 then 100 else declaredMax) tests.length ∧
      (resolveTestPoints tests declaredMax).2 = if declaredMax = 0 then 100 else declaredMax := by
  have hany : tests.any (fun t => t.points > 0) = false := by
    rw [List.any_eq_false]
    intro t ht
    simp [hzero t ht]
  have hsum : (tests.map TestCase.points).sum = 0 := by
    refine List.sum_eq_zero fun x hx => ?_
    obtain ⟨t, ht, rfl⟩ := List.mem_map.mp hx
    exact hzero t ht
  have hlen : 0 < tests.length := List.length_pos_iff.mpr hne
  have hsnd (f : ℕ → ℤ) : tests.zipIdx.map (fun x => f x.2) = (List.range tests.length).map f := by
    rw [List.range_eq_range', ← List.zipIdx_map_snd 0 tests, List.map_map]
    rfl
  simp only [resolveTestPoints, hany, hsum, if_true]
  simp [hlen, shares, Function.comp_def, hsnd]

/-- Otherwise they stay. -/
lemma resolveTestPoints_custom (hpoints : ∀ t ∈ tests, 0 ≤ t.points) (hsome : ∃ t ∈ tests, t.points ≠ 0) :
    resolveTestPoints tests declaredMax = (tests, (tests.map TestCase.points).sum) := by
  obtain ⟨t, ht, hne⟩ := hsome
  have hpos : 0 < t.points := lt_of_le_of_ne (hpoints t ht) (Ne.symm hne)
  have hany : tests.any (fun t => t.points > 0) = true := List.any_eq_true.mpr ⟨t, ht, by simpa using hpos⟩
  have hsum : (tests.map TestCase.points).sum ≠ 0 := by
    have hle : t.points ≤ (tests.map TestCase.points).sum := by
      refine List.single_le_sum (fun x hx => ?_) _ (List.mem_map_of_mem ht)
      obtain ⟨u, hu, rfl⟩ := List.mem_map.mp hx
      exact hpoints u hu
    omega
  simp [resolveTestPoints, hany, hsum]

/-- What a suite is worth is the sum of its points, none of them negative. -/
lemma resolveTestPoints_worth (hpoints : ∀ t ∈ tests, 0 ≤ t.points) (hne : tests ≠ [])
    (hmax : 0 ≤ declaredMax) :
    (resolveTestPoints tests declaredMax).2 =
        ((resolveTestPoints tests declaredMax).1.map TestCase.points).sum ∧
      ∀ t ∈ (resolveTestPoints tests declaredMax).1, 0 ≤ t.points := by
  by_cases hzero : ∀ t ∈ tests, t.points = 0
  · obtain ⟨hshares, hworth⟩ := @resolveTestPoints_zero tests declaredMax hzero hne
    have hnonneg : 0 ≤ if declaredMax = 0 then 100 else declaredMax := by
      split_ifs <;> omega
    rw [hworth, hshares, Problem.sum_shares hnonneg (List.length_pos_iff.mpr hne)]
    refine ⟨rfl, fun t ht => Problem.shares_nonneg (n := tests.length) hnonneg t.points ?_⟩
    rw [← hshares]
    exact List.mem_map_of_mem ht
  · push Not at hzero
    rw [resolveTestPoints_custom hpoints hzero]
    exact ⟨rfl, hpoints⟩

end Resolved

/-! ## Results -/

/-- The tests that a batch runs, each with what it brings, and the error of the batch. -/
def Batch.outcome (tests : List TestCase) : Batch → List (TestCase × CaseRun) × Option RunErr
  | failed err => ([], some err)
  | compileError _ _ => ([], none)
  | run execute => ran execute tests

/-- There is no compile error. -/
def Batch.Compiled : Batch → Prop
  | compileError _ _ => False
  | _ => True

section Evaluated

variable {s : Claimed} {tests : List TestCase} {maxScore : ℤ} {recent : ℕ → Bool} {batch : Batch}

/-- What `RunBatch` returns without a compile error. -/
lemma runBatch_eq {σ : Type} (hcompiled : batch.Compiled) (onCase : σ → BatchCaseResult → σ) (x : σ) :
    batch.runBatch (tests.map fun t => BatchCase.mk t.ordinal t.input) onCase x =
      ("", (batch.outcome tests).1.map fun p => (resultOf p).blanked, (batch.outcome tests).2,
        (batch.outcome tests).1.foldl (fun s p => onCase s (resultOf p)) x) := by
  cases batch with
  | failed err => rfl
  | compileError text hne => exact hcompiled.elim
  | run execute => rw [Batch.runBatch, runCases_eq]; rfl

/-- The tests that a batch runs are the first ones, and all where there is no error. -/
lemma outcome_prefix (hcompiled : batch.Compiled) (tests : List TestCase) :
    ∃ rest, tests = (batch.outcome tests).1.map Prod.fst ++ rest ∧
      ((batch.outcome tests).2 = none → rest = []) := by
  cases batch with
  | failed err => exact ⟨tests, rfl, by simp [Batch.outcome]⟩
  | compileError text hne => exact hcompiled.elim
  | run execute => exact ran_prefix execute tests

/-- The result of a batch without a compile error. -/
lemma evaluate_rows (hcompiled : batch.Compiled) (hdistinct : Distinct tests) {rest : List TestCase}
    (hsplit : tests = (batch.outcome tests).1.map Prod.fst ++ rest)
    (hall : (batch.outcome tests).2 = none → rest = []) :
    let result := (evaluateTests s tests maxScore recent (some batch)).1
    result.tests = (batch.outcome tests).1.map rowOf ++ rest.map missingRow ∧
      result.score = (result.tests.map fun row => row.2.points).sum ∧
      result.maxScore = maxScore ∧
      result.verdict = some (if (batch.outcome tests).2 = none
        then firstFailure ((batch.outcome tests).1.map judged) else .IE) := by
  have hmem : ∀ p ∈ (batch.outcome tests).1, p.1 ∈ tests := by
    intro p hp
    rw [hsplit]
    exact List.mem_append_left _ (List.mem_map_of_mem hp)
  have hnodup : ((batch.outcome tests).1.map fun p => p.1.ordinal).Nodup := by
    have h := hdistinct
    rw [hsplit, Distinct, List.map_append, List.nodup_append, List.map_map] at h
    exact h.1
  have hgraded : Graded ((batch.outcome tests).1.foldl
      (fun acc p => onCase s tests maxScore recent acc (resultOf p)) {}).graded
      (batch.outcome tests).1 := by
    intro p hp
    rw [get?_graded hnodup _ hp, grade_eq hdistinct (hmem p hp)]
  obtain ⟨hrows, hverdict, hseen⟩ := tally_run hdistinct hmem hgraded {}
  have hunseen (o : ℤ) := (hseen o).trans (or_iff_right (by simp))
  have hrest := fail_rows (hsplit ▸ hdistinct) hunseen
  rw [← hsplit, hrows] at hrest
  simp only [evaluateTests, runBatch_eq hcompiled]
  cases herr : (batch.outcome tests).2 with
  | none =>
      obtain rfl := hall herr
      exact ⟨by simpa [Tally.result] using hrows, rfl, rfl, congrArg some (hverdict.trans (by simp))⟩
  | some err => exact ⟨by simpa [Tally.result] using hrest, rfl, rfl, rfl⟩

/-- The result of a compile error. -/
lemma evaluate_compileError {text : String} (hnonempty : text ≠ "") :
    (evaluateTests s tests maxScore recent (some (.compileError text hnonempty))).1 =
      { newResult s .failed .CE with
        maxScore := maxScore
        testsTotal := tests.length
        compileError := some (sanitizeCompileError text) } :=
  congrArg Prod.fst (if_pos hnonempty)

end Evaluated

/-! ## The laws -/

/-- What holds between a suite with the points that are used, a batch of it and the result. -/
structure Laws (tests : List TestCase) (batch : Batch) (result : Result) : Prop where
  /-- The maximum is the sum of the points. -/
  worth : result.maxScore = (tests.map TestCase.points).sum
  /-- The score is that of the rows with `AC`. -/
  score : result.score =
    ((result.tests.filter fun row => row.2.verdict = .AC).map fun row => row.2.points).sum
  /-- A row with `AC` has all its points, and another none. -/
  earned : ∀ row ∈ result.tests, row.2.points = if row.2.verdict = .AC then row.2.maxPoints else 0
  bounded : 0 ≤ result.score ∧ result.score ≤ result.maxScore
  compileError : ¬ batch.Compiled → result.verdict = some .CE ∧ result.score = 0 ∧ result.tests = []
  /-- Every test has its row. -/
  rows : batch.Compiled → result.tests.map (fun row => (row.1, row.2.maxPoints)) =
    tests.map fun t => (t.ordinal, t.points)
  /-- The verdicts compare what running the tests has really brought. -/
  compared : batch.Compiled → ∃ rest, tests = (batch.outcome tests).1.map Prod.fst ++ rest ∧
    result.tests.map (fun row => row.2.verdict) =
      (batch.outcome tests).1.map judged ++ rest.map fun _ => .IE
  /-- An error of the runner fails the submission. -/
  failed : batch.Compiled → (batch.outcome tests).2 ≠ none → result.verdict = some .IE
  /-- Without one every test is run, and the verdict is the first that is not `AC`. -/
  finished : batch.Compiled → (batch.outcome tests).2 = none →
    (batch.outcome tests).1.map Prod.fst = tests ∧
      result.verdict = some (firstFailure (result.tests.map fun row => row.2.verdict))
  /-- Then it is `AC` where every test is, and all the points are given. -/
  passed : batch.Compiled → (batch.outcome tests).2 = none →
    (result.verdict = some .AC ↔ ∀ row ∈ result.tests, row.2.verdict = .AC) ∧
      (result.verdict = some .AC → result.score = result.maxScore)

section Rows

variable {rows : List (ℤ × SubmissionTest)}

/-- Where the other rows have no points, the rows with `AC` have them all. -/
lemma sum_passed (h : ∀ row ∈ rows, row.2.points = if row.2.verdict = .AC then row.2.maxPoints else 0) :
    (rows.map fun row => row.2.points).sum =
      ((rows.filter fun row => row.2.verdict = .AC).map fun row => row.2.points).sum := by
  induction rows with
  | nil => rfl
  | cons row rows ih =>
      have hrest := ih fun row' hrow' => h row' (by simp [hrow'])
      have hrow := h row (by simp)
      by_cases hverdict : row.2.verdict = .AC
      · simp [hverdict, hrest]
      · rw [if_neg hverdict] at hrow
        simp [hverdict, hrest, hrow]

/-- The points of the rows lie between nothing and all. -/
lemma sum_bounded (h : ∀ row ∈ rows, row.2.points = if row.2.verdict = .AC then row.2.maxPoints else 0)
    (hmax : ∀ row ∈ rows, 0 ≤ row.2.maxPoints) :
    0 ≤ (rows.map fun row => row.2.points).sum ∧
      (rows.map fun row => row.2.points).sum ≤ (rows.map fun row => row.2.maxPoints).sum := by
  have hpoints (row) (hrow : row ∈ rows) : 0 ≤ row.2.points ∧ row.2.points ≤ row.2.maxPoints := by
    have := hmax row hrow
    rw [h row hrow]
    split_ifs <;> omega
  constructor
  · refine List.sum_nonneg fun x hx => ?_
    obtain ⟨row, hrow, rfl⟩ := List.mem_map.mp hx
    exact (hpoints row hrow).1
  · exact List.sum_le_sum fun row hrow => (hpoints row hrow).2

/-- Where every row has `AC`, they have all the points. -/
lemma sum_all (h : ∀ row ∈ rows, row.2.points = if row.2.verdict = .AC then row.2.maxPoints else 0)
    (hall : ∀ row ∈ rows, row.2.verdict = .AC) :
    (rows.map fun row => row.2.points).sum = (rows.map fun row => row.2.maxPoints).sum := by
  congr 1
  refine List.map_congr_left fun row hrow => ?_
  rw [h row hrow, if_pos (hall row hrow)]

end Rows

section Assembled

variable {tests rest : List TestCase} {batch : Batch} {result : Result}

/-- A compile error leaves no rows. -/
lemma Laws.of_compileError (hcompiled : ¬ batch.Compiled) (hpoints : ∀ t ∈ tests, 0 ≤ t.points)
    (hrows : result.tests = []) (hscore : result.score = 0)
    (hworth : result.maxScore = (tests.map TestCase.points).sum) (hverdict : result.verdict = some .CE) :
    Laws tests batch result where
  worth := hworth
  score := by simp [hrows, hscore]
  earned := by simp [hrows]
  bounded := by
    rw [hscore, hworth]
    refine ⟨le_rfl, List.sum_nonneg fun x hx => ?_⟩
    obtain ⟨t, ht, rfl⟩ := List.mem_map.mp hx
    exact hpoints t ht
  compileError := fun _ => ⟨hverdict, hscore, hrows⟩
  rows := fun h => absurd h hcompiled
  compared := fun h => absurd h hcompiled
  failed := fun h => absurd h hcompiled
  finished := fun h => absurd h hcompiled
  passed := fun h => absurd h hcompiled

/-- The laws from the rows. -/
lemma Laws.of_rows (hcompiled : batch.Compiled) (hpoints : ∀ t ∈ tests, 0 ≤ t.points)
    (hsplit : tests = (batch.outcome tests).1.map Prod.fst ++ rest)
    (hall : (batch.outcome tests).2 = none → rest = [])
    (hrows : result.tests = (batch.outcome tests).1.map rowOf ++ rest.map missingRow)
    (hscore : result.score = (result.tests.map fun row => row.2.points).sum)
    (hworth : result.maxScore = (tests.map TestCase.points).sum)
    (hverdict : result.verdict = some (if (batch.outcome tests).2 = none
      then firstFailure ((batch.outcome tests).1.map judged) else .IE)) :
    Laws tests batch result := by
  have hearned : ∀ row ∈ result.tests,
      row.2.points = if row.2.verdict = .AC then row.2.maxPoints else 0 := by
    intro row hrow
    rw [hrows, List.mem_append] at hrow
    rcases hrow with hran | hmissing
    · obtain ⟨p, -, rfl⟩ := List.mem_map.mp hran
      rfl
    · obtain ⟨t, -, rfl⟩ := List.mem_map.mp hmissing
      rfl
  have hkeys : result.tests.map (fun row => (row.1, row.2.maxPoints)) =
      tests.map fun t => (t.ordinal, t.points) := by
    conv_rhs => rw [hsplit]
    simp [hrows, rowOf, missingRow, Function.comp_def]
  have hmaxPoints : (result.tests.map fun row => row.2.maxPoints) = tests.map TestCase.points := by
    simpa [Function.comp_def] using congrArg (List.map Prod.snd) hkeys
  have hmax : ∀ row ∈ result.tests, 0 ≤ row.2.maxPoints := by
    intro row hrow
    have hmem : row.2.maxPoints ∈ tests.map TestCase.points := hmaxPoints ▸ List.mem_map_of_mem hrow
    obtain ⟨t, ht, heq⟩ := List.mem_map.mp hmem
    rw [← heq]
    exact hpoints t ht
  have hcompared : (result.tests.map fun row => row.2.verdict) =
      (batch.outcome tests).1.map judged ++ rest.map fun _ => .IE := by
    simp [hrows, rowOf, missingRow, Function.comp_def]
  have hfinished (herr : (batch.outcome tests).2 = none) : (batch.outcome tests).1.map Prod.fst = tests ∧
      result.verdict = some (firstFailure (result.tests.map fun row => row.2.verdict)) := by
    obtain rfl := hall herr
    rw [hcompared, hverdict, if_pos herr]
    exact ⟨by simpa using hsplit.symm, by simp⟩
  have hpassed (herr : (batch.outcome tests).2 = none) :
      result.verdict = some .AC ↔ ∀ row ∈ result.tests, row.2.verdict = .AC := by
    rw [(hfinished herr).2, Option.some_inj, firstFailure_eq_AC, List.forall_mem_map]
  exact
    { worth := hworth
      score := hscore.trans (sum_passed hearned)
      earned := hearned
      bounded := by
        rw [hscore, hworth, ← hmaxPoints]
        exact sum_bounded hearned hmax
      compileError := fun h => absurd hcompiled h
      rows := fun _ => hkeys
      compared := fun _ => ⟨rest, hsplit, hcompared⟩
      failed := fun _ herr => by rw [hverdict, if_neg herr]
      finished := fun _ => hfinished
      passed := fun _ herr => ⟨hpassed herr, fun hAC => by
        rw [hscore, hworth, ← hmaxPoints]
        exact sum_all hearned ((hpassed herr).mp hAC)⟩ }

end Assembled

/-! ## The result -/

/-- **The laws of a result.**  The suite that is used is the one that has been loaded, but for the
points. -/
theorem evaluate_lawful {s : Claimed} {tests : List TestCase} (batch : Batch) (recent : ℕ → Bool)
    (hdistinct : Distinct tests) (hpoints : ∀ t ∈ tests, 0 ≤ t.points) (hne : tests ≠ [])
    (hmax : 0 ≤ s.maxScore) :
    (resolveTestPoints tests s.maxScore).1.map (fun t => (t.ordinal, t.input, t.expected)) =
        (tests.map fun t => (t.ordinal, t.input, t.expected)) ∧
      Laws (resolveTestPoints tests s.maxScore).1 batch
        (evaluate s (.ok tests) (some batch) recent).1 := by
  have hsame := resolveTestPoints_same tests s.maxScore
  obtain ⟨hworth, hnonneg⟩ := resolveTestPoints_worth hpoints hne hmax
  have hordinals : Distinct (resolveTestPoints tests s.maxScore).1 := by
    have h := congrArg (List.map Prod.fst) hsame
    simp only [List.map_map, Function.comp_def] at h
    exact (congrArg List.Nodup h).mpr hdistinct
  refine ⟨hsame, ?_⟩
  rw [show evaluate s (.ok tests) (some batch) recent = evaluateTests s (resolveTestPoints tests s.maxScore).1
    (resolveTestPoints tests s.maxScore).2 recent (some batch) from if_neg hne]
  by_cases hcompiled : batch.Compiled
  · obtain ⟨rest, hsplit, hall⟩ := outcome_prefix hcompiled (resolveTestPoints tests s.maxScore).1
    obtain ⟨hrows, hscore, hmaxScore, hverdict⟩ := evaluate_rows hcompiled hordinals hsplit hall
    exact Laws.of_rows hcompiled hnonneg hsplit hall hrows hscore (hmaxScore.trans hworth) hverdict
  · cases batch with
    | failed err => exact absurd trivial hcompiled
    | run execute => exact absurd trivial hcompiled
    | compileError text hnonempty =>
        rw [evaluate_compileError hnonempty]
        exact Laws.of_compileError hcompiled hnonneg rfl rfl hworth rfl

/-- A suite without points, and a program that echoes its input: the first test passes, for half of the
maximum, and the second does not. -/
theorem evaluate_lawful_sample :
    let s : Claimed := ⟨1, 2, 3, 4, "python3", "", 101, 2, 0, 1000, 256, none, .running⟩
    let tests : List TestCase := [⟨"a", 1, [49], [49, 10], 0⟩, ⟨"b", 2, [50], [51], 0⟩]
    let batch : Batch := .run fun c => .ok ⟨c.stdin, [], 0, 20, 3000, .AC⟩
    Laws (resolveTestPoints tests s.maxScore).1 batch (evaluate s (.ok tests) (some batch) fun _ => false).1 ∧
      (evaluate s (.ok tests) (some batch) fun _ => false).1.tests.map (fun row => row.2.points) = [51, 0] :=
  ⟨(evaluate_lawful _ _ (by decide) (by decide) (by decide) (by decide)).2, by decide +kernel⟩

end Grading

end Labyrithm
