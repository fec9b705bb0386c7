import Labyrithm.Problem.Handlers
import Labyrithm.Problem.Ordinals
import Labyrithm.TestCache.Sections

/-!
# Which changes are announced

A handler that changes a suite is to publish an invalidation of the problem afterwards.  The handlers
whose calls always end with one do; two calls change points on the way, where nothing is published: a
suite without points gets some when its metadata are read, and the points are split anew when the score
of the problem changes.

* `Announced` — in what a handler does, every change of a suite has an invalidation after it.
* `Request.Announces` — the requests that do neither of the two, or go on to an invalidation.
* **`handle_announced`** — what the handler of such a request does is announced; `handle_published` that
  it publishes no other id than the one in the path, or the one of a new problem.
-/

namespace Labyrithm

namespace Problem

open TestCache (TestCase)

/-- A test as the judge reads it. -/
def TestRow.testCase (t : TestRow) : TestCase := ⟨t.id, t.ordinal, t.input, t.expected, t.points⟩

/-- The suite of a problem as the judge reads it. -/
def Store.suite (id : String) (σ : Store) : List TestCase := (σ.tests id).map TestRow.testCase

/-- Whatever changes a suite is followed by an invalidation of its problem. -/
def Announced (sha : List UInt8 → String) : Store → List Effect → Prop
  | _, [] => True
  | σ, .commit id call :: todo => ∀ σ', σ.call sha id call = .ok σ' →
      (∀ q, σ'.suite q = σ.suite q ∨ .invalidate q ∈ todo) ∧ Announced sha σ' todo
  | σ, .invalidate _ :: todo => Announced sha σ todo

/-! ## The two calls -/

namespace ProblemRow

variable {p p' : ProblemRow} {sha : List UInt8 → String}

/-- A suite that gets points when its metadata are read. -/
def Unscored (p : ProblemRow) : Prop := p.tests ≠ [] ∧ p.allZero = true ∧ 0 < p.maxScore

instance (p : ProblemRow) : Decidable p.Unscored := inferInstanceAs (Decidable (_ ∧ _))

/-- A suite whose points are split anew by an update of the problem. -/
def Rescored (input : CreateProblemInput) (p : ProblemRow) : Prop :=
  p.maxScore ≠ newScore input ∧ p.tests ≠ [] ∧ isEvenDistribution p.points p.maxScore = true

instance (input : CreateProblemInput) (p : ProblemRow) : Decidable (p.Rescored input) :=
  inferInstanceAs (Decidable (_ ∧ _))

lemma getTestMetadata_eq (h : ¬ p.Unscored) : p.getTestMetadata = p := if_neg h

lemma update_tests {input : CreateProblemInput} (h : ¬ p.Rescored input) :
    (p.update input).tests = p.tests := by
  have hkeep : p.update input = p.revised input := (update_eq input p).trans (if_neg h)
  rw [hkeep]
  rfl

/-- A suite that has got points by an even split does not get any when it is read. -/
lemma distributeProblemPoints_not_unscored (p : ProblemRow) :
    ¬ (p.distributeProblemPoints p.maxScore).Unscored := by
  rintro ⟨hne, hzero, hscore⟩
  unfold distributeProblemPoints at hne hzero hscore
  split_ifs at hne hzero hscore with hle
  · omega
  have hpos : 0 < p.tests.length := by
    have := List.length_pos_iff.mpr hne
    simpa using this
  have hall : ∀ n ∈ shares p.maxScore p.tests.length, n ≤ 0 := by
    intro n hn
    obtain ⟨i, hi, rfl⟩ := List.mem_map.mp hn
    have hi : i < p.tests.length := List.mem_range.mp hi
    simp only [allZero, List.all_eq_true, decide_eq_true_eq] at hzero
    exact hzero { p.tests[i] with points := share p.maxScore p.tests.length i }
      (List.mem_mapIdx.mpr ⟨i, hi, rfl⟩)
  have hsum := List.sum_le_card_nsmul _ 0 hall
  rw [sum_shares (not_le.mp hle).le hpos, nsmul_zero] at hsum
  exact hle hsum

lemma addSingleTest_not_unscored {id : String} {input expected : List UInt8} {points : ℤ}
    (h : p.addSingleTest sha id input expected points = .ok p') : ¬ p'.Unscored := by
  obtain ⟨hpos, -, -, rfl⟩ := addSingleTest_eq_ok h
  by_cases hauto : p.shouldAutoDistribute points = true
  · rw [if_pos hauto]
    exact distributeProblemPoints_not_unscored
      { p with tests := p.tests ++ [testRow sha id p.nextOrdinal input expected 0] }
  · -- the new test has points, or an old one has
    rw [if_neg hauto]
    rintro ⟨-, hzero, -⟩
    simp only [allZero, List.all_append, Bool.and_eq_true] at hzero
    obtain ⟨hold, hnew⟩ := hzero
    have hle : points ≤ 0 := by simpa [testRow] using hnew
    refine hauto ?_
    have heven : isEvenDistribution p.points p.maxScore = true :=
      isEvenDistribution_iff.mpr (.inl (by simpa [ProblemRow.points] using hold))
    simp [shouldAutoDistribute, hle, heven]

/-! ## Calls that go through -/

/-- What two tests must not have in common. -/
def pairHash (sha : List UInt8 → String) (input expected : List UInt8) : String :=
  sha input ++ ":" ++ sha expected

lemma lookup_cons_eq_none {seenHashes : List (String × ℕ)} {hash hash' : String} {i : ℕ}
    (hne : hash ≠ hash') (h : seenHashes.lookup hash = none) :
    ((hash', i) :: seenHashes).lookup hash = none := by
  rw [List.lookup_cons, beq_eq_false_iff_ne.mpr hne]
  exact h

/-- Tests that differ from each other, and from those before, are inserted. -/
lemma insertTests_isOk {ids : ℕ → String} {ts : List TestInput} {i : ℕ}
    {seenHashes : List (String × ℕ)} {tests : List TestRow}
    (hnodup : (ts.map fun t => pairHash sha t.input t.expected).Nodup)
    (hseen : ∀ t ∈ ts, seenHashes.lookup (pairHash sha t.input t.expected) = none)
    (htests : tests.map (·.ordinal) = oneTo i) :
    ∃ rows, insertTests sha ids ts i seenHashes tests = .ok rows := by
  induction ts generalizing i seenHashes tests with
  | nil => exact ⟨tests, rfl⟩
  | cons t ts ih =>
      rw [List.map_cons, List.nodup_cons] at hnodup
      obtain ⟨hnew, hnodup⟩ := hnodup
      obtain ⟨hfirst, hseen⟩ := List.forall_mem_cons.mp hseen
      have hfree : tests.any (·.ordinal = (i : ℤ) + 1) = false := by
        simp only [List.any_eq_false, decide_eq_true_eq]
        intro row hrow heq
        have hmem : row.ordinal ∈ oneTo i := htests ▸ List.mem_map_of_mem hrow
        have hle := (mem_oneTo.mp hmem).2
        omega
      have hinsert (row : TestRow) (hrow : row.ordinal = i + 1) :
          insertTest row tests = .ok (tests ++ [row]) := by
        simp [insertTest, hrow, hfree]
      simp only [insertTests]
      rw [show sha t.input ++ ":" ++ sha t.expected = pairHash sha t.input t.expected from rfl, hfirst]
      rw [hinsert (testRow sha (ids i) (i + 1) t.input t.expected t.points) rfl]
      refine ih hnodup (fun u hu => lookup_cons_eq_none ?_ (hseen u hu)) ?_
      · intro heq
        rw [← heq] at hnew
        exact hnew (List.mem_map.mpr ⟨u, hu, rfl⟩)
      · rw [List.map_append, htests, oneTo_succ]
        rfl

/-- And only such tests are. -/
lemma insertTests_hashes {ids : ℕ → String} {ts : List TestInput} {i : ℕ}
    {seenHashes : List (String × ℕ)} {tests rows : List TestRow}
    (h : insertTests sha ids ts i seenHashes tests = .ok rows) :
    (ts.map fun t => pairHash sha t.input t.expected).Nodup ∧
      ∀ t ∈ ts, seenHashes.lookup (pairHash sha t.input t.expected) = none := by
  induction ts generalizing i seenHashes tests with
  | nil => exact ⟨List.nodup_nil, by simp⟩
  | cons t ts ih =>
      simp only [insertTests] at h
      split at h
      · cases h
      rename_i hnone
      split at h
      · cases h
      obtain ⟨hnodup, hseen⟩ := ih h
      have hnew (u : TestInput) (hu : u ∈ ts) :
          pairHash sha u.input u.expected ≠ pairHash sha t.input t.expected ∧
            seenHashes.lookup (pairHash sha u.input u.expected) = none := by
        have hboth := hseen u hu
        rw [List.lookup_cons] at hboth
        split at hboth
        · cases hboth
        · rename_i hne
          exact ⟨by simpa [pairHash] using hne, hboth⟩
      refine ⟨?_, List.forall_mem_cons.mpr ⟨hnone, fun u hu => (hnew u hu).2⟩⟩
      rw [List.map_cons, List.nodup_cons]
      refine ⟨fun hmem => ?_, hnodup⟩
      obtain ⟨u, hu, heq⟩ := List.mem_map.mp hmem
      exact (hnew u hu).1 heq

lemma distributePoints_hashes (tests : List TestInput) (maxScore : ℤ) :
    (distributePoints tests maxScore).map (fun t => pairHash sha t.input t.expected) =
      tests.map fun t => pairHash sha t.input t.expected := by
  unfold distributePoints
  split_ifs
  · rfl
  · refine List.ext_getElem (by simp) fun i _ _ => ?_
    simp

/-- A suite that `ReplaceTests` accepts for a score. -/
def Accepted (sha : List UInt8 → String) (maxScore : ℤ) (tests : List TestInput) : Prop :=
  (validateTestPoints tests maxScore).isOk = true ∧
    (tests.map fun t => pairHash sha t.input t.expected).Nodup

instance (maxScore : ℤ) (tests : List TestInput) : Decidable (Accepted sha maxScore tests) :=
  inferInstanceAs (Decidable (_ ∧ _))

lemma replaceTests_of_accepted {tests : List TestInput} (h : Accepted sha p.maxScore tests)
    (ids : ℕ → String) : ∃ p', p.replaceTests sha ids tests = .ok p' := by
  obtain ⟨hvalid, hnodup⟩ := h
  obtain ⟨rows, hrows⟩ : ∃ rows,
      insertTests sha ids (distributePoints tests p.maxScore) 0 [] [] = .ok rows :=
    insertTests_isOk (distributePoints_hashes tests p.maxScore ▸ hnodup) (fun _ _ => rfl) rfl
  cases hcheck : validateTestPoints tests p.maxScore with
  | error err => simp [hcheck, Except.isOk, Except.toBool] at hvalid
  | ok u => exact ⟨{ p with tests := rows }, by simp [replaceTests, hcheck, hrows]⟩

lemma accepted_of_replaceTests {ids : ℕ → String} {tests : List TestInput}
    (h : p.replaceTests sha ids tests = .ok p') : Accepted sha p.maxScore tests := by
  obtain ⟨hvalid, rows, hrows, -⟩ := replaceTests_eq_ok h
  refine ⟨by simp [hvalid, Except.isOk, Except.toBool], ?_⟩
  rw [← distributePoints_hashes tests p.maxScore]
  exact (insertTests_hashes hrows).1

/-- The tests of a payload are accepted for a score. -/
def Accepts (sha : List UInt8 → String) (maxScore : ℤ) (tests : List TestCaseDTO) : Prop :=
  (validateTestPoints (numberTests tests) maxScore).isOk = true ∧
    (tests.map fun t => pairHash sha t.input t.expected).Nodup

instance (maxScore : ℤ) (tests : List TestCaseDTO) : Decidable (Accepts sha maxScore tests) :=
  inferInstanceAs (Decidable (_ ∧ _))

lemma accepts_iff {maxScore : ℤ} {tests : List TestCaseDTO} :
    Accepts sha maxScore tests ↔ Accepted sha maxScore (numberTests tests) := by
  have hsame : ((numberTests tests).map fun t => pairHash sha t.input t.expected) =
      tests.map fun t => pairHash sha t.input t.expected := by
    refine List.ext_getElem (by simp [numberTests]) fun i _ _ => ?_
    simp [numberTests]
  rw [Accepts, Accepted, hsame]

lemma replaceTests_of_accepts {tests : List TestCaseDTO} (h : Accepts sha p.maxScore tests)
    (ids : ℕ → String) : ∃ p', p.replaceTests sha ids (numberTests tests) = .ok p' :=
  replaceTests_of_accepted (accepts_iff.mp h) ids

lemma deleteSingleTest_of_mem (h : p.Numbered) {ordinal : ℤ} (hmem : ordinal ∈ p.ordinals)
    (scan₁ scan₂ : Sql.Scan) : ∃ p', p.deleteSingleTest scan₁ scan₂ ordinal = .ok p' := by
  rw [deleteSingleTest_eq h, if_neg (not_not.mpr hmem)]
  split_ifs
  · exact ⟨_, rfl⟩
  · exact ⟨_, rfl⟩

/-! ## Suites that stay numbered -/

lemma Numbered.distributeProblemPoints (h : p.Numbered) (maxScore : ℤ) :
    (p.distributeProblemPoints maxScore).Numbered :=
  h.of_ordinals_eq (distributeProblemPoints_ordinals maxScore)

lemma getTestMetadata_ordinals (p : ProblemRow) : p.getTestMetadata.ordinals = p.ordinals := by
  unfold getTestMetadata
  split_ifs
  · exact map_ordinal_mapIdx _ _
  · rfl

lemma Numbered.update (h : p.Numbered) (input : CreateProblemInput) : (p.update input).Numbered := by
  have hrevised : (p.revised input).Numbered := h
  rw [update_eq]
  split_ifs
  · exact hrevised.distributeProblemPoints _
  · exact hrevised

end ProblemRow

lemma Call.run_numbered {sha : List UInt8 → String} {call : Call} {p p' : ProblemRow}
    (hp : p.Numbered) (h : call.run sha (some p) = .ok (some p')) : p'.Numbered := by
  cases call with
  | create input | delete => simp [Call.run] at h
  | update input =>
      obtain rfl : p.update input = p' := by simpa [Call.run] using h
      exact hp.update input
  | setPublished published =>
      obtain rfl : p.setPublished published = p' := by simpa [Call.run] using h
      exact hp
  | edit op =>
      cases hop : op.run sha p with
      | error err => simp [Call.run, hop, Except.map] at h
      | ok row =>
          obtain rfl : row = p' := by simpa [Call.run, hop, Except.map] using h
          have happly : (op.apply sha p).Numbered := op.apply_numbered hp
          rwa [TestOp.apply, hop] at happly
  | getTestMetadata =>
      obtain rfl : p.getTestMetadata = p' := by simpa [Call.run] using h
      exact hp.of_ordinals_eq p.getTestMetadata_ordinals

/-- All suites are numbered. -/
def Store.Numbered (σ : Store) : Prop := ∀ id, ∀ p ∈ σ.lookup id, p.Numbered

variable {sha : List UInt8 → String} {id : String} {call : Call} {σ σ' : Store} {next : Outcome}

lemma Store.Numbered.after (hσ : σ.Numbered) (h : σ.call sha id call = .ok σ') : σ'.Numbered := by
  intro q p' hp'
  by_cases hq : q = id
  · subst hq
    rcases Store.call_some h hp' with ⟨input, -, rfl⟩ | ⟨p, hp, hrun⟩
    · rfl
    · exact Call.run_numbered (hσ q p hp) hrun
  · rw [Store.call_frame h hq] at hp'
    exact hσ q p' hp'

/-! ## The parts of a handler -/

lemma suite_eq_of_lookup {q : String} (h : σ'.lookup q = σ.lookup q) : σ'.suite q = σ.suite q := by
  rw [Store.suite, Store.suite, Store.tests, Store.tests, h]

@[simp] lemma announced_refuse (reply : Reply) : Announced sha σ (refuse reply).2 := trivial

lemma announced_check (text : Option String) (h : Announced sha σ next.2) :
    Announced sha σ (check text next).2 := by
  cases text with
  | none => exact h
  | some text => trivial

@[simp] lemma announced_announce :
    Announced sha σ (announce id next).2 ↔ Announced sha σ next.2 := Iff.rfl

/-- A call that leaves the suite as it is, or is followed by an invalidation. -/
lemma announced_attempt {onError : Err → Reply} {next : Store → Outcome}
    (h : ∀ σ', σ.call sha id call = .ok σ' →
      (σ'.suite id = σ.suite id ∨ .invalidate id ∈ (next σ').2) ∧ Announced sha σ' (next σ').2) :
    Announced sha σ (attempt sha id call onError σ next).2 := by
  unfold attempt
  cases hcall : σ.call sha id call with
  | error err => trivial
  | ok σ₁ =>
      intro σ' hσ'
      obtain rfl := Except.ok.inj (hcall.symm.trans hσ')
      obtain ⟨hid, hnext⟩ := h σ₁ hcall
      refine ⟨fun q => ?_, hnext⟩
      by_cases hq : q = id
      · exact hq ▸ hid
      · exact .inl (suite_eq_of_lookup (Store.call_frame hcall hq))

/-- A call with an invalidation right after it. -/
lemma announced_attempt_announce {onError : Err → Reply} {next : Store → Outcome}
    (h : ∀ σ', σ.call sha id call = .ok σ' → Announced sha σ' (next σ').2) :
    Announced sha σ (attempt sha id call onError σ fun σ' => announce id (next σ')).2 :=
  announced_attempt fun σ' hσ' => ⟨.inr List.mem_cons_self, h σ' hσ'⟩

/-- A call that goes through has what comes after it among its effects. -/
lemma mem_attempt {onError : Err → Reply} {next : Store → Outcome} {e : Effect}
    (h : ∃ σ', σ.call sha id call = .ok σ' ∧ e ∈ (next σ').2) :
    e ∈ (attempt sha id call onError σ next).2 := by
  obtain ⟨σ', hcall, he⟩ := h
  simp only [attempt, hcall]
  exact List.mem_cons_of_mem _ he

/-! ## The metadata -/

lemma call_getTestMetadata (h : σ.call sha id .getTestMetadata = .ok σ') :
    σ'.lookup id = (σ.lookup id).map (·.getTestMetadata) := by
  have hrow := Store.call_row h
  exact (Except.ok.inj hrow).symm

/-- Reading the metadata of a suite that has points changes nothing. -/
lemma suite_getTestMetadata (hσ : ∀ p ∈ σ.lookup id, ¬ p.Unscored)
    (h : σ.call sha id .getTestMetadata = .ok σ') : σ'.lookup id = σ.lookup id := by
  rw [call_getTestMetadata h]
  cases hp : σ.lookup id with
  | none => rfl
  | some p => exact congrArg some (ProblemRow.getTestMetadata_eq (hσ p hp))

lemma getAdminProblemTests_announced (h : ∀ p ∈ σ.lookup id, ¬ p.Unscored) :
    Announced sha σ (getAdminProblemTests sha id σ).2 :=
  announced_attempt fun _ hσ' => ⟨.inl (suite_eq_of_lookup (suite_getTestMetadata h hσ')), trivial⟩

/-! ## The handlers of a suite -/

lemma replaceTestCases_announced (ids : ℕ → String) (tests : List TestCaseDTO) :
    Announced sha σ (replaceTestCases sha id ids tests σ).2 := by
  unfold replaceTestCases
  split_ifs
  · trivial
  · exact announced_check _ (announced_check _ (announced_attempt_announce fun _ _ => trivial))

/-- After a test was added, the suite has points. -/
lemma call_addSingleTest_not_unscored {testId : String} {input expected : List UInt8} {points : ℤ}
    (h : σ.call sha id (.edit (.addSingleTest testId input expected points)) = .ok σ') :
    ∀ p ∈ σ'.lookup id, ¬ p.Unscored := by
  intro p' hp'
  rcases Store.call_some h hp' with ⟨input, hcall, -⟩ | ⟨p, -, hrun⟩
  · cases hcall
  · cases hop : TestOp.run sha (.addSingleTest testId input expected points) p with
    | error err => simp [Call.run, hop, Except.map] at hrun
    | ok row =>
        obtain rfl : row = p' := by simpa [Call.run, hop, Except.map] using hrun
        exact ProblemRow.addSingleTest_not_unscored hop

lemma addSingleTestCase_announced (testId : String) (body : SingleTestBody) :
    Announced sha σ (addSingleTestCase sha id testId body σ).2 := by
  unfold addSingleTestCase
  dsimp only
  refine announced_check _ (announced_check _ ?_)
  split_ifs
  · trivial
  split
  · trivial
  refine announced_check _ (announced_attempt_announce fun σ₁ hσ₁ => ?_)
  refine announced_attempt fun σ₂ hσ₂ => ⟨.inl ?_, trivial⟩
  exact suite_eq_of_lookup (suite_getTestMetadata (call_addSingleTest_not_unscored hσ₁) hσ₂)

lemma updateSingleTestCase_announced (ordinal : List Char) (body : SingleTestBody) :
    Announced sha σ (updateSingleTestCase sha id ordinal body σ).2 := by
  unfold updateSingleTestCase
  split
  · trivial
  · exact announced_check _ (announced_check _ (announced_attempt_announce fun _ _ => trivial))

lemma updateTestPoints_announced (payload : PointsPayload) :
    Announced sha σ (updateTestPoints sha id payload σ).2 := by
  unfold updateTestPoints
  split
  · trivial
  split_ifs
  · trivial
  refine announced_check _ ?_
  dsimp only
  split_ifs
  · trivial
  · exact announced_attempt_announce fun _ _ => trivial

lemma deleteTest_announced (ord : ℤ) (scan₁ scan₂ : Sql.Scan) :
    Announced sha σ (deleteTest sha id ord scan₁ scan₂ σ).2 :=
  announced_attempt_announce fun _ _ => trivial

/-- A deletion is made, and announced, if there is such a test. -/
lemma mem_deleteTest {p : ProblemRow} {ord : ℤ} {scan₁ scan₂ : Sql.Scan} (hrow : σ.lookup id = some p)
    (hp : p.Numbered) (hmem : ord ∈ p.ordinals) :
    .invalidate id ∈ (deleteTest sha id ord scan₁ scan₂ σ).2 := by
  obtain ⟨p', hp'⟩ := ProblemRow.deleteSingleTest_of_mem hp hmem scan₁ scan₂
  refine mem_attempt ⟨σ.put id (some p'), ?_, List.mem_cons_self⟩
  simp [Store.call, Store.slugTaken, hrow, Call.run, TestOp.run, hp', Except.map]

lemma deleteSingleTestCase_announced {ordinal : List Char} {scan₁ scan₂ : Sql.Scan}
    (hσ : σ.Numbered)
    (h : ∀ ord ∈ ordinalParam ordinal, ∀ p ∈ σ.lookup id, p.published → p.Unscored →
      minEvaluationTestCases < p.tests.length ∧ ord ∈ p.ordinals) :
    Announced sha σ (deleteSingleTestCase sha id ordinal scan₁ scan₂ σ).2 := by
  unfold deleteSingleTestCase
  cases hord : ordinalParam ordinal with
  | none => trivial
  | some ord =>
      dsimp only
      split_ifs with hpub
      · obtain ⟨p, hp, hpub⟩ := (Option.any_eq_true ..).mp hpub
        refine announced_attempt fun σ₁ hσ₁ => ?_
        have hrow : σ₁.lookup id = some p.getTestMetadata := by
          rw [call_getTestMetadata hσ₁, hp]
          rfl
        split_ifs with hfew
        · -- the request is turned down, so nothing may have been written
          refine ⟨.inl (suite_eq_of_lookup ?_), trivial⟩
          have hscored : ¬ p.Unscored := by
            intro hscored
            obtain ⟨hmany, -⟩ := h ord hord p hp hpub hscored
            have hlen : (σ₁.tests id).length = p.tests.length := by
              rw [Store.tests, hrow, Option.map_some, Option.getD_some, ← ProblemRow.length_ordinals,
                ProblemRow.getTestMetadata_ordinals, ProblemRow.length_ordinals]
            omega
          rw [hrow, hp, ProblemRow.getTestMetadata_eq hscored]
        · refine ⟨?_, deleteTest_announced ord scan₁ scan₂⟩
          by_cases hscored : p.Unscored
          · obtain ⟨-, hmem⟩ := h ord hord p hp hpub hscored
            have hnumbered := (hσ id p hp).of_ordinals_eq p.getTestMetadata_ordinals
            exact .inr (mem_deleteTest hrow hnumbered (p.getTestMetadata_ordinals ▸ hmem))
          · refine .inl (suite_eq_of_lookup ?_)
            rw [hrow, hp, ProblemRow.getTestMetadata_eq hscored]
      · exact deleteTest_announced ord scan₁ scan₂

/-! ## The handlers of a problem -/

lemma saveTests_announced (ids : ℕ → String) (tests : List TestCaseDTO) (reply : Reply) :
    Announced sha σ (saveTests sha id ids tests σ (refuse reply)).2 :=
  announced_attempt_announce fun _ _ => trivial

/-- Tests that are accepted are saved, and announced. -/
lemma mem_saveTests {p : ProblemRow} {ids : ℕ → String} {tests : List TestCaseDTO} {next : Outcome}
    (hrow : σ.lookup id = some p) (h : ProblemRow.Accepts sha p.maxScore tests) :
    .invalidate id ∈ (saveTests sha id ids tests σ next).2 := by
  obtain ⟨p', hp'⟩ := ProblemRow.replaceTests_of_accepts h ids
  refine mem_attempt ⟨σ.put id (some p'), ?_, List.mem_cons_self⟩
  simp [Store.call, Store.slugTaken, hrow, Call.run, TestOp.run, hp', Except.map]

lemma createProblem_announced (ids : ℕ → String) (req : ProblemPayload) :
    Announced sha σ (createProblem sha id ids req σ).2 := by
  unfold createProblem
  dsimp only
  split
  · trivial
  split
  · trivial
  refine announced_check _ (announced_attempt fun σ₁ hσ₁ => ?_)
  have hempty : σ₁.suite id = σ.suite id := by
    have hrow := Store.call_row hσ₁
    cases hp : σ.lookup id with
    | some p => simp [hp, Call.run] at hrow
    | none =>
        rw [hp] at hrow
        have hnew : σ₁.lookup id = some (.create req.toInput) := (Except.ok.inj hrow).symm
        simp [Store.suite, Store.tests, hnew, hp, ProblemRow.create]
  refine ⟨.inl hempty, ?_⟩
  split_ifs
  · trivial
  · exact saveTests_announced ids _ _

lemma maxScore_update (input : CreateProblemInput) (p : ProblemRow) :
    (p.update input).maxScore = ProblemRow.newScore input := by
  rw [ProblemRow.update_eq]
  split_ifs
  · unfold ProblemRow.distributeProblemPoints
    split_ifs <;> rfl
  · rfl

/-- Points that are split anew are announced with the tests that are given. -/
lemma saveProblem_announced {ids : ℕ → String} {req : ProblemPayload}
    (h : ∀ p ∈ σ.lookup id, p.Rescored req.toInput →
      ∃ tests, req.tests = some tests ∧
        ProblemRow.Accepts sha (ProblemRow.newScore req.toInput) tests) :
    Announced sha σ (saveProblem sha id ids req σ).2 := by
  refine announced_attempt fun σ₁ hσ₁ => ⟨?_, ?_⟩
  · have hrow := Store.call_row hσ₁
    cases hp : σ.lookup id with
    | none => simp [hp, Call.run] at hrow
    | some p =>
        rw [hp] at hrow
        have hnew : σ₁.lookup id = some (p.update req.toInput) := (Except.ok.inj hrow).symm
        by_cases hscored : p.Rescored req.toInput
        · obtain ⟨tests, htests, haccepts⟩ := h p hp hscored
          rw [htests]
          exact .inr (mem_saveTests hnew ((maxScore_update req.toInput p).symm ▸ haccepts))
        · refine .inl ?_
          simp [Store.suite, Store.tests, hnew, hp, ProblemRow.update_tests hscored]
  · split
    · trivial
    · exact saveTests_announced ids _ _

/-- What `updateProblem` needs of the problem: it neither gives points to tests that have none nor
splits the points anew, unless tests are given that are accepted. -/
def ProblemPayload.Announces (sha : List UInt8 → String) (req : ProblemPayload) (p : ProblemRow) :
    Prop :=
  (req.tests = none → (req.published → ¬ p.Unscored) ∧
    ((req.published → minEvaluationTestCases ≤ p.tests.length) → ¬ p.Rescored req.toInput)) ∧
  ∀ tests ∈ req.tests, (req.published → minEvaluationTestCases ≤ tests.length) →
    validateTestsAgainstSamples req.samples tests = none → p.Rescored req.toInput →
      ProblemRow.Accepts sha (ProblemRow.newScore req.toInput) tests

instance (req : ProblemPayload) (p : ProblemRow) : Decidable (req.Announces sha p) :=
  inferInstanceAs (Decidable ((_ → _) ∧ ∀ tests ∈ _, _))

lemma updateProblem_announced {ids : ℕ → String} {req : ProblemPayload}
    (h : (req.trimmedSlug = [] ∨ validateSlug req.trimmedSlug) →
      ∀ p ∈ σ.lookup id, req.Announces sha p) :
    Announced sha σ (updateProblem sha id ids req σ).2 := by
  unfold updateProblem
  by_cases hslug : req.trimmedSlug ≠ [] ∧ !validateSlug req.trimmedSlug
  · rw [if_pos hslug]
    trivial
  rw [if_neg hslug]
  have hreq : ∀ p ∈ σ.lookup id, req.Announces sha p := by
    refine h ?_
    rw [not_and_or, not_ne_iff] at hslug
    exact hslug.imp_right fun hvalid => by simpa using hvalid
  split
  · next tests htests =>
    split_ifs with hfew
    · trivial
    cases hsample : validateTestsAgainstSamples req.samples tests with
    | some text => trivial
    | none =>
        refine announced_check _ (saveProblem_announced fun p hp hscored => ⟨tests, htests, ?_⟩)
        refine (hreq p hp).2 tests htests (fun hpub => ?_) hsample hscored
        exact not_lt.mp fun hlt => hfew ⟨hpub, hlt⟩
  · next htests =>
    split_ifs with hpub
    · refine announced_attempt fun σ₁ hσ₁ => ?_
      have hsame := suite_getTestMetadata (fun p hp => ((hreq p hp).1 htests).1 hpub) hσ₁
      refine ⟨.inl (suite_eq_of_lookup hsame), ?_⟩
      split_ifs with hfew
      · trivial
      · refine saveProblem_announced fun p hp hscored => absurd hscored ?_
        rw [hsame] at hp
        refine ((hreq p hp).1 htests).2 fun _ => ?_
        have hlen : (σ₁.tests id).length = p.tests.length := by
          rw [Store.tests, hsame, hp]
          rfl
        omega
    · refine saveProblem_announced fun p hp hscored => absurd hscored ?_
      exact ((hreq p hp).1 htests).2 fun hpub' => absurd hpub' hpub

lemma setProblemPublished_announced (published : Bool) :
    Announced sha σ (setProblemPublished sha id published σ).2 := by
  unfold setProblemPublished
  split_ifs
  · trivial
  · refine announced_attempt fun σ₁ hσ₁ => ⟨.inl ?_, trivial⟩
    have hrow := Store.call_row hσ₁
    cases hp : σ.lookup id with
    | none => simp [hp, Call.run] at hrow
    | some p =>
        rw [hp] at hrow
        have hnew : σ₁.lookup id = some (p.setPublished published) := (Except.ok.inj hrow).symm
        simp [Store.suite, Store.tests, hnew, hp, ProblemRow.setPublished]

/-! ## Every handler -/

/-- A request that changes no points without an invalidation to follow. -/
def Request.Announces (sha : List UInt8 → String) : Request → Store → Prop
  | .getAdminProblemTests id, σ => ∀ p ∈ σ.lookup id, ¬ p.Unscored
  | .deleteSingleTestCase id ordinal _ _, σ => ∀ ord ∈ ordinalParam ordinal, ∀ p ∈ σ.lookup id,
      p.published → p.Unscored → minEvaluationTestCases < p.tests.length ∧ ord ∈ p.ordinals
  | .updateProblem id _ req, σ => (req.trimmedSlug = [] ∨ validateSlug req.trimmedSlug) →
      ∀ p ∈ σ.lookup id, req.Announces sha p
  | _, _ => True

instance : (r : Request) → (σ : Store) → Decidable (r.Announces sha σ)
  | .getAdminProblemTests _, _ => inferInstanceAs (Decidable (∀ p ∈ _, _))
  | .deleteSingleTestCase .., _ => inferInstanceAs (Decidable (∀ ord ∈ _, ∀ p ∈ _, _))
  | .updateProblem .., _ => inferInstanceAs (Decidable (_ → ∀ p ∈ _, _))
  | .replaceTestCases .., _ | .addSingleTestCase .., _ | .updateSingleTestCase .., _
  | .updateTestPoints .., _ | .createProblem .., _ | .setProblemPublished .., _
  | .deleteProblem .., _ => .isTrue trivial

/-- What the handler of such a request does is announced. -/
theorem handle_announced {r : Request} (hσ : σ.Numbered) (h : r.Announces sha σ) :
    Announced sha σ (r.handle sha σ).2 := by
  cases r with
  | replaceTestCases id ids tests => exact replaceTestCases_announced ids tests
  | getAdminProblemTests id => exact getAdminProblemTests_announced h
  | addSingleTestCase id testId body => exact addSingleTestCase_announced testId body
  | updateSingleTestCase id ordinal body => exact updateSingleTestCase_announced ordinal body
  | deleteSingleTestCase id ordinal scan₁ scan₂ => exact deleteSingleTestCase_announced hσ h
  | updateTestPoints id payload => exact updateTestPoints_announced payload
  | createProblem id ids req =>
      simp only [Request.handle]
      exact createProblem_announced ids req
  | updateProblem id ids req => exact updateProblem_announced h
  | setProblemPublished id published => exact setProblemPublished_announced published
  | deleteProblem id => exact announced_attempt_announce fun _ _ => trivial

/-! ## What is published -/

/-- Nothing but these ids is published. -/
def PublishesOnly (ids : List String) (o : Outcome) : Prop := ∀ q, .invalidate q ∈ o.2 → q ∈ ids

section Published

variable {ids : List String} {next : Outcome} {after : Store → Outcome}

lemma publishesOnly_refuse (ids : List String) (reply : Reply) : PublishesOnly ids (refuse reply) :=
  fun _ hq => absurd hq List.not_mem_nil

lemma publishesOnly_check (text : Option String) (h : PublishesOnly ids next) :
    PublishesOnly ids (check text next) := by
  cases text with
  | some text => exact publishesOnly_refuse ids _
  | none => exact h

lemma publishesOnly_attempt {call : Call} {onError : Err → Reply}
    (h : ∀ σ', PublishesOnly ids (after σ')) : PublishesOnly ids (attempt sha id call onError σ after) := by
  intro q hq
  unfold attempt at hq
  split at hq
  · exact absurd hq List.not_mem_nil
  · next σ' _ => exact h σ' q (by simpa using hq)

lemma publishesOnly_announce (hid : id ∈ ids) (h : PublishesOnly ids next) :
    PublishesOnly ids (announce id next) := by
  intro q hq
  rcases List.mem_cons.mp hq with heq | hq
  · obtain rfl := Effect.invalidate.inj heq
    exact hid
  · exact h q hq

/-- A call, the invalidation, and the end. -/
lemma publishesOnly_change {call : Call} {onError : Err → Reply} (hid : id ∈ ids)
    (h : ∀ σ', PublishesOnly ids (after σ')) :
    PublishesOnly ids (attempt sha id call onError σ fun σ' => announce id (after σ')) :=
  publishesOnly_attempt fun σ' => publishesOnly_announce hid (h σ')

end Published

/-- The ids that a request may publish. -/
def Request.published : Request → List String
  | .getAdminProblemTests _ | .setProblemPublished .. => []
  | .updateProblem id _ req => if req.tests.isSome then [id] else []
  | .replaceTestCases id .. | .addSingleTestCase id .. | .updateSingleTestCase id ..
  | .deleteSingleTestCase id .. | .updateTestPoints id _ | .createProblem id .. | .deleteProblem id => [id]

lemma replaceTestCases_published (ids : ℕ → String) (tests : List TestCaseDTO) :
    PublishesOnly [id] (replaceTestCases sha id ids tests σ) := by
  unfold replaceTestCases
  split_ifs
  · exact publishesOnly_refuse _ _
  · refine publishesOnly_check _ (publishesOnly_check _ ?_)
    exact publishesOnly_change List.mem_cons_self fun _ => publishesOnly_refuse _ _

lemma addSingleTestCase_published (testId : String) (body : SingleTestBody) :
    PublishesOnly [id] (addSingleTestCase sha id testId body σ) := by
  unfold addSingleTestCase
  refine publishesOnly_check _ (publishesOnly_check _ ?_)
  split_ifs
  · exact publishesOnly_refuse _ _
  split
  · exact publishesOnly_refuse _ _
  refine publishesOnly_check _ (publishesOnly_change List.mem_cons_self fun σ₁ => ?_)
  exact publishesOnly_attempt fun _ => publishesOnly_refuse _ _

lemma updateSingleTestCase_published (ordinal : List Char) (body : SingleTestBody) :
    PublishesOnly [id] (updateSingleTestCase sha id ordinal body σ) := by
  unfold updateSingleTestCase
  split
  · exact publishesOnly_refuse _ _
  · refine publishesOnly_check _ (publishesOnly_check _ ?_)
    exact publishesOnly_change List.mem_cons_self fun _ => publishesOnly_refuse _ _

lemma deleteTest_published (ord : ℤ) (scan₁ scan₂ : Sql.Scan) :
    PublishesOnly [id] (deleteTest sha id ord scan₁ scan₂ σ) :=
  publishesOnly_change List.mem_cons_self fun _ => publishesOnly_refuse _ _

lemma deleteSingleTestCase_published (ordinal : List Char) (scan₁ scan₂ : Sql.Scan) :
    PublishesOnly [id] (deleteSingleTestCase sha id ordinal scan₁ scan₂ σ) := by
  unfold deleteSingleTestCase
  split
  · exact publishesOnly_refuse _ _
  split_ifs
  · refine publishesOnly_attempt fun σ₁ => ?_
    split_ifs
    · exact publishesOnly_refuse _ _
    · exact deleteTest_published _ scan₁ scan₂
  · exact deleteTest_published _ scan₁ scan₂

lemma updateTestPoints_published (payload : PointsPayload) :
    PublishesOnly [id] (updateTestPoints sha id payload σ) := by
  unfold updateTestPoints
  split
  · exact publishesOnly_refuse _ _
  split_ifs
  · exact publishesOnly_refuse _ _
  refine publishesOnly_check _ ?_
  dsimp only
  split_ifs
  · exact publishesOnly_refuse _ _
  · exact publishesOnly_change List.mem_cons_self fun _ => publishesOnly_refuse _ _

lemma createProblem_published (ids : ℕ → String) (req : ProblemPayload) :
    PublishesOnly [id] (createProblem sha id ids req σ) := by
  unfold createProblem
  dsimp only
  split
  · exact publishesOnly_refuse _ _
  split
  · exact publishesOnly_refuse _ _
  refine publishesOnly_check _ (publishesOnly_attempt fun σ₁ => ?_)
  split_ifs
  · exact publishesOnly_refuse _ _
  · exact publishesOnly_change List.mem_cons_self fun _ => publishesOnly_refuse _ _

/-- An update publishes with the tests that it saves. -/
lemma saveProblem_published (ids : ℕ → String) (req : ProblemPayload) :
    PublishesOnly (Request.updateProblem id ids req).published (saveProblem sha id ids req σ) := by
  refine publishesOnly_attempt fun σ₁ => ?_
  split
  · exact publishesOnly_refuse _ _
  · next tests htests =>
    exact publishesOnly_change (by simp [Request.published, htests]) fun _ => publishesOnly_refuse _ _

lemma updateProblem_published (ids : ℕ → String) (req : ProblemPayload) :
    PublishesOnly (Request.updateProblem id ids req).published (updateProblem sha id ids req σ) := by
  unfold updateProblem
  split
  · exact publishesOnly_refuse _ _
  split
  · split
    · exact publishesOnly_refuse _ _
    · exact publishesOnly_check _ (saveProblem_published ids req)
  split
  · refine publishesOnly_attempt fun σ₁ => ?_
    split_ifs
    · exact publishesOnly_refuse _ _
    · exact saveProblem_published ids req
  · exact saveProblem_published ids req

lemma setProblemPublished_published (published : Bool) :
    PublishesOnly [] (setProblemPublished sha id published σ) := by
  unfold setProblemPublished
  split_ifs
  · exact publishesOnly_refuse _ _
  · exact publishesOnly_attempt fun _ => publishesOnly_refuse _ _

/-- A request publishes the id that it is about, or nothing. -/
theorem handle_published (r : Request) : PublishesOnly r.published (r.handle sha σ) := by
  cases r with
  | replaceTestCases id ids tests => exact replaceTestCases_published ids tests
  | getAdminProblemTests id => exact publishesOnly_attempt fun _ => publishesOnly_refuse _ _
  | addSingleTestCase id testId body => exact addSingleTestCase_published testId body
  | updateSingleTestCase id ordinal body => exact updateSingleTestCase_published ordinal body
  | deleteSingleTestCase id ordinal scan₁ scan₂ => exact deleteSingleTestCase_published ordinal scan₁ scan₂
  | updateTestPoints id payload => exact updateTestPoints_published payload
  | createProblem id ids req => exact createProblem_published ids req
  | updateProblem id ids req => exact updateProblem_published ids req
  | setProblemPublished id published => exact setProblemPublished_published published
  | deleteProblem id => exact publishesOnly_change List.mem_cons_self fun _ => publishesOnly_refuse _ _

end Problem

end Labyrithm
