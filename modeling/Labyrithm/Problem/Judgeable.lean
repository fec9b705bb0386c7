import Labyrithm.Problem.Outages

/-!
# Published problems can be judged

Whether every published problem has the least number of tests, `minEvaluationTestCases`, after any
requests to the admin API, over a store that fails wherever it likes.  The number is looked at when a
problem is created, updated or published, and when a test is deleted; not when the suite is replaced,
and not by a deletion that cannot read the problem.  A problem is saved with its flag before its tests
are, so that a request that stops in between leaves the flag without the tests.

* `ProblemRow.Judgeable`, `Store.Judgeable` — what is wanted of a problem, and of all of them.
* `Request.Spares` — what the requests need that do not see to it themselves.
* **`judgeable_iff`** — a request keeps it so if and only if it meets this condition.
* **`published_judgeable`** — and so it is after any run of requests that do.
-/

namespace Labyrithm

namespace Problem

/-- A problem has enough tests if it is published. -/
def ProblemRow.Judgeable (p : ProblemRow) : Prop :=
  p.published → minEvaluationTestCases ≤ p.tests.length

instance (p : ProblemRow) : Decidable p.Judgeable := inferInstanceAs (Decidable (_ → _))

def Store.Judgeable (σ : Store) : Prop := ∀ id p, σ.lookup id = some p → p.Judgeable

/-- So it is but for one problem. -/
def Store.JudgeableBut (id : String) (σ : Store) : Prop :=
  ∀ q p, q ≠ id → σ.lookup q = some p → p.Judgeable

/-- One request after the other, each with what fails in it. -/
def serve (sha : List UInt8 → String) : Request × Outage → Store → Option Store
  | (r, down), σ => some (σ.after sha (r.handleIn down sha σ))

/-! ## Requests that do harm -/

section Conditions

variable (down : Outage) (sha : List UInt8 → String)

/-- `replaceTestCases` leaves a published problem with too few tests. -/
def Shrinks (id : String) (tests : List TestCaseDTO) (σ : Store) : Prop :=
  ∃ p ∈ σ.lookup id, p.published ∧ tests.length < minEvaluationTestCases ∧ tests ≠ [] ∧
    tests.findSome? checkTestCase = none ∧
    ((σ.getByID down id).bind fun p => validateTestsAgainstSamples p.samples tests) = none ∧
    down.fails .edit = false ∧
    ProblemRow.Accepted sha p.maxScore (tests.map TestCaseDTO.toInput)

/-- The tests of a payload are not saved. -/
def Unsaved (req : ProblemPayload) (tests : List TestCaseDTO) : Prop :=
  down.fails .edit = true ∨
    ¬ ProblemRow.Accepted sha (ProblemRow.newScore req.toInput) (numberTests tests)

/-- `createProblem` makes the problem, and stops before its tests are saved. -/
def CreatesHalf (id : String) (req : ProblemPayload) (σ : Store) : Prop :=
  validateSlug req.trimmedSlug = true ∧
    ¬ (req.published ∧ (req.tests.getD []).length < minEvaluationTestCases) ∧
    validateTestsAgainstSamples req.samples (req.tests.getD []) = none ∧
    down.fails .create = false ∧ σ.slugTaken (.create req.toInput) = false ∧ σ.lookup id = none ∧
    req.tests.getD [] ≠ [] ∧ Unsaved down sha req (req.tests.getD [])

/-- `updateProblem` with the tests of the payload writes the problem `p`, and stops before they are
saved. -/
def UpdatesHalf (req : ProblemPayload) (tests : List TestCaseDTO) : Prop :=
  ¬ (req.trimmedSlug ≠ [] ∧ !validateSlug req.trimmedSlug) ∧
    ¬ (req.published ∧ tests.length < minEvaluationTestCases) ∧
    validateTestsAgainstSamples req.samples tests = none ∧
    down.fails .update = false ∧ Unsaved down sha req tests

/-- `deleteSingleTestCase` deletes a test that is needed, unchecked. -/
def DeletesUnchecked (id : String) (ordinal : List Char) (σ : Store) : Prop :=
  ∃ ord ∈ ordinalParam ordinal, ∃ p ∈ σ.lookup id, p.published ∧
    p.tests.length ≤ minEvaluationTestCases ∧ ord ∈ p.ordinals ∧
    (down.fails .getByID = true ∨ down.fails .getTestMetadata = true) ∧ down.fails .edit = false

/-- The request does not stop half-way with a flag that the tests are too few for, does not shrink a
suite, and does not delete unchecked. -/
def Request.Spares : Request → Store → Prop
  | .replaceTestCases id _ tests, σ => ¬ Shrinks down sha id tests σ
  | .createProblem id _ req, σ => ¬ (req.published ∧ CreatesHalf down sha id req σ)
  | .updateProblem id _ req, σ => ¬ ∃ tests ∈ req.tests, ∃ p ∈ σ.lookup id,
      req.published ∧ p.tests.length < minEvaluationTestCases ∧ UpdatesHalf down sha req tests
  | .deleteSingleTestCase id ordinal _ _, σ => ¬ DeletesUnchecked down id ordinal σ
  | _, _ => True

instance (id : String) (tests : List TestCaseDTO) (σ : Store) : Decidable (Shrinks down sha id tests σ) := by
  unfold Shrinks
  infer_instance

instance (req : ProblemPayload) (tests : List TestCaseDTO) : Decidable (Unsaved down sha req tests) :=
  inferInstanceAs (Decidable (_ ∨ _))

instance (id : String) (req : ProblemPayload) (σ : Store) : Decidable (CreatesHalf down sha id req σ) :=
  inferInstanceAs (Decidable (_ ∧ _))

instance (req : ProblemPayload) (tests : List TestCaseDTO) : Decidable (UpdatesHalf down sha req tests) :=
  inferInstanceAs (Decidable (_ ∧ _))

instance (id : String) (ordinal : List Char) (σ : Store) :
    Decidable (DeletesUnchecked down id ordinal σ) := by
  unfold DeletesUnchecked
  infer_instance

instance (r : Request) (σ : Store) : Decidable (r.Spares down sha σ) := by
  cases r <;> unfold Request.Spares <;> infer_instance

end Conditions

/-- The condition on a step of a run. -/
def Spares (sha : List UInt8 → String) : Request × Outage → Store → Prop
  | (r, down), σ => r.Spares down sha σ

instance (sha : List UInt8 → String) (a : Request × Outage) (σ : Store) : Decidable (Spares sha a σ) :=
  inferInstanceAs (Decidable (a.1.Spares a.2 sha σ))

/-! ## The number of tests -/

/-- The call neither replaces the suite nor deletes a test. -/
def TestOp.KeepsTests : TestOp → Prop
  | .replaceTests .. | .deleteSingleTest .. => False
  | _ => True

namespace ProblemRow

variable {p p' : ProblemRow} {sha : List UInt8 → String}

/-- The flag is as it was, and there are no fewer tests. -/
def Grows (p p' : ProblemRow) : Prop := p'.published = p.published ∧ p.tests.length ≤ p'.tests.length

lemma Grows.judgeable (h : p.Grows p') (hp : p.Judgeable) : p'.Judgeable := by
  intro hpub
  exact (hp (h.1 ▸ hpub)).trans h.2

lemma grows_withPoints (points : List (ℤ × ℤ)) (p : ProblemRow) : p.Grows (p.withPoints points) :=
  ⟨rfl, length_withPoints.ge⟩

@[simp] lemma distributeProblemPoints_published (maxScore : ℤ) (p : ProblemRow) :
    (p.distributeProblemPoints maxScore).published = p.published := by
  unfold distributeProblemPoints
  split_ifs <;> rfl

lemma length_of_ordinals (h : p'.ordinals = p.ordinals) : p'.tests.length = p.tests.length := by
  rw [← length_ordinals, h, length_ordinals]

lemma replaceTests_length {ids : ℕ → String} {tests : List TestInput}
    (h : p.replaceTests sha ids tests = .ok p') :
    p'.published = p.published ∧ p'.tests.length = tests.length := by
  obtain ⟨-, rows, hrows, rfl⟩ := replaceTests_eq_ok h
  refine ⟨rfl, ?_⟩
  have hordinals := congrArg List.length (insertTests_ordinals hrows rfl)
  have hlen : (distributePoints tests p.maxScore).length = tests.length := by
    unfold distributePoints
    split_ifs <;> simp
  simpa [hlen] using hordinals

lemma updateTestPoints_grows {pointsMap : List (ℤ × ℤ)} (h : p.updateTestPoints pointsMap = .ok p') :
    p.Grows p' := by
  induction pointsMap generalizing p with
  | nil =>
      obtain rfl := Except.ok.inj h
      exact ⟨rfl, le_rfl⟩
  | cons e pointsMap ih =>
      simp only [updateTestPoints] at h
      split_ifs at h
      exact ⟨(ih h).1, (List.length_map ..).ge.trans (ih h).2⟩

lemma grows_of_run {op : TestOp} (hop : op.KeepsTests) (h : op.run sha p = .ok p') : p.Grows p' := by
  cases op with
  | replaceTests | deleteSingleTest => exact hop.elim
  | addSingleTest id input expected points =>
      obtain ⟨-, -, -, rfl⟩ := addSingleTest_eq_ok h
      split_ifs
      · have hordinals := distributeProblemPoints_ordinals p.maxScore
          (p := { p with tests := p.tests ++ [testRow sha id p.nextOrdinal input expected 0] })
        refine ⟨by simp, ?_⟩
        rw [length_of_ordinals hordinals]
        simp
      · exact ⟨rfl, by simp⟩
  | updateSingleTest ordinal input expected points =>
      have hlen := length_of_ordinals (updateSingleTest_ordinals h)
      obtain ⟨current, row, -, -, -, -, rfl⟩ := updateSingleTest_eq_ok h
      exact ⟨rfl, hlen.ge⟩
  | updateTestPoints pointsMap => exact updateTestPoints_grows h

lemma deleteSingleTest_length {scan₁ scan₂ : Sql.Scan} {ordinal : ℤ} (hp : p.Numbered)
    (h : p.deleteSingleTest scan₁ scan₂ ordinal = .ok p') :
    ordinal ∈ p.ordinals ∧ p'.published = p.published ∧ p'.tests.length = p.tests.length - 1 := by
  rw [deleteSingleTest_eq hp] at h
  split_ifs at h with hmem
  all_goals
    have hlen : (p.shifted scan₁ scan₂ ordinal).length = p.tests.length - 1 := by
      have hordinals : (p.shifted scan₁ scan₂ ordinal).map (·.ordinal) = oneTo (p.tests.length - 1) :=
        map_ordinal_shifted hp hmem
      simpa using congrArg List.length hordinals
    obtain rfl := Except.ok.inj h
  · refine ⟨hmem, by simp, ?_⟩
    rw [← hlen]
    exact length_of_ordinals (p := { p with tests := p.shifted scan₁ scan₂ ordinal })
      (distributeProblemPoints_ordinals _)
  · exact ⟨hmem, rfl, hlen⟩

end ProblemRow

/-! ## The parts of a handler -/

section Parts

variable {sha : List UInt8 → String} {down : Outage} {id : String} {call : Call} {σ σ' : Store}
  {next : Store → Outcome}

lemma judgeable_empty : Store.Judgeable ∅ := fun id p hp => by simp at hp

lemma Store.Judgeable.but (hσ : σ.Judgeable) (id : String) : σ.JudgeableBut id := fun q p _ => hσ q p

lemma Store.JudgeableBut.iff (hσ : σ.JudgeableBut id) :
    σ.Judgeable ↔ ∀ p ∈ σ.lookup id, p.Judgeable := by
  constructor
  · exact fun hall p hp => hall id p hp
  · intro hid q p hp
    by_cases hq : q = id
    · subst hq
      exact hid p hp
    · exact hσ q p hq hp

/-- A call leaves the others as they are. -/
lemma Store.JudgeableBut.after (hσ : σ.JudgeableBut id) (h : σ.call sha id call = .ok σ') :
    σ'.JudgeableBut id := by
  intro q p hq hp
  rw [Store.call_frame h hq] at hp
  exact hσ q p hq hp

/-- After a call, only its own problem matters. -/
lemma judgeable_call (hσ : σ.Judgeable) (h : σ.call sha id call = .ok σ') :
    σ'.Judgeable ↔ ∀ p ∈ σ'.lookup id, p.Judgeable := ((hσ.but id).after h).iff

lemma judgeable_check (hσ : σ.Judgeable) (text : Option String) (next : Outcome) :
    (σ.after sha (check text next)).Judgeable ↔
      (text = none → (σ.after sha next).Judgeable) := by
  rw [after_check]
  split_ifs with htext
  · simp [htext]
  · simp [htext, hσ]

lemma judgeable_attempt (hσ : σ.Judgeable) (onError : Err → Reply) :
    (σ.after sha (attempt sha id call onError σ next)).Judgeable ↔
      ∀ σ', σ.call sha id call = .ok σ' → (σ'.after sha (next σ')).Judgeable := by
  cases hcall : σ.call sha id call with
  | error err => simp [after_attempt_error onError hcall, hσ]
  | ok σ' => simp [after_attempt_ok onError hcall]

lemma judgeable_attemptIn (hσ : σ.Judgeable) (onError : Failure → Reply) :
    (σ.after sha (attemptIn down sha id call onError σ next)).Judgeable ↔
      (down.fails call.op = false → ∀ σ', σ.call sha id call = .ok σ' →
        (σ'.after sha (next σ')).Judgeable) := by
  cases hdown : down.fails call.op with
  | true => simp [after_attemptIn_down onError hdown, hσ]
  | false =>
      rw [after_attemptIn_up onError hdown, judgeable_attempt hσ]
      simp

/-- What an edit that is made makes of its problem. -/
lemma edit_some {op : TestOp} {p' : ProblemRow} (h : σ.call sha id (.edit op) = .ok σ')
    (hp' : σ'.lookup id = some p') : ∃ p, σ.lookup id = some p ∧ op.run sha p = .ok p' := by
  obtain ⟨input, hcreate, -⟩ | ⟨p, hp, hrun⟩ := Store.call_some h hp'
  · cases hcreate
  · refine ⟨p, hp, ?_⟩
    cases hop : op.run sha p with
    | error err => simp [Call.run, hop, Except.map] at hrun
    | ok row =>
        obtain rfl : row = p' := by simpa [Call.run, hop, Except.map] using hrun
        rfl

/-- An edit of a problem that is there. -/
lemma call_edit {op : TestOp} {p p' : ProblemRow} (hp : σ.lookup id = some p)
    (h : op.run sha p = .ok p') : σ.call sha id (.edit op) = .ok (σ.put id (some p')) :=
  call_of_run rfl (by simp [hp, Call.run, h, Except.map])

/-- An edit after which there are no fewer tests. -/
lemma judgeable_edit (hσ : σ.Judgeable) {op : TestOp} (h : σ.call sha id (.edit op) = .ok σ')
    (hop : op.KeepsTests) : σ'.Judgeable := by
  refine (judgeable_call hσ h).mpr fun p' hp' => ?_
  obtain ⟨p, hp, hrun⟩ := edit_some h hp'
  exact (ProblemRow.grows_of_run hop hrun).judgeable (hσ id p hp)

end Parts

/-! ## The handlers -/

section Handlers

variable {sha : List UInt8 → String} {down : Outage} {id : String} {σ : Store}

lemma replaceTestCasesIn_judgeable (hσ : σ.Judgeable) (ids : ℕ → String) (tests : List TestCaseDTO) :
    (σ.after sha (replaceTestCasesIn down sha id ids tests σ)).Judgeable ↔
      ¬ Shrinks down sha id tests σ := by
  unfold replaceTestCasesIn
  split_ifs with hnil
  · exact iff_of_true hσ fun ⟨_, _, _, _, hne, _⟩ => hne hnil
  rw [judgeable_check hσ, judgeable_check hσ, judgeable_attemptIn hσ]
  simp only [after_announce, after_refuse]
  constructor
  · rintro h ⟨p, hp, hpub, hshort, -, hvalid, hsample, hup, haccepted⟩
    obtain ⟨p', hp'⟩ := ProblemRow.replaceTests_of_accepted haccepted ids
    obtain ⟨hflag, hlen⟩ := ProblemRow.replaceTests_length hp'
    have hafter := h hvalid hsample hup _ (call_edit hp hp') id p' (by rw [lookup_put, if_pos rfl])
    have henough := hafter (hflag.trans hpub)
    rw [hlen, List.length_map] at henough
    exact absurd hshort (not_lt.mpr henough)
  · intro h hvalid hsample hup σ' hcall
    refine (judgeable_call hσ hcall).mpr fun p' hp' hpub => ?_
    obtain ⟨p, hp, hrun⟩ := edit_some hcall hp'
    obtain ⟨hflag, hlen⟩ := ProblemRow.replaceTests_length hrun
    rw [hlen, List.length_map]
    by_contra hshort
    exact h ⟨p, hp, hflag.symm.trans hpub, not_le.mp hshort, hnil, hvalid, hsample, hup,
      ProblemRow.accepted_of_replaceTests hrun⟩

/-- A suite replaces the one of a problem where it is accepted. -/
lemma call_replaceTests {p : ProblemRow} {tests : List TestInput} (hp : σ.lookup id = some p)
    (h : ProblemRow.Accepted sha p.maxScore tests) (ids : ℕ → String) :
    ∃ p', p.replaceTests sha ids tests = .ok p' ∧
      σ.call sha id (.edit (.replaceTests ids tests)) = .ok (σ.put id (some p')) := by
  obtain ⟨p', hp'⟩ := ProblemRow.replaceTests_of_accepted h ids
  exact ⟨p', hp', call_edit hp hp'⟩

lemma call_replaceTests_error {p : ProblemRow} {tests : List TestInput} (hp : σ.lookup id = some p)
    (h : ¬ ProblemRow.Accepted sha p.maxScore tests) (ids : ℕ → String) :
    ∃ err, σ.call sha id (.edit (.replaceTests ids tests)) = .error err := by
  cases hcall : σ.call sha id (.edit (.replaceTests ids tests)) with
  | error err => exact ⟨err, rfl⟩
  | ok σ' =>
      have hrow := Store.call_row hcall
      cases hrun : p.replaceTests sha ids tests with
      | error err => simp [hp, Call.run, TestOp.run, hrun, Except.map] at hrow
      | ok p' => exact absurd (ProblemRow.accepted_of_replaceTests hrun) h

/-- The tests of a payload replace the suite, or are not saved. -/
lemma saveTestsIn_judgeable {p : ProblemRow} {req : ProblemPayload} {tests : List TestCaseDTO}
    (hσ : σ.JudgeableBut id) (hp : σ.lookup id = some p)
    (hscore : p.maxScore = ProblemRow.newScore req.toInput) (ids : ℕ → String) (reply : Reply) :
    (σ.after sha (saveTestsIn down sha id ids tests σ (refuse reply))).Judgeable ↔
      (p.published → if Unsaved down sha req tests then minEvaluationTestCases ≤ p.tests.length
        else minEvaluationTestCases ≤ tests.length) := by
  have hkept : σ.Judgeable ↔ p.Judgeable := by simp [hσ.iff, hp]
  have hlen : (numberTests tests).length = tests.length := by simp [numberTests]
  unfold saveTestsIn
  cases hdown : down.fails .edit with
  | true =>
      rw [after_attemptIn_down _ hdown, hkept, if_pos (.inl hdown)]
      rfl
  | false =>
      rw [after_attemptIn_up _ hdown]
      by_cases haccepted : ProblemRow.Accepted sha p.maxScore (numberTests tests)
      · obtain ⟨p', hp', hcall⟩ := call_replaceTests hp haccepted ids
        obtain ⟨hflag, hcount⟩ := ProblemRow.replaceTests_length hp'
        have hsaved : ¬ Unsaved down sha req tests := by
          simp [Unsaved, hdown, ← hscore, haccepted]
        rw [after_attempt_ok _ hcall, after_announce, after_refuse, (hσ.after hcall).iff, lookup_put,
          if_pos rfl, if_neg hsaved]
        simp [ProblemRow.Judgeable, hflag, hcount, hlen]
      · obtain ⟨err, herror⟩ := call_replaceTests_error hp haccepted ids
        rw [after_attempt_error _ herror, hkept, if_pos (.inr (hscore ▸ haccepted))]
        rfl

/-- A problem is created where neither its id nor its slug is there. -/
lemma call_create_iff {input : CreateProblemInput} {σ' : Store} :
    σ.call sha id (.create input) = .ok σ' ↔
      σ.slugTaken (.create input) = false ∧ σ.lookup id = none ∧
        σ.put id (some (.create input)) = σ' := by
  unfold Store.call
  cases σ.slugTaken (.create input) with
  | true => simp
  | false => cases σ.lookup id <;> simp [Call.run, Except.map]

/-- A problem is updated where it is there. -/
lemma call_update_iff {input : CreateProblemInput} {σ' : Store} :
    σ.call sha id (.update input) = .ok σ' ↔
      ∃ p, σ.lookup id = some p ∧ σ.put id (some (p.update input)) = σ' := by
  cases hrow : σ.lookup id <;> simp [Store.call, Store.slugTaken, hrow, Call.run, Except.map]

/-- What comes after the creation, where a published problem has tests enough. -/
lemma saveCreated_judgeable (down : Outage) (hσ : σ.Judgeable) (ids : ℕ → String) {req : ProblemPayload} {σ' : Store}
    (hcall : σ.call sha id (.create req.toInput) = .ok σ')
    (henough : req.published → minEvaluationTestCases ≤ (req.tests.getD []).length) :
    (σ'.after sha (if req.tests.getD [] = [] then refuse (.problem 201 id)
      else saveTestsIn down sha id ids (req.tests.getD []) σ' (refuse (.problem 201 id)))).Judgeable ↔
      ¬ (req.published ∧ req.tests.getD [] ≠ [] ∧ Unsaved down sha req (req.tests.getD [])) := by
  have hrow : σ'.lookup id = some (.create req.toInput) := by
    obtain ⟨-, -, rfl⟩ := call_create_iff.mp hcall
    rw [lookup_put, if_pos rfl]
  split_ifs with hnil
  · rw [after_refuse, ((hσ.but id).after hcall).iff, hrow]
    refine iff_of_true (fun p hp hpub => ?_) fun ⟨_, hne, _⟩ => hne hnil
    obtain rfl := Option.some.inj hp
    have := henough hpub
    simp [hnil, minEvaluationTestCases] at this
  · rw [saveTestsIn_judgeable ((hσ.but id).after hcall) hrow rfl]
    have hpub : (ProblemRow.create req.toInput).published = req.published := rfl
    have htests : (ProblemRow.create req.toInput).tests = [] := rfl
    rw [hpub, htests]
    by_cases hunsaved : Unsaved down sha req (req.tests.getD [])
    · simp [hunsaved, hnil, minEvaluationTestCases]
    · simpa [hunsaved] using henough

lemma createProblemIn_judgeable (hσ : σ.Judgeable) (ids : ℕ → String) (req : ProblemPayload) :
    (σ.after sha (createProblemIn down sha id ids req σ)).Judgeable ↔
      ¬ (req.published ∧ CreatesHalf down sha id req σ) := by
  unfold createProblemIn
  dsimp only
  by_cases hslug : validateSlug req.trimmedSlug = true
  swap
  · rw [if_pos (by simp [hslug])]
    exact iff_of_true hσ fun ⟨_, h, _⟩ => hslug h
  by_cases hshort : req.published ∧ (req.tests.getD []).length < minEvaluationTestCases
  · rw [if_neg (by simp [hslug]), if_pos hshort]
    exact iff_of_true hσ fun ⟨_, _, h, _⟩ => h hshort
  rw [if_neg (by simp [hslug]), if_neg hshort, judgeable_check hσ, judgeable_attemptIn hσ]
  have hsave (σ' : Store) (hcall : σ.call sha id (.create req.toInput) = .ok σ') :=
    saveCreated_judgeable down hσ ids hcall fun hpub => not_lt.mp fun hlt => hshort ⟨hpub, hlt⟩
  constructor
  · rintro h ⟨hpub, -, -, hsample, hup, hfree, hnew, hne, hunsaved⟩
    have hcall : σ.call sha id (.create req.toInput) = .ok (σ.put id (some (.create req.toInput))) :=
      call_create_iff.mpr ⟨hfree, hnew, rfl⟩
    exact (hsave _ hcall).mp (h hsample hup _ hcall) ⟨hpub, hne, hunsaved⟩
  · intro h hsample hup σ' hcall
    obtain ⟨hfree, hnew, -⟩ := call_create_iff.mp hcall
    refine (hsave σ' hcall).mpr fun ⟨hpub, hne, hunsaved⟩ => ?_
    exact h ⟨hpub, hslug, hshort, hsample, hup, hfree, hnew, hne, hunsaved⟩

lemma length_update (input : CreateProblemInput) (p : ProblemRow) :
    (p.update input).published = input.published ∧ (p.update input).tests.length = p.tests.length := by
  rw [ProblemRow.update_eq]
  split_ifs
  · exact ⟨ProblemRow.distributeProblemPoints_published _ _, ProblemRow.length_of_ordinals
      (p := p.revised input) (ProblemRow.distributeProblemPoints_ordinals _)⟩
  · exact ⟨rfl, rfl⟩

/-- The end of `updateProblem`. -/
lemma saveProblemIn_judgeable (hσ : σ.Judgeable) (ids : ℕ → String) (req : ProblemPayload) :
    (σ.after sha (saveProblemIn down sha id ids req σ)).Judgeable ↔
      (down.fails .update = false → ∀ p ∈ σ.lookup id, req.published →
        minEvaluationTestCases ≤ match req.tests with
          | none => p.tests.length
          | some tests => if Unsaved down sha req tests then p.tests.length else tests.length) := by
  unfold saveProblemIn
  rw [judgeable_attemptIn hσ]
  refine imp_congr_right fun _ => ?_
  -- what comes after the update
  have hsave (p : ProblemRow) (σ' : Store) (hcall : σ.call sha id (.update req.toInput) = .ok σ')
      (hrow : σ'.lookup id = some (p.update req.toInput)) :
      (σ'.after sha (match req.tests with
        | none => refuse (.problem 200 id)
        | some tests => saveTestsIn down sha id ids tests σ' (refuse (.problem 200 id)))).Judgeable ↔
        (req.published → minEvaluationTestCases ≤ match req.tests with
          | none => p.tests.length
          | some tests => if Unsaved down sha req tests then p.tests.length else tests.length) := by
    obtain ⟨hflag, hlen⟩ := length_update req.toInput p
    have hbut := (hσ.but id).after hcall
    cases req.tests with
    | none =>
        rw [after_refuse, hbut.iff, hrow]
        simp only [Option.mem_def, Option.some.injEq, forall_eq', ProblemRow.Judgeable, hflag, hlen]
        rfl
    | some tests =>
        simp only
        rw [saveTestsIn_judgeable hbut hrow (maxScore_update _ _), hflag, hlen]
        split_ifs <;> rfl
  constructor
  · intro h p hp
    have hcall : σ.call sha id (.update req.toInput) = .ok (σ.put id (some (p.update req.toInput))) :=
      call_update_iff.mpr ⟨p, hp, rfl⟩
    exact (hsave p _ hcall (by rw [lookup_put, if_pos rfl])).mp (h _ hcall)
  · intro h σ' hcall
    obtain ⟨p, hp, rfl⟩ := call_update_iff.mp hcall
    exact (hsave p _ hcall (by rw [lookup_put, if_pos rfl])).mpr (h p hp)

/-- Reading the metadata of a suite leaves it as large as it was. -/
lemma judgeable_scoredIn (hσ : σ.Judgeable) : (σ.scoredIn down id).Judgeable := by
  intro q p' hp'
  rw [Store.scoredIn, lookup_put] at hp'
  split_ifs at hp' with hq
  · obtain ⟨p, hp, rfl⟩ := Option.map_eq_some_iff.mp hp'
    exact (ProblemRow.grows_withPoints _ p).judgeable (hσ id p hp)
  · exact hσ q p' hp'

lemma updateProblemIn_judgeable (hσ : σ.Judgeable) (hnumbered : σ.Numbered) (ids : ℕ → String)
    (req : ProblemPayload) :
    (σ.after sha (updateProblemIn down sha id ids req σ)).Judgeable ↔
      ¬ ∃ tests ∈ req.tests, ∃ p ∈ σ.lookup id, req.published ∧
        p.tests.length < minEvaluationTestCases ∧ UpdatesHalf down sha req tests := by
  unfold updateProblemIn
  by_cases hslug : req.trimmedSlug ≠ [] ∧ !validateSlug req.trimmedSlug
  · rw [if_pos hslug]
    refine iff_of_true hσ ?_
    rintro ⟨-, -, -, -, -, -, h, -⟩
    exact h hslug
  rw [if_neg hslug]
  cases htests : req.tests with
  | none =>
      refine iff_of_true ?_ (by simp)
      dsimp only
      split_ifs with hpub
      · rw [after_readMetadata hnumbered]
        split_ifs
        · exact hσ
        · exact judgeable_scoredIn hσ
        · rename_i henough
          refine (saveProblemIn_judgeable (judgeable_scoredIn hσ) ids req).mpr fun _ p' hp' _ => ?_
          rw [length_tests_scoredIn hp'] at henough
          simpa [htests] using henough
      · exact (saveProblemIn_judgeable hσ ids req).mpr fun _ _ _ h => absurd h hpub
  | some tests =>
      simp only [Option.mem_def, Option.some.injEq, exists_eq_left']
      by_cases hshort : req.published ∧ tests.length < minEvaluationTestCases
      · rw [if_pos hshort]
        refine iff_of_true hσ ?_
        rintro ⟨-, -, -, -, -, h, -⟩
        exact h hshort
      rw [if_neg hshort, judgeable_check hσ, saveProblemIn_judgeable hσ, htests]
      constructor
      · rintro h ⟨p, hp, hpub, hfew, -, -, hsample, hup, hunsaved⟩
        have henough := h hsample hup p hp hpub
        simp only [if_pos hunsaved] at henough
        exact absurd hfew (not_lt.mpr henough)
      · intro h hsample hup p hp hpub
        dsimp only
        split_ifs with hunsaved
        · by_contra hfew
          exact h ⟨p, hp, hpub, not_le.mp hfew, hslug, hshort, hsample, hup, hunsaved⟩
        · exact not_lt.mp fun hlt => hshort ⟨hpub, hlt⟩

lemma setProblemPublishedIn_judgeable (hσ : σ.Judgeable) (published : Bool) :
    (σ.after sha (setProblemPublishedIn down sha id published σ)).Judgeable := by
  unfold setProblemPublishedIn
  split_ifs with hfew
  · exact hσ
  refine (judgeable_attemptIn hσ _).mpr fun _ σ' hcall => ?_
  refine (judgeable_call hσ hcall).mpr fun p' hp' hpub => ?_
  obtain ⟨input, hcreate, -⟩ | ⟨p, hp, hrun⟩ := Store.call_some hcall hp'
  · cases hcreate
  · obtain rfl : p.setPublished published = p' := by simpa [Call.run] using hrun
    have hpub : published = true := hpub
    rw [not_and, not_or, Store.tests, hp] at hfew
    exact not_lt.mp (hfew hpub).2

/-- The end of `deleteSingleTestCase`. -/
lemma deleteTestIn_judgeable (hσ : σ.Judgeable) (hnumbered : σ.Numbered) (ord : ℤ)
    (scan₁ scan₂ : Sql.Scan) :
    (σ.after sha (deleteTestIn down sha id ord scan₁ scan₂ σ)).Judgeable ↔
      (down.fails .edit = false → ∀ p ∈ σ.lookup id, ord ∈ p.ordinals → p.published →
        minEvaluationTestCases < p.tests.length) := by
  unfold deleteTestIn
  rw [judgeable_attemptIn hσ]
  simp only [after_announce, after_refuse]
  refine imp_congr_right fun _ => ?_
  have hpos (p : ProblemRow) (hlt : minEvaluationTestCases ≤ p.tests.length - 1) :
      minEvaluationTestCases < p.tests.length := by
    unfold minEvaluationTestCases at hlt ⊢
    omega
  constructor
  · intro h p hp hmem hpub
    obtain ⟨p', hp'⟩ := ProblemRow.deleteSingleTest_of_mem (hnumbered id p hp) hmem scan₁ scan₂
    obtain ⟨-, hflag, hlen⟩ := ProblemRow.deleteSingleTest_length (hnumbered id p hp) hp'
    have hafter := h _ (call_edit hp hp') id p' (by rw [lookup_put, if_pos rfl]) (hflag.trans hpub)
    exact hpos p (hlen ▸ hafter)
  · intro h σ' hcall
    refine (judgeable_call hσ hcall).mpr fun p' hp' hpub => ?_
    obtain ⟨p, hp, hrun⟩ := edit_some hcall hp'
    obtain ⟨hmem, hflag, hlen⟩ := ProblemRow.deleteSingleTest_length (hnumbered id p hp) hrun
    have hlt := h p hp hmem (hflag.symm.trans hpub)
    omega

lemma deleteSingleTestCaseIn_judgeable (hσ : σ.Judgeable) (hnumbered : σ.Numbered)
    (ordinal : List Char) (scan₁ scan₂ : Sql.Scan) :
    (σ.after sha (deleteSingleTestCaseIn down sha id ordinal scan₁ scan₂ σ)).Judgeable ↔
      ¬ DeletesUnchecked down id ordinal σ := by
  unfold deleteSingleTestCaseIn DeletesUnchecked
  cases ordinalParam ordinal with
  | none => exact iff_of_true hσ (by simp)
  | some ord =>
      simp only [Option.mem_def, Option.some.injEq, exists_eq_left']
      -- the test is deleted without a look at the others
      have hunchecked (hfails : down.fails .getByID = true ∨ down.fails .getTestMetadata = true) :
          (σ.after sha (deleteTestIn down sha id ord scan₁ scan₂ σ)).Judgeable ↔
            ¬ ∃ p, σ.lookup id = some p ∧ p.published ∧ p.tests.length ≤ minEvaluationTestCases ∧
              ord ∈ p.ordinals ∧ (down.fails .getByID = true ∨ down.fails .getTestMetadata = true) ∧
              down.fails .edit = false := by
        rw [deleteTestIn_judgeable hσ hnumbered]
        constructor
        · rintro h ⟨p, hp, hpub, hfew, hmem, -, hup⟩
          exact absurd hfew (not_le.mpr (h hup p hp hmem hpub))
        · intro h hup p hp hmem hpub
          exact not_le.mp fun hfew => h ⟨p, hp, hpub, hfew, hmem, hfails, hup⟩
      cases hread : down.fails .getByID with
      | true =>
          have hnone : σ.getByID down id = none := if_pos hread
          rw [hnone, if_neg (by simp), hunchecked (.inl hread), hread]
      | false =>
          have hsome : σ.getByID down id = σ.lookup id := if_neg (by simp [hread])
          rw [hsome]
          split_ifs with hpub
          · rw [after_readMetadata hnumbered]
            cases hmetadata : down.fails .getTestMetadata with
            | true =>
                rw [if_pos rfl, hunchecked (.inr hmetadata)]
                simp [hread, hmetadata]
            | false =>
                simp only [Bool.false_eq_true, if_false, or_false, false_and, and_false, exists_false,
                  not_false_eq_true, iff_true]
                split_ifs with hfew
                · exact judgeable_scoredIn hσ
                · refine (deleteTestIn_judgeable (judgeable_scoredIn hσ) ?_ _ _ _).mpr ?_
                  · have hcall : σ.call sha id (metadataCall down (σ.lookup id)) = .ok (σ.scoredIn down id) :=
                      call_metadataCall hnumbered
                    exact hnumbered.after hcall
                  · intro _ p' hp' _ _
                    rw [length_tests_scoredIn hp'] at hfew
                    simpa using hfew
          · refine iff_of_true ((deleteTestIn_judgeable hσ hnumbered _ _ _).mpr ?_) ?_
            · exact fun _ p hp _ hp' => absurd (by simp [Option.mem_def.mp hp, hp']) hpub
            · rintro ⟨p, hp, hp', -⟩
              exact hpub (by simp [hp, hp'])

/-- Edits that cannot leave too few tests. -/
lemma addSingleTestCaseIn_judgeable (hσ : σ.Judgeable) (hnumbered : σ.Numbered) (testId : String)
    (body : SingleTestBody) :
    (σ.after sha (addSingleTestCaseIn down sha id testId body σ)).Judgeable := by
  unfold addSingleTestCaseIn
  dsimp only
  refine (judgeable_check hσ _ _).mpr fun _ => (judgeable_check hσ _ _).mpr fun _ => ?_
  split_ifs
  · exact hσ
  cases σ.getByID down id with
  | none => exact hσ
  | some p =>
      refine (judgeable_check hσ _ _).mpr fun _ => (judgeable_attemptIn hσ _).mpr fun _ σ₁ hcall => ?_
      have hσ₁ := judgeable_edit hσ hcall trivial
      rw [after_announce, after_readMetadata (hnumbered.after hcall)]
      split_ifs
      · exact hσ₁
      · exact judgeable_scoredIn hσ₁

lemma updateSingleTestCaseIn_judgeable (hσ : σ.Judgeable) (ordinal : List Char) (body : SingleTestBody) :
    (σ.after sha (updateSingleTestCaseIn down sha id ordinal body σ)).Judgeable := by
  unfold updateSingleTestCaseIn
  cases ordinalParam ordinal with
  | none => exact hσ
  | some ord =>
      dsimp only
      refine (judgeable_check hσ _ _).mpr fun _ => (judgeable_check hσ _ _).mpr fun _ => ?_
      exact (judgeable_attemptIn hσ _).mpr fun _ σ' hcall => judgeable_edit hσ hcall trivial

lemma updateTestPointsIn_judgeable (hσ : σ.Judgeable) (payload : PointsPayload) :
    (σ.after sha (updateTestPointsIn down sha id payload σ)).Judgeable := by
  unfold updateTestPointsIn
  cases σ.getByID down id with
  | none => exact hσ
  | some p =>
      dsimp only
      split_ifs
      · exact hσ
      · exact (judgeable_check hσ _ _).mpr fun _ => hσ
      · refine (judgeable_check hσ _ _).mpr fun _ => ?_
        exact (judgeable_attemptIn hσ _).mpr fun _ σ' hcall => judgeable_edit hσ hcall trivial

lemma deleteProblemIn_judgeable (hσ : σ.Judgeable) :
    (σ.after sha (deleteProblemIn down sha id σ)).Judgeable := by
  refine (judgeable_attemptIn hσ _).mpr fun _ σ' hcall => (judgeable_call hσ hcall).mpr ?_
  intro p' hp'
  have hrow := Store.call_row hcall
  rw [hp'] at hrow
  cases hp : σ.lookup id <;> simp [hp, Call.run] at hrow

end Handlers

/-! ## Requests -/

variable {sha : List UInt8 → String} {σ : Store}

/-- **A request leaves the published problems with enough tests if and only if it spares them.** -/
theorem judgeable_iff (hσ : σ.Judgeable) (hnumbered : σ.Numbered) (r : Request) (down : Outage) :
    (σ.after sha (r.handleIn down sha σ)).Judgeable ↔ r.Spares down sha σ := by
  cases r with
  | replaceTestCases id ids tests => exact replaceTestCasesIn_judgeable hσ ids tests
  | getAdminProblemTests id =>
      refine iff_of_true ?_ trivial
      rw [Request.handleIn, getAdminProblemTestsIn, after_readMetadata hnumbered]
      split_ifs
      · exact hσ
      · exact judgeable_scoredIn hσ
  | addSingleTestCase id testId body =>
      exact iff_of_true (addSingleTestCaseIn_judgeable hσ hnumbered testId body) trivial
  | updateSingleTestCase id ordinal body =>
      exact iff_of_true (updateSingleTestCaseIn_judgeable hσ ordinal body) trivial
  | deleteSingleTestCase id ordinal scan₁ scan₂ =>
      exact deleteSingleTestCaseIn_judgeable hσ hnumbered ordinal scan₁ scan₂
  | updateTestPoints id payload => exact iff_of_true (updateTestPointsIn_judgeable hσ payload) trivial
  | createProblem id ids req => exact createProblemIn_judgeable hσ ids req
  | updateProblem id ids req => exact updateProblemIn_judgeable hσ hnumbered ids req
  | setProblemPublished id published =>
      exact iff_of_true (setProblemPublishedIn_judgeable hσ published) trivial
  | deleteProblem id => exact iff_of_true (deleteProblemIn_judgeable hσ) trivial

/-- Requests leave the suites numbered. -/
lemma numbered_after (h : σ.Numbered) (o : Outcome) : (σ.after sha o).Numbered := by
  obtain ⟨reply, effects⟩ := o
  induction effects generalizing σ with
  | nil => exact h
  | cons e effects ih =>
      have hnext : (σ.apply sha e).Numbered := by
        cases e with
        | invalidate id => exact h
        | commit id call =>
            simp only [Store.apply]
            cases hcall : σ.call sha id call with
            | error err => exact h
            | ok σ' => exact h.after hcall
      exact ih hnext

/-- **Published problems can be judged.**  In every run of requests, whatever fails in them, that each
spare the published problems, every published problem has enough tests; and the first request that does
not spare them leaves one with too few. -/
theorem published_judgeable (h : Go.ReachIf (serve sha) (Spares sha) ∅ σ) :
    σ.Judgeable ∧ ∀ (r : Request) (down : Outage), (σ.after sha (r.handleIn down sha σ)).Judgeable ↔
      r.Spares down sha σ := by
  have hempty : Store.Numbered ∅ := fun id p hp => by simp at hp
  have hinv : σ.Judgeable ∧ σ.Numbered := by
    refine h.invariant (P := fun σ => σ.Judgeable ∧ σ.Numbered) ⟨judgeable_empty, hempty⟩ ?_
    intro a σ σ' hσ hok hs
    obtain rfl := Option.some.inj hs
    exact ⟨(judgeable_iff hσ.1 hσ.2 a.1 a.2).mpr hok, numbered_after hσ.2 _⟩
  exact ⟨hinv.1, judgeable_iff hinv.1 hinv.2⟩

/-! ## A suite that shrinks, and one that is not saved -/

/-- A test with its own input, for no points or some. -/
def sampleTest (n : UInt8) (points : ℤ) : TestCaseDTO := ⟨1, [n], [n], points⟩

/-- A published problem with five tests, worth 100. -/
def samplePublished (points : ℤ) : ProblemPayload :=
  { sampleProblem with
    published := true
    tests := some [sampleTest 49 points, sampleTest 50 points, sampleTest 51 points,
      sampleTest 52 points, sampleTest 53 points] }

/-- The problem is created, and a test that is not to be deleted is not. -/
def sampleJudgeable : List (Request × Outage) :=
  [(.createProblem "p" Nat.repr (samplePublished 20), up),
    (.deleteSingleTestCase "p" ['1'] .forward .forward, up)]

/-- Its suite is replaced by one test. -/
def sampleShrunk : List (Request × Outage) :=
  [(.createProblem "p" Nat.repr (samplePublished 20), up),
    (.replaceTestCases "p" Nat.repr [sampleTest 49 100], up)]

/-- The points do not add up to the score. -/
def sampleUnsaved : List (Request × Outage) :=
  [(.createProblem "p" Nat.repr (samplePublished 1), up)]

theorem published_judgeable_sample :
    (Go.runIf (serve sampleSha) (Spares sampleSha) sampleJudgeable ∅).isSome ∧
      ((Go.runIf (serve sampleSha) (Spares sampleSha) sampleJudgeable ∅).getD ∅).Judgeable :=
  ⟨by decide +kernel, (published_judgeable (Go.ReachIf.runIf_getD sampleJudgeable)).1⟩

/-- One request replaces the suite by a single test, and another is answered with an error and leaves
no tests at all. -/
theorem published_short :
    (∃ σ, Go.run (serve sampleSha) sampleShrunk ∅ = some σ ∧ ¬ σ.Judgeable) ∧
      ∃ σ, Go.run (serve sampleSha) sampleUnsaved ∅ = some σ ∧ ¬ σ.Judgeable := by
  have hshort (as : List (Request × Outage)) (h : (Go.run (serve sampleSha) as ∅).any fun σ =>
      (σ.lookup "p").any fun p => !decide p.Judgeable) :
      ∃ σ, Go.run (serve sampleSha) as ∅ = some σ ∧ ¬ σ.Judgeable := by
    obtain ⟨σ, hσ, hany⟩ := Option.any_eq_true _ _ |>.mp h
    obtain ⟨p, hp, hnot⟩ := Option.any_eq_true _ _ |>.mp hany
    exact ⟨σ, hσ, fun hall => by simp [hall "p" p hp] at hnot⟩
  exact ⟨hshort _ (by decide +kernel), hshort _ (by decide +kernel)⟩

end Problem

end Labyrithm
