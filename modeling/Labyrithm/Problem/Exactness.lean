import Labyrithm.Problem.Announcements
import Labyrithm.Problem.Judgeable
import Labyrithm.Problem.SingleTests
import Labyrithm.Problem.Suite

/-!
# Points in 32 bits

`AddSingleTest` and `updateTestPoints` add up the points of a suite in an `int32`, and a form has its
points read by `strconv.Atoi` and converted to one.  What the sums and the numbers come to exactly is
compared with that here.

* `currentSum_eq`, `foldl_int32_eq` — the sums, which are exact but for multiples of `2 ^ 32`.
* `added_of_accepts` — what an added test leaves in the store.

**`points_exact_iff`** — points are added within the score, a map of points is worth the score and points of a
form are stored as they are, unless a sum wraps around into the score or the text is no number that an
`int32` holds or turns negative.
-/

namespace Labyrithm

namespace Problem

/-! ## Sums -/

@[simp] lemma int32_zero : int32 0 = 0 := rfl

lemma int32_int32_add (a n : ℤ) : int32 (int32 a + n) = int32 (a + n) := Int.bmod_add_bmod

lemma fitsInt32_int32 (n : ℤ) : FitsInt32 (int32 n) := by
  have hlow := Int.le_bmod (x := n) (m := 2 ^ 32) (by decide)
  have hhigh := Int.bmod_lt (x := n) (m := 2 ^ 32) (by decide)
  exact ⟨by simpa [int32] using hlow, by simpa [int32] using hhigh⟩

/-- A sum in an `int32` is the sum in 32 bits. -/
lemma foldl_int32_eq (a : ℤ) (ns : List ℤ) :
    ns.foldl (fun sum n => int32 (sum + n)) (int32 a) = int32 (a + ns.sum) := by
  induction ns generalizing a with
  | nil => rw [List.foldl_nil, List.sum_nil, add_zero]
  | cons n ns ih => rw [List.foldl_cons, int32_int32_add, ih, List.sum_cons, add_assoc]

namespace ProblemRow

variable {p p' : ProblemRow} {sha : List UInt8 → String} {id : String} {input expected : List UInt8}
  {points : ℤ}

lemma currentSum_eq (p : ProblemRow) : p.currentSum = int32 p.points.sum := by
  have hsum := foldl_int32_eq 0 p.points
  rwa [int32_zero, zero_add] at hsum

/-- No test has the next ordinal. -/
lemma ordinal_ne_next {t : TestRow} (ht : t ∈ p.tests) : t.ordinal ≠ p.nextOrdinal := by
  intro heq
  have hmem : t.ordinal ∈ p.ordinals := List.mem_map_of_mem ht
  cases hmax : p.ordinals.max? with
  | none =>
      rw [List.max?_eq_none_iff.mp hmax] at hmem
      cases hmem
  | some m =>
      have hle : t.ordinal ≤ m := (List.max?_eq_some_iff.mp hmax).2 _ hmem
      rw [heq, nextOrdinal, hmax, Option.getD_some] at hle
      omega

/-- What a new test has to meet. -/
lemma addSingleTest_isOk_iff :
    (∃ p', p.addSingleTest sha id input expected points = .ok p') ↔
      0 ≤ points ∧ (0 < points → int32 (p.points.sum + points) ≤ p.maxScore)
        ∧ p.findIdentical (sha input) (sha expected) none = none := by
  rw [← int32_int32_add, ← currentSum_eq]
  constructor
  · rintro ⟨p', h⟩
    obtain ⟨hpos, hroom, hnone, -⟩ := addSingleTest_eq_ok h
    exact ⟨hpos, hroom, hnone⟩
  · rintro ⟨hpos, hroom, hnone⟩
    have hinsert (pts : ℤ) : insertTest (testRow sha id p.nextOrdinal input expected pts) p.tests
        = .ok (p.tests ++ [testRow sha id p.nextOrdinal input expected pts]) := by
      refine if_neg ?_
      rw [List.any_eq_true]
      rintro ⟨t, ht, heq⟩
      exact ordinal_ne_next ht (of_decide_eq_true heq)
    have hover : ¬ ((!p.shouldAutoDistribute points) = true ∧ points > 0 ∧
        int32 (p.currentSum + points) > p.maxScore) :=
      fun ⟨_, hgt, hsum⟩ => absurd (hroom hgt) (not_le.mpr hsum)
    rw [addSingleTest, if_neg (not_lt.mpr hpos), if_neg hover, hnone]
    by_cases hauto : p.shouldAutoDistribute points = true
    · simp [hauto, hinsert]
    · simp [hauto, hinsert]

/-- Points of its own do not have the score split evenly. -/
lemma shouldAutoDistribute_of_pos (h : 0 < points) : p.shouldAutoDistribute points = false := by
  rw [shouldAutoDistribute, decide_eq_false (not_le.mpr h), Bool.false_and]

/-- A test with points of its own is added only where all points are within the score. -/
def AddsWithin (sha : List UInt8 → String) (id : String) (input expected : List UInt8) (points : ℤ)
    (p : ProblemRow) : Prop :=
  0 < points → ∀ p', p.addSingleTest sha id input expected points = .ok p' →
    p.points.sum + points ≤ p.maxScore

/-- The points with a new test are beyond the score, and wrap around to within it. -/
def WrapsWithin (points : ℤ) (p : ProblemRow) : Prop :=
  p.maxScore < p.points.sum + points ∧ int32 (p.points.sum + points) ≤ p.maxScore

lemma addsWithin_iff :
    p.AddsWithin sha id input expected points ↔ ¬ (0 < points ∧ p.WrapsWithin points
      ∧ p.findIdentical (sha input) (sha expected) none = none) := by
  constructor
  · rintro h ⟨hpos, ⟨hbeyond, hwraps⟩, hnone⟩
    obtain ⟨p', hp'⟩ := addSingleTest_isOk_iff.mpr ⟨hpos.le, fun _ => hwraps, hnone⟩
    exact absurd (h hpos p' hp') (not_le.mpr hbeyond)
  · intro h hpos p' hp'
    obtain ⟨-, hroom, hnone⟩ := addSingleTest_isOk_iff.mp ⟨p', hp'⟩
    by_contra hbeyond
    exact h ⟨hpos, ⟨not_le.mp hbeyond, hroom hpos⟩, hnone⟩

end ProblemRow

/-! ## Maps of points -/

section Maps

variable {sha : List UInt8 → String} {id : String} {payload : PointsPayload} {σ : Store} {p : ProblemRow}

/-- What a map of points comes to. -/
def PointsPayload.sum (payload : PointsPayload) : ℤ := (payload.checked.map Prod.snd).sum

/-- The map has entries, all of them with an ordinal and points. -/
def PointsPayload.Valid (payload : PointsPayload) : Prop :=
  payload.checked ≠ [] ∧ ∀ e ∈ payload.checked, 1 ≤ e.1 ∧ 0 ≤ e.2

/-- A map is accepted only where it comes to the score. -/
def MapsExactly (sha : List UInt8 → String) (id : String) (payload : PointsPayload) (σ : Store) : Prop :=
  (updateTestPoints sha id payload σ).1 = .noContent →
    ∀ p, σ.lookup id = some p → payload.sum = p.maxScore

lemma checkPoints_eq_none {ord pts : ℤ} : checkPoints ord pts = none ↔ 1 ≤ ord ∧ 0 ≤ pts := by
  unfold checkPoints
  split_ifs with hord hpts
  · simp
    omega
  · simp
    omega
  · simp
    omega

lemma findSome?_checkPoints {l : List (ℤ × ℤ)} :
    l.findSome? (fun (ord, pts) => checkPoints ord pts) = none ↔ ∀ e ∈ l, 1 ≤ e.1 ∧ 0 ≤ e.2 := by
  rw [List.findSome?_eq_none_iff]
  exact forall₂_congr fun _ _ => checkPoints_eq_none

lemma foldl_payload (payload : PointsPayload) :
    payload.checked.foldl (fun sum (_, pts) => int32 (sum + pts)) 0 = int32 payload.sum := by
  have hsum := foldl_int32_eq 0 (payload.checked.map Prod.snd)
  rwa [int32_zero, zero_add, List.foldl_map] at hsum

/-- Points that are not negative are written. -/
lemma updateTestPoints_isOk {l : List (ℤ × ℤ)} (h : ∀ e ∈ l, 0 ≤ e.2) (p : ProblemRow) :
    ∃ p', p.updateTestPoints l = .ok p' := by
  induction l generalizing p with
  | nil => exact ⟨p, rfl⟩
  | cons e l ih =>
      obtain ⟨he, hl⟩ := List.forall_mem_cons.mp h
      rw [ProblemRow.updateTestPoints, if_neg (not_lt.mpr he)]
      exact ih hl (p.setPoints e.1 e.2)

/-- What a map has to meet. -/
lemma updateTestPoints_noContent_iff (hp : σ.lookup id = some p) :
    (updateTestPoints sha id payload σ).1 = .noContent
      ↔ payload.Valid ∧ int32 payload.sum = p.maxScore := by
  unfold updateTestPoints
  simp only [hp, foldl_payload]
  by_cases hempty : payload.checked = []
  · rw [if_pos hempty]
    exact iff_of_false (by simp [refuse, badRequest]) fun h => h.1.1 hempty
  rw [if_neg hempty]
  cases hcheck : payload.checked.findSome? (fun (ord, pts) => checkPoints ord pts) with
  | some text =>
      refine iff_of_false (by simp [check, refuse, badRequest]) fun h => ?_
      rw [findSome?_checkPoints.mpr h.1.2] at hcheck
      cases hcheck
  | none =>
      have hvalid := findSome?_checkPoints.mp hcheck
      by_cases hsum : int32 payload.sum = p.maxScore
      · obtain ⟨p', hp'⟩ := updateTestPoints_isOk (l := payload.written)
          (fun e he => (hvalid e (payload.perm.mem_iff.mp he)).2) p
        have hcall : σ.call sha id (.edit (.updateTestPoints payload.written)) = .ok (σ.put id (some p')) :=
          call_of_run rfl (by simp [hp, Call.run, TestOp.run, hp', Except.map])
        refine iff_of_true ?_ ⟨⟨hempty, hvalid⟩, hsum⟩
        simp [check, hsum, attempt, hcall, announce, refuse]
      · refine iff_of_false ?_ fun h => hsum h.2
        simp [check, hsum, refuse, badRequest]

lemma mapsExactly_iff :
    MapsExactly sha id payload σ ↔ ∀ p, σ.lookup id = some p → payload.Valid →
      int32 payload.sum = p.maxScore → payload.sum = p.maxScore := by
  constructor
  · intro h p hp hvalid hsum
    exact h ((updateTestPoints_noContent_iff hp).mpr ⟨hvalid, hsum⟩) p hp
  · intro h hreply p hp
    obtain ⟨hvalid, hsum⟩ := (updateTestPoints_noContent_iff hp).mp hreply
    exact h p hp hvalid hsum

end Maps

/-! ## A new test -/

/-- Nothing is against a new test: the row of the problem, before and after. -/
structure AcceptsNew (sha : List UInt8 → String) (id testId : String) (body : SingleTestBody)
    (σ : Store) (p p' : ProblemRow) : Prop where
  files : ∀ inputText expectedText, body.checkFiles inputText expectedText = none
  sizes : checkSizes (body.points.getD 0) body.given.1 body.given.2 = none
  nonempty : ¬ (body.given.1 = [] ∨ body.given.2 = [])
  problem : σ.lookup id = some p
  samples : identicalSample p.samples body.given.1 body.given.2 = none
  run : p.addSingleTest sha testId body.given.1 body.given.2 (body.points.getD 0) = .ok p'

section New

variable {sha : List UInt8 → String} {id testId : String} {body : SingleTestBody} {σ : Store}
  {p p' : ProblemRow}

lemma checkFiles_eq_none {a b : String} (h : body.checkFiles a b = none) (a' b' : String) :
    body.checkFiles a' b' = none := by
  cases body with
  | json test => rfl
  | form input expected points =>
      unfold SingleTestBody.checkFiles at h ⊢
      dsimp only at h ⊢
      split_ifs at h ⊢
      rfl

/-- What is accepted is added, and the reading of the metadata changes no points. -/
lemma added_of_accepts (h : AcceptsNew sha id testId body σ p p') :
    (addSingleTestCase sha id testId body σ).2 ≠ []
      ∧ (σ.after sha (addSingleTestCase sha id testId body σ)).tests id = p'.tests := by
  have hcall : σ.call sha id
      (.edit (.addSingleTest testId body.given.1 body.given.2 (body.points.getD 0)))
        = .ok (σ.put id (some p')) :=
    call_of_run rfl (by simp [h.problem, Call.run, TestOp.run, h.run, Except.map])
  have hlookup : (σ.put id (some p')).lookup id = some p' := by rw [lookup_put, if_pos rfl]
  have hmetadata : (σ.put id (some p')).call sha id .getTestMetadata
      = .ok ((σ.put id (some p')).put id (some p')) := by
    refine call_of_run rfl ?_
    rw [hlookup, Call.run, Option.map_some,
      ProblemRow.getTestMetadata_eq (ProblemRow.addSingleTest_not_unscored h.run)]
  unfold addSingleTestCase
  simp only [h.files, h.sizes, if_neg h.nonempty, h.problem, h.samples, check, Option.map_none]
  refine ⟨?_, ?_⟩
  · rw [attempt, hcall]
    exact List.cons_ne_nil _ _
  · rw [after_attempt_ok _ hcall, after_announce, after_attempt_ok _ hmetadata, after_refuse,
      tests_put_some]

/-- And nothing else. -/
lemma accepts_of_added (h : (addSingleTestCase sha id testId body σ).2 ≠ []) :
    ∃ p p', AcceptsNew sha id testId body σ p p' := by
  unfold addSingleTestCase at h
  dsimp only at h
  obtain ⟨hfiles, h⟩ := check_effects h
  obtain ⟨hsizes, h⟩ := check_effects h
  by_cases hempty : body.given.1 = [] ∨ body.given.2 = []
  · rw [if_pos hempty] at h
    exact absurd rfl h
  rw [if_neg hempty] at h
  cases hproblem : σ.lookup id with
  | none =>
      rw [hproblem] at h
      exact absurd rfl h
  | some p =>
      simp only [hproblem] at h
      obtain ⟨hsamples, h⟩ := check_effects h
      obtain ⟨row, hrun, -⟩ := attempt_edit_effects h
      cases hop : p.addSingleTest sha testId body.given.1 body.given.2 (body.points.getD 0) with
      | error err => simp [hproblem, Call.run, TestOp.run, hop, Except.map] at hrun
      | ok p' =>
          exact ⟨p, p', checkFiles_eq_none hfiles, hsizes, hempty, hproblem,
            Option.map_eq_none_iff.mp hsamples, hop⟩

end New

/-! ## Points of a form -/

/-- The points of an accepted form are the last test's; zero has an evenly split suite stay so. -/
def AddsAsSent (sha : List UInt8 → String) (text : List Char) : Prop :=
  ∀ id testId input expected σ,
    (addSingleTestCase sha id testId (.form input expected (some text)) σ).2 ≠ [] →
    ∃ n p row, Go.atoi text = some n ∧ σ.lookup id = some p
      ∧ ((σ.after sha (addSingleTestCase sha id testId (.form input expected (some text)) σ)).tests
        id).getLast? = some row
      ∧ (row.points = n ∨ n = 0 ∧ p.shouldAutoDistribute 0 = true)

/-- The points of an accepted form are those of the test it is about. -/
def UpdatesAsSent (sha : List UInt8 → String) (text : List Char) : Prop :=
  ∀ id ordinal input expected σ,
    (updateSingleTestCase sha id ordinal (.form input expected (some text)) σ).2 ≠ [] →
    ∃ n ord row, Go.atoi text = some n ∧ ordinalParam ordinal = some ord
      ∧ ((σ.after sha (updateSingleTestCase sha id ordinal (.form input expected (some text)) σ)).tests
        id).find? (·.ordinal = ord) = some row
      ∧ row.points = n

/-- The text is a number that an `int32` holds, or one that is negative as an `int32`. -/
def ExactText (text : List Char) : Prop :=
  ∃ n, Go.atoi text = some n ∧ (int32 n = n ∨ int32 n < 0)

section Forms

variable {sha : List UInt8 → String} {text : List Char} {n : ℤ} {input expected : Part}

lemma points_form (h : Go.atoi text = some n) :
    (SingleTestBody.form input expected (some text)).points = some (int32 n) := by
  show ((some text).bind Go.atoi).map int32 = some (int32 n)
  rw [Option.bind_some, h, Option.map_some]

lemma row_points_form (h : Go.atoi text = some n) (ord : ℤ) (current : TestRow) :
    ((SingleTestBody.form input expected (some text)).row sha ord current).points = int32 n := by
  show (SingleTestBody.form input expected (some text)).points.getD current.points = int32 n
  rw [points_form h, Option.getD_some]

lemma ExactText.addsAsSent (h : ExactText text) : AddsAsSent sha text := by
  obtain ⟨n, hn, hexact⟩ := h
  intro id testId input expected σ heffects
  obtain ⟨p, p', haccepts⟩ := accepts_of_added heffects
  rw [(added_of_accepts haccepts).2]
  have hrun := haccepts.run
  rw [points_form hn, Option.getD_some] at hrun
  obtain ⟨hpos, -, -, rfl⟩ := ProblemRow.addSingleTest_eq_ok hrun
  have hexact : int32 n = n := hexact.resolve_right (not_lt.mpr hpos)
  rw [hexact] at hpos ⊢
  by_cases hauto : p.shouldAutoDistribute n = true
  · have hzero : n = 0 := by
      by_contra hne
      rw [ProblemRow.shouldAutoDistribute_of_pos (lt_of_le_of_ne hpos (Ne.symm hne))] at hauto
      cases hauto
    subst hzero
    rw [if_pos hauto]
    have hlen := ProblemRow.length_of_ordinals (ProblemRow.distributeProblemPoints_ordinals
      (p := { p with tests := p.tests ++ [ProblemRow.testRow sha testId p.nextOrdinal
        (SingleTestBody.form input expected (some text)).given.1
        (SingleTestBody.form input expected (some text)).given.2 0] }) p.maxScore)
    cases hlast : (ProblemRow.distributeProblemPoints
        { p with tests := p.tests ++ [ProblemRow.testRow sha testId p.nextOrdinal
          (SingleTestBody.form input expected (some text)).given.1
          (SingleTestBody.form input expected (some text)).given.2 0] } p.maxScore).tests.getLast? with
    | none =>
        rw [List.getLast?_eq_none_iff.mp hlast] at hlen
        simp at hlen
    | some row => exact ⟨0, p, row, hn, haccepts.problem, rfl, .inr ⟨rfl, hauto⟩⟩
  · rw [if_neg hauto]
    exact ⟨n, p, _, hn, haccepts.problem, List.getLast?_concat, .inl rfl⟩

lemma ExactText.updatesAsSent (h : ExactText text) : UpdatesAsSent sha text := by
  obtain ⟨n, hn, hexact⟩ := h
  intro id ordinal input expected σ heffects
  obtain ⟨ord, p, current, haccepts⟩ := accepts_of_updated heffects
  have hpos := checkSizes_nonneg haccepts.sizes
  rw [points_form hn, Option.getD_some] at hpos
  have hexact : int32 n = n := hexact.resolve_right (not_lt.mpr hpos)
  refine ⟨n, ord, (SingleTestBody.form input expected (some text)).row sha ord current, hn,
    haccepts.param, ?_, ?_⟩
  · rw [(updated_of_accepts haccepts).2, tests_put_some]
    exact find_withTest haccepts.test rfl
  · rw [row_points_form hn, hexact]

/-- What an `int32` makes of a text, as `addSingleTestCase` has it. -/
def formPoints (text : List Char) : ℤ := ((Go.atoi text).map int32).getD 0

lemma formPoints_nonneg (h : ¬ ExactText text) : 0 ≤ formPoints text := by
  unfold formPoints
  cases htext : Go.atoi text with
  | none => exact le_rfl
  | some n => exact not_lt.mp fun hneg => h ⟨n, htext, .inr hneg⟩

lemma checkSizes_small {points : ℤ} (h : 0 ≤ points) : checkSizes points [49] [50] = none := by
  unfold checkSizes
  rw [if_neg (not_lt.mpr h), if_neg (by decide), if_neg (by decide), if_neg (by decide)]

/-- A problem without tests that is worth as much as can be. -/
def emptySuite : ProblemRow where
  slug := "two-sum"
  timeLimitMs := 1000
  memoryLimitMb := 64
  maxScore := 2147483647
  published := false
  samples := []
  tests := []

/-- Any other text is accepted for the first test of that problem, as another number. -/
lemma AddsAsSent.exactText (h : AddsAsSent sha text) : ExactText text := by
  by_contra hbad
  have hpos := formPoints_nonneg hbad
  have hpoints : (SingleTestBody.form (.value [49]) (.value [50]) (some text)).points.getD 0
      = formPoints text := rfl
  have hroom : 0 < formPoints text →
      int32 (emptySuite.points.sum + formPoints text) ≤ emptySuite.maxScore := by
    intro _
    obtain ⟨-, hlt⟩ := fitsInt32_int32 (emptySuite.points.sum + formPoints text)
    exact Int.lt_add_one_iff.mp hlt
  obtain ⟨p', hp'⟩ : ∃ p', emptySuite.addSingleTest sha "t" [49] [50] (formPoints text) = .ok p' :=
    ProblemRow.addSingleTest_isOk_iff.mpr ⟨hpos, hroom, rfl⟩
  have haccepts : AcceptsNew sha "p" "t" (.form (.value [49]) (.value [50]) (some text))
      (AList.singleton "p" emptySuite) emptySuite p' :=
    ⟨fun _ _ => rfl, hpoints ▸ checkSizes_small hpos, by simp [SingleTestBody.given, Part.bytes], rfl,
      rfl, hpoints ▸ hp'⟩
  obtain ⟨heffects, htests⟩ := added_of_accepts haccepts
  obtain ⟨n, p, row, hn, hp, hlast, hstored⟩ := h _ _ _ _ _ heffects
  rw [htests] at hlast
  have hvalue : formPoints text = int32 n := by
    rw [formPoints, hn]
    rfl
  have hne : int32 n ≠ n := fun heq => hbad ⟨n, hn, .inl heq⟩
  have hn0 : n ≠ 0 := fun hzero => hne (by rw [hzero, int32_zero])
  have hrow : row.points = n := hstored.resolve_right fun hzero => hn0 hzero.1
  obtain ⟨-, -, -, rfl⟩ := ProblemRow.addSingleTest_eq_ok hp'
  by_cases hauto : emptySuite.shouldAutoDistribute (formPoints text) = true
  · -- the test gets the whole score
    rw [if_pos hauto] at hlast
    obtain rfl := Option.some.inj hlast
    have hmax : n = 2147483647 := by
      rw [← hrow]
      simp [ProblemRow.testRow, emptySuite, share]
    exact hne (by rw [hmax]; rfl)
  · rw [if_neg hauto] at hlast
    obtain rfl := Option.some.inj hlast
    exact hne (hvalue.symm.trans hrow)

/-- A problem with one test. -/
def singleSuite (sha : List UInt8 → String) : ProblemRow :=
  { emptySuite with tests := [ProblemRow.testRow sha "t" 1 [49] [50] 0] }

lemma UpdatesAsSent.exactText (h : UpdatesAsSent sha text) : ExactText text := by
  by_contra hbad
  have hpos := formPoints_nonneg hbad
  have hpoints : (SingleTestBody.form .absent .absent (some text)).points.getD 0 = formPoints text := rfl
  have hsizes : checkSizes (formPoints text) [] [] = none := by
    unfold checkSizes
    rw [if_neg (not_lt.mpr hpos), if_neg (by decide), if_neg (by decide), if_neg (by decide)]
  have hone : ordinalParam ['1'] = some 1 := by decide
  have haccepts : Accepts sha "p" ['1'] (.form .absent .absent (some text))
      (AList.singleton "p" (singleSuite sha)) 1 (singleSuite sha)
      (ProblemRow.testRow sha "t" 1 [49] [50] 0) := by
    refine ⟨hone, rfl, hpoints ▸ hsizes, rfl, rfl, ?_⟩
    rw [ProblemRow.findIdentical_eq_none]
    intro t ht _ _
    obtain rfl := List.mem_singleton.mp ht
    rfl
  obtain ⟨heffects, hafter⟩ := updated_of_accepts haccepts
  obtain ⟨n, ord, row, hn, hparam, hfind, hrow⟩ := h "p" ['1'] .absent .absent _
    (heffects ▸ List.cons_ne_nil _ _)
  obtain rfl : 1 = ord := Option.some.inj (hone.symm.trans hparam)
  rw [hafter, tests_put_some, find_withTest haccepts.test rfl] at hfind
  obtain rfl := Option.some.inj hfind
  exact hbad ⟨n, hn, .inl ((row_points_form hn 1 _).symm.trans hrow)⟩

end Forms

/-! ## Points are exact -/

/-- **When the arithmetic on points is exact**: a test with points of its own is added unless the sum wraps
around to within the score, a map of points is accepted unless its sum wraps around to the score, and the
points of a form are stored as they are for the texts that an `int32` holds or turns negative. -/
theorem points_exact_iff (sha : List UInt8 → String) :
    (∀ p id input expected points, ProblemRow.AddsWithin sha id input expected points p ↔
        ¬ (0 < points ∧ p.WrapsWithin points
          ∧ p.findIdentical (sha input) (sha expected) none = none))
      ∧ (∀ id payload σ, MapsExactly sha id payload σ ↔ ∀ p, σ.lookup id = some p → payload.Valid →
        int32 payload.sum = p.maxScore → payload.sum = p.maxScore)
      ∧ ∀ text, AddsAsSent sha text ∧ UpdatesAsSent sha text ↔ ExactText text :=
  ⟨fun _ _ _ _ _ => ProblemRow.addsWithin_iff, fun _ _ _ => mapsExactly_iff,
    fun _ => ⟨fun h => h.1.exactText, fun h => ⟨h.addsAsSent, h.updatesAsSent⟩⟩⟩

/-- Points that come to the score but for `2 ^ 32`. -/
def wrappingPoints : PointsPayload where
  checked := [(1, 2147483647), (2, 2147483647), (3, 102)]
  written := [(1, 2147483647), (2, 2147483647), (3, 102)]
  nodup := by decide
  perm := by decide

/-- A problem worth 100 points, 60 of them given to a test: another one with `2 ^ 31 - 1` points is added,
the map is accepted, and `4294967396` is stored as 100. -/
theorem exact_wraps :
    ¬ ProblemRow.AddsWithin sampleSha "u" [51] [52] 2147483647
        { emptySuite with maxScore := 100, tests := [ProblemRow.testRow sampleSha "t" 1 [49] [50] 60] }
      ∧ ¬ MapsExactly sampleSha "p" wrappingPoints UpdateRequest.scoredSample
      ∧ ((UpdateRequest.scoredSample.after sampleSha (updateSingleTestCase sampleSha "p" ['1']
        (.form .absent .absent (some "4294967396".toList)) UpdateRequest.scoredSample)).tests "p").map
          (·.points) = [100]
      ∧ ¬ UpdatesAsSent sampleSha "4294967396".toList := by
  refine ⟨fun h => ?_, fun h => ?_, by decide +kernel, fun h => ?_⟩
  · have hle := h (by decide) _ rfl
    exact absurd hle (by decide)
  · have hsum := h (by decide +kernel) _ rfl
    exact absurd hsum (by decide)
  · obtain ⟨n, hn, hexact⟩ := h.exactText
    obtain rfl : 4294967396 = n := Option.some.inj ((by decide : Go.atoi "4294967396".toList
      = some 4294967396).symm.trans hn)
    exact absurd hexact (by decide)

end Problem

end Labyrithm
