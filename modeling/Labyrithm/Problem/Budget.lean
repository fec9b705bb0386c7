import Labyrithm.Problem.Handlers
import Labyrithm.Problem.Ordinals

/-!
# The points of a suite and the score of its problem

Whether the points of a problem's tests add up to no more than the problem is worth.  Six calls write
points or the score; a suite that is given whole is checked, a test that is added is checked with
integers of 32 bits, and the other writes are not checked against what is stored.

* `ProblemRow.Budgeted` — the invariant.
* `Call.WithinBudget` — what the calls that are not checked need.
* `Call.budgeted_iff` — a call that is accepted keeps the invariant if and only if it is within budget.
* **`points_within_score`** — if all calls are within budget, the points of every problem are, in every
  state of every run of the admin API.
* `points_beyond_score` — a test that is given more points than its problem is worth.
-/

namespace Labyrithm

namespace Problem

namespace ProblemRow

variable {p p' : ProblemRow} {sha : List UInt8 → String}

/-- The points of the tests add up to no more than the score. -/
structure Budgeted (p : ProblemRow) : Prop where
  score : 0 < p.maxScore
  fits : p.maxScore < 2 ^ 31
  numbered : p.Numbered
  nonneg : ∀ n ∈ p.points, 0 ≤ n
  sum_le : p.points.sum ≤ p.maxScore

/-- What the suite is worth with the given points for the tests that have some. -/
def worthWith (given : ℤ → Option ℤ) (p : ProblemRow) : ℤ :=
  (p.tests.map fun t => (given t.ordinal).getD t.points).sum

/-! ## Even splits -/

lemma sum_shares_le {maxScore : ℤ} (h : 0 ≤ maxScore) (n : ℕ) : (shares maxScore n).sum ≤ maxScore := by
  cases n with
  | zero => simpa [shares] using h
  | succ n => exact (sum_shares h n.succ_pos).le

lemma map_points_mapIdx (tests : List TestRow) (maxScore : ℤ) :
    (tests.mapIdx fun i t => { t with points := share maxScore tests.length i }).map (·.points) =
      shares maxScore tests.length := by
  refine List.ext_getElem (by simp) fun i _ _ => ?_
  simp [shares]

/-- A suite with its score split evenly is within budget. -/
lemma budgeted_of_shares {n : ℕ} (hscore : 0 < p.maxScore) (hfits : p.maxScore < 2 ^ 31)
    (hnumbered : p.Numbered) (hpoints : p.points = shares p.maxScore n) : p.Budgeted where
  score := hscore
  fits := hfits
  numbered := hnumbered
  nonneg := hpoints ▸ shares_nonneg hscore.le
  sum_le := hpoints ▸ sum_shares_le hscore.le n

lemma distributeProblemPoints_budgeted (hscore : 0 < p.maxScore) (hfits : p.maxScore < 2 ^ 31)
    (hnumbered : p.Numbered) : (p.distributeProblemPoints p.maxScore).Budgeted := by
  have hordinals := hnumbered.of_ordinals_eq (distributeProblemPoints_ordinals (p := p) p.maxScore)
  unfold distributeProblemPoints at hordinals ⊢
  rw [if_neg (not_le.mpr hscore)] at hordinals ⊢
  exact budgeted_of_shares hscore hfits hordinals (map_points_mapIdx _ _)

lemma getTestMetadata_budgeted (hp : p.Budgeted) : p.getTestMetadata.Budgeted := by
  unfold getTestMetadata
  split_ifs
  · exact budgeted_of_shares hp.score hp.fits (hp.numbered.of_ordinals_eq (map_ordinal_mapIdx _ _))
      (map_points_mapIdx _ _)
  · exact hp

/-! ## Edits -/

lemma insertTests_points {ids : ℕ → String} {ts : List TestInput} {i : ℕ}
    {seenHashes : List (String × ℕ)} {tests tests' : List TestRow}
    (h : insertTests sha ids ts i seenHashes tests = .ok tests') :
    tests'.map (·.points) = tests.map (·.points) ++ ts.map (·.points) := by
  induction ts generalizing i seenHashes tests with
  | nil =>
      obtain rfl := Except.ok.inj h
      simp
  | cons t ts ih =>
      simp only [insertTests] at h
      split at h
      · cases h
      split at h
      · cases h
      · rename_i inserted hinsert
        rw [ih h, insertTest_eq_ok hinsert]
        simp [testRow]

lemma replaceTests_budgeted {ids : ℕ → String} {tests : List TestInput} (hp : p.Budgeted)
    (h : p.replaceTests sha ids tests = .ok p') : p'.Budgeted := by
  have hnumbered := replaceTests_numbered h
  obtain ⟨hvalid, rows, hrows, rfl⟩ := replaceTests_eq_ok h
  have hpoints : rows.map (·.points) = (distributePoints tests p.maxScore).map (·.points) := by
    simpa using insertTests_points hrows
  cases tests with
  | nil =>
      have hnil : rows.map (·.points) = [] := by simpa [distributePoints] using hpoints
      exact ⟨hp.score, hp.fits, hnumbered, by simp [points, hnil], by simpa [points, hnil] using hp.score.le⟩
  | cons t ts =>
      obtain ⟨hsum, hnonneg⟩ := validated_sum hp.score hvalid (List.cons_ne_nil t ts)
      rw [← hpoints] at hsum hnonneg
      exact ⟨hp.score, hp.fits, hnumbered, hnonneg, hsum.le⟩

/-- Points that are not negative and add up to less than `2 ^ 31` are added up right. -/
lemma foldl_int32 {ns : List ℤ} {sum : ℤ} (hsum : 0 ≤ sum) (hns : ∀ n ∈ ns, 0 ≤ n)
    (hfits : sum + ns.sum < 2 ^ 31) : ns.foldl (fun sum n => int32 (sum + n)) sum = sum + ns.sum := by
  induction ns generalizing sum with
  | nil => simp
  | cons n ns ih =>
      obtain ⟨hn, hrest⟩ := List.forall_mem_cons.mp hns
      have hnonneg := List.sum_nonneg hrest
      rw [List.sum_cons] at hfits
      have hnext : int32 (sum + n) = sum + n := int32_of_fits ⟨by omega, by omega⟩
      rw [List.foldl_cons, hnext, ih (by omega) hrest (by omega), List.sum_cons, add_assoc]

lemma Budgeted.currentSum_eq (hp : p.Budgeted) : p.currentSum = p.points.sum := by
  have hle := hp.sum_le
  have hfits := hp.fits
  have hsum : p.currentSum = 0 + p.points.sum := foldl_int32 le_rfl hp.nonneg (by omega)
  rwa [zero_add] at hsum

/-- What is added is checked, unless the sum is too large for 32 bits. -/
lemma addSingleTest_budgeted_iff {id : String} {input expected : List UInt8} {points : ℤ}
    (hp : p.Budgeted) (h : p.addSingleTest sha id input expected points = .ok p') :
    p'.Budgeted ↔ p.points.sum + points < 2 ^ 31 := by
  have hnumbered := addSingleTest_numbered hp.numbered h
  obtain ⟨hpos, hroom, -, rfl⟩ := addSingleTest_eq_ok h
  have hle := hp.sum_le
  have hfits := hp.fits
  have hnonneg := List.sum_nonneg hp.nonneg
  by_cases hauto : p.shouldAutoDistribute points = true
  · have hzero : points ≤ 0 := by
      simp only [shouldAutoDistribute, Bool.and_eq_true, decide_eq_true_eq] at hauto
      exact hauto.1
    rw [if_pos hauto] at hnumbered ⊢
    refine iff_of_true (distributeProblemPoints_budgeted hp.score hp.fits ?_) (by omega)
    exact hnumbered.of_ordinals_eq (distributeProblemPoints_ordinals _).symm
  · rw [if_neg hauto] at hnumbered ⊢
    set row := testRow sha id p.nextOrdinal input expected points
    have hpoints : ({ p with tests := p.tests ++ [row] } : ProblemRow).points = p.points ++ [points] := by
      simp [ProblemRow.points, row, testRow]
    have hsum : ({ p with tests := p.tests ++ [row] } : ProblemRow).points.sum = p.points.sum + points := by
      rw [hpoints, List.sum_append, List.sum_singleton]
    constructor
    · intro hp'
      have hle' := hp'.sum_le
      rw [hsum] at hle'
      exact hle'.trans_lt hfits
    · intro hlt
      refine ⟨hp.score, hp.fits, hnumbered, ?_, ?_⟩
      · rw [hpoints]
        simpa [or_imp, forall_and] using ⟨hp.nonneg, hpos⟩
      · rw [hsum]
        rcases hpos.eq_or_lt with hzero | hgt
        · simpa [← hzero] using hle
        · have hcheck := hroom hgt
          rw [hp.currentSum_eq, int32_of_fits ⟨by omega, hlt⟩] at hcheck
          exact hcheck

/-- A call that only writes points. -/
lemma budgeted_iff_of_worth {given : ℤ → Option ℤ} (hp : p.Budgeted) (hscore : p'.maxScore = p.maxScore)
    (hordinals : p'.ordinals = p.ordinals) (hgiven : ∀ o, ∀ n ∈ given o, 0 ≤ n)
    (hpoints : p'.points = p.tests.map fun t => (given t.ordinal).getD t.points) :
    p'.Budgeted ↔ p.worthWith given ≤ p.maxScore := by
  have hsum : p'.points.sum = p.worthWith given := by rw [hpoints, worthWith]
  constructor
  · intro hp'
    rw [← hsum, ← hscore]
    exact hp'.sum_le
  · intro hle
    refine ⟨hscore ▸ hp.score, hscore ▸ hp.fits, hp.numbered.of_ordinals_eq hordinals, ?_, ?_⟩
    · intro n hn
      rw [hpoints] at hn
      obtain ⟨t, ht, rfl⟩ := List.mem_map.mp hn
      cases hgot : given t.ordinal with
      | none => exact hp.nonneg _ (List.mem_map_of_mem ht)
      | some n => exact hgiven _ n hgot
    · rw [hsum, hscore]
      exact hle

/-- The points that are given to one test. -/
def onlyAt (ordinal : ℤ) (points : Option ℤ) (o : ℤ) : Option ℤ := if o = ordinal then points else none

lemma updateSingleTest_budgeted_iff {ordinal : ℤ} {input expected : Option (List UInt8)}
    {points : Option ℤ} (hp : p.Budgeted)
    (h : p.updateSingleTest sha ordinal input expected points = .ok p') :
    p'.Budgeted ↔ p.worthWith (onlyAt ordinal points) ≤ p.maxScore := by
  have hordinals := updateSingleTest_ordinals h
  obtain ⟨current, row, hcurrent, hpos, rfl, -, rfl⟩ := updateSingleTest_eq_ok h
  refine budgeted_iff_of_worth hp rfl hordinals (fun o n hn => ?_) ?_
  · unfold onlyAt at hn
    split_ifs at hn
    · exact hpos n hn
    · cases hn
  · simp only [ProblemRow.points, List.map_map]
    refine List.map_congr_left fun t ht => ?_
    simp only [Function.comp_apply, onlyAt]
    split_ifs with hord
    · have hmem := List.mem_of_find?_eq_some hcurrent
      have hsame : current.ordinal = ordinal := by simpa using List.find?_some hcurrent
      rw [hp.numbered.inj ht hmem (hord.trans hsame.symm)]
      rfl
    · rfl

/-- The points that the entries of a map give to an ordinal. -/
def given : List (ℤ × ℤ) → ℤ → Option ℤ
  | [], _ => none
  | (ord, pts) :: pointsMap, o => (given pointsMap o).or (if o = ord then some pts else none)

lemma updateTestPoints_eq_ok {pointsMap : List (ℤ × ℤ)} (h : p.updateTestPoints pointsMap = .ok p') :
    p'.maxScore = p.maxScore ∧ (∀ o, ∀ n ∈ given pointsMap o, 0 ≤ n) ∧
      p'.points = p.tests.map fun t => (given pointsMap t.ordinal).getD t.points := by
  induction pointsMap generalizing p with
  | nil =>
      obtain rfl := Except.ok.inj h
      exact ⟨rfl, by simp [given], rfl⟩
  | cons e pointsMap ih =>
      obtain ⟨ord, pts⟩ := e
      simp only [updateTestPoints] at h
      split_ifs at h with hneg
      obtain ⟨hscore, hgiven, hpoints⟩ := ih h
      refine ⟨hscore, fun o n hn => ?_, ?_⟩
      · simp only [given, Option.mem_def, Option.or_eq_some_iff] at hn
        rcases hn with hn | ⟨-, hn⟩
        · exact hgiven o n hn
        · obtain ⟨-, hpts⟩ := Option.ite_none_right_eq_some.mp hn
          rw [← Option.some.inj hpts]
          exact not_lt.mp hneg
      · rw [hpoints, setPoints, List.map_map]
        refine List.map_congr_left fun t _ => ?_
        simp only [Function.comp_apply, given]
        split_ifs <;> cases given pointsMap t.ordinal <;> rfl

lemma updateTestPoints_budgeted_iff {pointsMap : List (ℤ × ℤ)} (hp : p.Budgeted)
    (h : p.updateTestPoints pointsMap = .ok p') :
    p'.Budgeted ↔ p.worthWith (given pointsMap) ≤ p.maxScore := by
  obtain ⟨hscore, hgiven, hpoints⟩ := updateTestPoints_eq_ok h
  exact budgeted_iff_of_worth hp hscore (updateTestPoints_ordinals h) hgiven hpoints

/-! ## Renumbering moves no points -/

lemma map_points_updated (cond : ℤ → Bool) (f : ℤ → ℤ) (scan : Sql.Scan) (tests : List TestRow) :
    (updated cond f scan tests).map (·.points) = tests.map (·.points) := by
  rw [updated_eq_map, List.map_map]
  refine List.map_congr_left fun t _ => ?_
  simp only [Function.comp_apply, renumberIf]
  split_ifs <;> rfl

lemma deleteSingleTest_budgeted {scan₁ scan₂ : Sql.Scan} {ordinal : ℤ} (hp : p.Budgeted)
    (h : p.deleteSingleTest scan₁ scan₂ ordinal = .ok p') : p'.Budgeted := by
  have hnumbered := deleteSingleTest_numbered hp.numbered h
  have hpoints : (p.shifted scan₁ scan₂ ordinal).map (·.points) = (p.without ordinal).map (·.points) := by
    rw [shifted, map_points_updated, negated, map_points_updated]
  have hsub : ((p.shifted scan₁ scan₂ ordinal).map (·.points)).Sublist p.points := by
    rw [hpoints]
    exact List.filter_sublist.map _
  rw [deleteSingleTest_eq hp.numbered] at h
  split_ifs at h
  · obtain rfl := Except.ok.inj h
    refine distributeProblemPoints_budgeted (p := { p with tests := p.shifted scan₁ scan₂ ordinal })
      hp.score hp.fits ?_
    exact hnumbered.of_ordinals_eq (distributeProblemPoints_ordinals _).symm
  · obtain rfl := Except.ok.inj h
    exact ⟨hp.score, hp.fits, hnumbered, fun n hn => hp.nonneg n (hsub.subset hn),
      (hsub.sum_le_sum hp.nonneg).trans hp.sum_le⟩

/-! ## The problem -/

lemma newScore_pos (input : CreateProblemInput) : 0 < newScore input := clampLimits_maxScore_pos ..

lemma newScore_lt (input : CreateProblemInput) : newScore input < 2 ^ 31 :=
  (clampLimits_maxScore_fits input.maxScore_fits).2

lemma create_budgeted (input : CreateProblemInput) : (create input).Budgeted where
  score := newScore_pos input
  fits := newScore_lt input
  numbered := rfl
  nonneg := by simp [create, points]
  sum_le := (newScore_pos input).le

/-- A change of the score changes the points if they are an even split, and is not checked against
them if not. -/
lemma update_budgeted_iff {input : CreateProblemInput} (hp : p.Budgeted) :
    (p.update input).Budgeted ↔
      isEvenDistribution p.points p.maxScore = true ∨ p.points.sum ≤ newScore input := by
  have hscore := newScore_pos input
  have hfits := newScore_lt input
  by_cases heven : p.maxScore ≠ newScore input ∧ p.tests ≠ [] ∧
      isEvenDistribution p.points p.maxScore = true
  · refine iff_of_true ?_ (.inl heven.2.2)
    rw [update_eq, if_pos heven]
    exact distributeProblemPoints_budgeted hscore hfits hp.numbered
  · rw [update_eq, if_neg heven]
    constructor
    · exact fun hp' => .inr hp'.sum_le
    · intro hwithin
      refine ⟨hscore, hfits, hp.numbered, hp.nonneg, ?_⟩
      change p.points.sum ≤ newScore input
      rcases hwithin with hsplit | hle
      · -- the score is as before, or there are no points
        rw [not_and_or, not_and_or, not_ne_iff, not_ne_iff] at heven
        rcases heven with hsame | hnil | hnot
        · exact hsame ▸ hp.sum_le
        · simpa [points, hnil] using hscore.le
        · exact absurd hsplit hnot
      · exact hle

end ProblemRow

/-! ## The calls -/

/-- What the calls need whose points or score are not checked: a test that is added is not worth so
much that the sum overflows, points that are written fit together with those that stay, and a score is
not lowered below the points where these stay as they are. -/
def Call.WithinBudget : Call → ProblemRow → Prop
  | .edit (.addSingleTest _ _ _ points), p => p.points.sum + points < 2 ^ 31
  | .edit (.updateSingleTest ordinal _ _ points), p =>
      p.worthWith (ProblemRow.onlyAt ordinal points) ≤ p.maxScore
  | .edit (.updateTestPoints pointsMap), p => p.worthWith (ProblemRow.given pointsMap) ≤ p.maxScore
  | .update input, p => isEvenDistribution p.points p.maxScore = true ∨
      p.points.sum ≤ (clampLimits input.timeLimitMs input.memoryLimitMb input.maxScore).2.2
  | _, _ => True

instance : (call : Call) → (p : ProblemRow) → Decidable (call.WithinBudget p)
  | .edit (.addSingleTest ..), _ => inferInstanceAs (Decidable (_ < _))
  | .edit (.updateSingleTest ..), _ => inferInstanceAs (Decidable (_ ≤ _))
  | .edit (.updateTestPoints ..), _ => inferInstanceAs (Decidable (_ ≤ _))
  | .update .., _ => inferInstanceAs (Decidable (_ ∨ _))
  | .edit (.replaceTests ..), _ | .edit (.deleteSingleTest ..), _ | .create _, _
  | .setPublished _, _ | .delete, _ | .getTestMetadata, _ => .isTrue trivial

lemma TestOp.budgeted_iff {sha : List UInt8 → String} {op : TestOp} {p p' : ProblemRow}
    (hp : p.Budgeted) (h : op.run sha p = .ok p') : p'.Budgeted ↔ (Call.edit op).WithinBudget p := by
  cases op with
  | replaceTests ids tests => exact iff_of_true (ProblemRow.replaceTests_budgeted hp h) trivial
  | addSingleTest id input expected points => exact ProblemRow.addSingleTest_budgeted_iff hp h
  | updateSingleTest ordinal input expected points =>
      exact ProblemRow.updateSingleTest_budgeted_iff hp h
  | updateTestPoints pointsMap => exact ProblemRow.updateTestPoints_budgeted_iff hp h
  | deleteSingleTest scan₁ scan₂ ordinal =>
      exact iff_of_true (ProblemRow.deleteSingleTest_budgeted hp h) trivial

/-- A call that is accepted keeps the invariant exactly if it is within budget. -/
lemma Call.budgeted_iff {sha : List UInt8 → String} {call : Call} {p p' : ProblemRow}
    (hp : p.Budgeted) (h : call.run sha (some p) = .ok (some p')) :
    p'.Budgeted ↔ call.WithinBudget p := by
  cases call with
  | create input | delete => simp [Call.run] at h
  | update input =>
      obtain rfl : p.update input = p' := by simpa [Call.run] using h
      exact ProblemRow.update_budgeted_iff hp
  | setPublished published =>
      obtain rfl : p.setPublished published = p' := by simpa [Call.run] using h
      exact iff_of_true ⟨hp.score, hp.fits, hp.numbered, hp.nonneg, hp.sum_le⟩ trivial
  | edit op =>
      cases hop : op.run sha p with
      | error err => simp [Call.run, hop, Except.map] at h
      | ok row =>
          obtain rfl : row = p' := by simpa [Call.run, hop, Except.map] using h
          exact TestOp.budgeted_iff hp hop
  | getTestMetadata =>
      obtain rfl : p.getTestMetadata = p' := by simpa [Call.run] using h
      exact iff_of_true (ProblemRow.getTestMetadata_budgeted hp) trivial

/-! ## The runs -/

/-- All problems are within their budget. -/
def Store.Budgeted (σ : Store) : Prop := ∀ id, ∀ p ∈ σ.lookup id, p.Budgeted

/-- The call that is committed next is within the budget of its problem. -/
def WithinBudget : AdminAction → Admin → Prop
  | .proceed, ⟨σ, .commit id call :: _⟩ => ∀ p ∈ σ.lookup id, call.WithinBudget p
  | _, _ => True

instance : (a : AdminAction) → (s : Admin) → Decidable (WithinBudget a s)
  | .proceed, ⟨_, .commit _ _ :: _⟩ => inferInstanceAs (Decidable (∀ p ∈ _, _))
  | .proceed, ⟨_, []⟩ | .proceed, ⟨_, .invalidate _ :: _⟩ | .request _, _ => .isTrue trivial

variable {sha : List UInt8 → String}

lemma Store.Budgeted.call {σ σ' : Store} {id : String} {call : Call} (hσ : σ.Budgeted)
    (hwithin : ∀ p ∈ σ.lookup id, call.WithinBudget p) (h : σ.call sha id call = .ok σ') :
    σ'.Budgeted := by
  intro q p' hp'
  by_cases hq : q = id
  · subst hq
    rcases Store.call_some h hp' with ⟨input, -, rfl⟩ | ⟨p, hp, hrun⟩
    · exact ProblemRow.create_budgeted input
    · exact (Call.budgeted_iff (hσ q p hp) hrun).mpr (hwithin p hp)
  · rw [Store.call_frame h hq] at hp'
    exact hσ q p' hp'

lemma Admin.step_budgeted (a : AdminAction) (s s' : Admin) (hs : s.store.Budgeted)
    (hwithin : WithinBudget a s) (h : Admin.step sha a s = some s') : s'.store.Budgeted := by
  unfold Admin.step at h
  split at h
  · cases h
    exact hs
  · cases h
  · cases h
  · split at h
    · next hcall =>
      cases h
      exact hs.call hwithin hcall
    · cases h
  · cases h
    exact hs

/-- In every state of a run whose calls are within budget, the points of a problem's tests add up to
no more than its score. -/
theorem points_within_score (sha : List UInt8 → String) (s : Admin)
    (h : Go.ReachIf (Admin.step sha) WithinBudget Admin.new s) :
    ∀ id, ∀ p ∈ s.store.lookup id, p.points.sum ≤ p.maxScore := by
  have hempty : Admin.new.store.Budgeted := fun id p hp => by simp [Admin.new] at hp
  have hbudget := h.invariant (P := fun s => s.store.Budgeted) hempty Admin.step_budgeted
  exact fun id p hp => (hbudget id p hp).sum_le

/-- The two tests of the sample get 60 and 40 points. -/
def sampleWithin : Admin :=
  (Go.runIf (Admin.step sampleSha) WithinBudget
    (sampleCreate ++
      [.request (.updateTestPoints "p" samplePoints),
        .proceed, .proceed])
    Admin.new).getD Admin.new

theorem points_within_score_sample :
    (sampleWithin.store.lookup "p").map (·.points) = some [60, 40] ∧
      ∀ id, ∀ p ∈ sampleWithin.store.lookup id, p.points.sum ≤ p.maxScore :=
  ⟨by decide +kernel, points_within_score sampleSha sampleWithin (Go.ReachIf.runIf_getD _)⟩

/-- One of them gets 100 points while the other has 50. -/
def sampleBeyond : Admin :=
  (Go.run (Admin.step sampleSha)
    (sampleCreate ++
      [.request (.updateSingleTestCase "p" "1".toList (.json ⟨1, [], [], 100⟩)), .proceed, .proceed])
    Admin.new).getD Admin.new

/-- A test that is updated is not checked against the others. -/
theorem points_beyond_score : ∃ s, Go.Reach (Admin.step sampleSha) Admin.new s ∧
    ∃ p ∈ s.store.lookup "p", p.maxScore < p.points.sum :=
  ⟨sampleBeyond, Go.Reach.run_getD _, by decide +kernel⟩

end Problem

end Labyrithm
