import Labyrithm.Problem.Edits

/-!
# Suites

What the four calls keep of a suite when they are made one after the other: its score, its numbers, and
that the hashes of a test are those of its content.  The contents of the tests stay distinct, since each
call looks for the content it is about to write.

* `ProblemRow.Suite` — a suite as the calls leave it.
* `Suite.run` — a call keeps it, but for the ids, which the database hands out.
* `Suite.run_distinct` — a call keeps the contents distinct.
* `addSingleTest_of`, `updateSingleTest_of`, `replaceTests_of` — when a call succeeds, and with what.
-/

namespace Labyrithm

namespace Problem

namespace ProblemRow

/-- The input and the expected output of a test, with their hashes. -/
def body (t : TestRow) : List UInt8 × List UInt8 × String × String :=
  (t.input, t.expected, t.inputSha, t.expectedSha)

def ids (p : ProblemRow) : List String := p.tests.map (·.id)

/-- A suite as the calls leave it, in a problem with a score. -/
structure Suite (sha : List UInt8 → String) (maxScore : ℤ) (p : ProblemRow) : Prop where
  score : p.maxScore = maxScore
  numbered : p.Numbered
  unique : p.ids.Nodup
  hashed : ∀ t ∈ p.tests, t.inputSha = sha t.input ∧ t.expectedSha = sha t.expected

variable {sha : List UInt8 → String} {m : ℤ} {p p' : ProblemRow}

lemma Suite.of_body (h : p.Suite sha m) (hbody : p'.tests.map body ⊆ p.tests.map body) :
    ∀ t ∈ p'.tests, t.inputSha = sha t.input ∧ t.expectedSha = sha t.expected := by
  intro t ht
  obtain ⟨u, hu, heq⟩ := List.mem_map.mp (hbody (List.mem_map_of_mem ht))
  obtain ⟨hi, he⟩ := h.hashed u hu
  simp only [body, Prod.mk.injEq] at heq
  obtain ⟨hinput, hexpected, hinSha, hexpSha⟩ := heq
  rw [← hinput, ← hexpected, ← hinSha, ← hexpSha]
  exact ⟨hi, he⟩

/-- The contents are distinct if they are some of those of a suite where they are. -/
lemma Distinct.of_body (h : p.Distinct) (hbody : (p'.tests.map body).Sublist (p.tests.map body)) :
    p'.Distinct := by
  have hcontents (q : ProblemRow) : (q.tests.map fun t => (t.input, t.expected)) =
      (q.tests.map body).map fun b => (b.1, b.2.1) := by
    rw [List.map_map]
    rfl
  unfold Distinct at h ⊢
  rw [hcontents] at h ⊢
  exact h.sublist (hbody.map _)

/-! ## Points and numbers -/

/-- An even split changes nothing but the points. -/
lemma map_distributeProblemPoints {β : Type} (g : TestRow → β)
    (hg : ∀ (t : TestRow) (n : ℤ), g { t with points := n } = g t) (maxScore : ℤ) :
    (p.distributeProblemPoints maxScore).tests.map g = p.tests.map g := by
  unfold distributeProblemPoints
  split_ifs
  · rfl
  · refine List.ext_getElem (by simp) fun i _ _ => ?_
    simp [hg]

@[simp] lemma distributeProblemPoints_maxScore (maxScore : ℤ) :
    (p.distributeProblemPoints maxScore).maxScore = p.maxScore := by
  unfold distributeProblemPoints
  split_ifs <;> rfl

/-- An `UPDATE` of the ordinals changes nothing but these. -/
lemma map_updated {β : Type} (g : TestRow → β)
    (hg : ∀ (t : TestRow) (n : ℤ), g { t with ordinal := n } = g t) (cond : ℤ → Bool) (f : ℤ → ℤ)
    (scan : Sql.Scan) (tests : List TestRow) :
    (updated cond f scan tests).map g = tests.map g := by
  rw [updated_eq_map, List.map_map]
  refine List.map_congr_left fun t _ => ?_
  simp only [Function.comp_apply, renumberIf]
  split_ifs
  · exact hg _ _
  · rfl

lemma deleteSingleTest_body {scan₁ scan₂ : Sql.Scan} {ordinal : ℤ} (h : p.Numbered)
    (hok : p.deleteSingleTest scan₁ scan₂ ordinal = .ok p') :
    (p'.tests.map body).Sublist (p.tests.map body) ∧ p'.maxScore = p.maxScore := by
  have hshifted : (p.shifted scan₁ scan₂ ordinal).map body = (p.without ordinal).map body := by
    rw [shifted, map_updated body (fun _ _ => rfl), negated, map_updated body (fun _ _ => rfl)]
  have hsub : ((p.shifted scan₁ scan₂ ordinal).map body).Sublist (p.tests.map body) := by
    rw [hshifted]
    exact List.filter_sublist.map _
  rw [deleteSingleTest_eq h] at hok
  split_ifs at hok
  · obtain rfl := Except.ok.inj hok
    rw [map_distributeProblemPoints body (fun _ _ => rfl), distributeProblemPoints_maxScore]
    exact ⟨hsub, rfl⟩
  · obtain rfl := Except.ok.inj hok
    exact ⟨hsub, rfl⟩

/-! ## A new test -/

lemma findIdentical_eq_none {inputSha expectedSha : String} {except : Option ℤ} :
    p.findIdentical inputSha expectedSha except = none ↔
      ∀ t ∈ p.tests, t.inputSha = inputSha → t.expectedSha = expectedSha → some t.ordinal = except := by
  simp [findIdentical, List.find?_eq_none]

lemma addSingleTest_body {id : String} {input expected : List UInt8} {points : ℤ}
    (h : p.addSingleTest sha id input expected points = .ok p') :
    p'.tests.map body = p.tests.map body ++ [(input, expected, sha input, sha expected)] ∧
      p'.maxScore = p.maxScore := by
  obtain ⟨-, -, -, rfl⟩ := addSingleTest_eq_ok h
  split_ifs
  · rw [map_distributeProblemPoints body (fun _ _ => rfl), distributeProblemPoints_maxScore]
    exact ⟨by rw [List.map_append]; rfl, rfl⟩
  · exact ⟨by rw [List.map_append]; rfl, rfl⟩

/-- `AddSingleTest` succeeds where nothing is against it. -/
lemma addSingleTest_of {id : String} {input expected : List UInt8} {points : ℤ} (h : p.Numbered)
    (hpos : ¬ points < 0) (hroom : ¬ p.exceeds points)
    (hnone : p.findIdentical (sha input) (sha expected) none = none) :
    p.addSingleTest sha id input expected points = .ok
      (if p.shouldAutoDistribute points then
        distributeProblemPoints
          { p with tests := p.tests ++ [testRow sha id p.nextOrdinal input expected 0] } p.maxScore
      else { p with tests := p.tests ++ [testRow sha id p.nextOrdinal input expected points] }) := by
  have hfree (pts : ℤ) : insertTest (testRow sha id p.nextOrdinal input expected pts) p.tests =
      .ok (p.tests ++ [testRow sha id p.nextOrdinal input expected pts]) := by
    refine if_neg ?_
    simp only [List.any_eq_true, decide_eq_true_eq, not_exists, not_and]
    intro t ht heq
    have hmem : t.ordinal ∈ p.ordinals := List.mem_map_of_mem ht
    rw [h, mem_oneTo] at hmem
    have hnext : t.ordinal = p.tests.length + 1 := heq.trans h.nextOrdinal_eq
    omega
  have hover : ¬ ((!p.shouldAutoDistribute points) = true ∧ points > 0 ∧
      int32 (p.currentSum + points) > p.maxScore) := fun hover => hroom hover.2
  rw [addSingleTest, if_neg hpos, if_neg hover, hnone]
  by_cases hauto : p.shouldAutoDistribute points = true
  · simp only [hauto, if_true, hfree]
  · simp only [hauto, hfree]
    rfl

/-! ## A new content -/

lemma updateSingleTest_of {ordinal : ℤ} {input expected : Option (List UInt8)} {points : Option ℤ}
    {current : TestRow} (hfind : p.tests.find? (·.ordinal = ordinal) = some current)
    (hpos : ¬ ∃ n ∈ points, n < 0)
    (hnone : p.findIdentical (sha (input.getD current.input)) (sha (expected.getD current.expected))
      (some ordinal) = none) :
    p.updateSingleTest sha ordinal input expected points = .ok { p with
      tests := p.tests.map fun t => if t.ordinal = ordinal then
        testRow sha current.id ordinal (input.getD current.input) (expected.getD current.expected)
          (points.getD current.points) else t } := by
  rw [updateSingleTest, hfind]
  simp only [if_neg hpos, testRow, hnone]

lemma updateSingleTest_hashed {ordinal : ℤ} {input expected : Option (List UInt8)}
    {points : Option ℤ} (hp : p.Suite sha m)
    (h : p.updateSingleTest sha ordinal input expected points = .ok p') :
    ∀ t ∈ p'.tests, t.inputSha = sha t.input ∧ t.expectedSha = sha t.expected := by
  obtain ⟨current, row, -, -, rfl, -, rfl⟩ := updateSingleTest_eq_ok h
  intro t ht
  obtain ⟨u, hu, rfl⟩ := List.mem_map.mp ht
  split_ifs
  · exact ⟨rfl, rfl⟩
  · exact hp.hashed u hu

lemma updateSingleTest_distinct {ordinal : ℤ} {input expected : Option (List UInt8)}
    {points : Option ℤ} (hp : p.Suite sha m) (hdistinct : p.Distinct)
    (h : p.updateSingleTest sha ordinal input expected points = .ok p') : p'.Distinct := by
  obtain ⟨current, row, -, -, hrow, hnone, rfl⟩ := updateSingleTest_eq_ok h
  have hnew : ∀ t ∈ p.tests, t.input = row.input → t.expected = row.expected → t.ordinal = ordinal := by
    intro t ht hi he
    obtain ⟨hti, hte⟩ := hp.hashed t ht
    have hsame := findIdentical_eq_none.mp hnone t ht (by rw [hti, hi, hrow]; rfl)
      (by rw [hte, he, hrow]; rfl)
    exact Option.some.inj hsame
  have hnodup : p.tests.Nodup := hp.unique.of_map
  unfold Distinct
  rw [List.map_map]
  refine hnodup.map_on fun t ht u hu heq => ?_
  simp only [Function.comp_apply] at heq
  split_ifs at heq with hto huo huo
  · exact hp.numbered.inj ht hu (hto.trans huo.symm)
  · obtain ⟨hi, he⟩ := Prod.mk.inj heq
    exact absurd (hnew u hu hi.symm he.symm) huo
  · obtain ⟨hi, he⟩ := Prod.mk.inj heq
    exact absurd (hnew t ht hi he) hto
  · exact List.inj_on_of_nodup_map hdistinct ht hu heq

/-! ## A suite given whole -/

lemma insertTests_hashed {ids : ℕ → String} {ts : List TestInput} {i : ℕ}
    {seenHashes : List (String × ℕ)} {tests tests' : List TestRow}
    (h : insertTests sha ids ts i seenHashes tests = .ok tests')
    (htests : ∀ t ∈ tests, t.inputSha = sha t.input ∧ t.expectedSha = sha t.expected) :
    ∀ t ∈ tests', t.inputSha = sha t.input ∧ t.expectedSha = sha t.expected := by
  induction ts generalizing i seenHashes tests with
  | nil =>
      obtain rfl := Except.ok.inj h
      exact htests
  | cons t ts ih =>
      simp only [insertTests] at h
      split at h
      · cases h
      split at h
      · cases h
      rename_i inserted hinsert
      obtain rfl := insertTest_eq_ok hinsert
      refine ih h fun u hu => ?_
      rcases List.mem_append.mp hu with hu | hu
      · exact htests u hu
      · obtain rfl := List.mem_singleton.mp hu
        exact ⟨rfl, rfl⟩

/-- Every row so far is in `seenHashes`, so that no content comes twice. -/
lemma insertTests_distinct {ids : ℕ → String} {ts : List TestInput} {i : ℕ}
    {seenHashes : List (String × ℕ)} {tests tests' : List TestRow}
    (h : insertTests sha ids ts i seenHashes tests = .ok tests')
    (hseen : ∀ t ∈ tests, (seenHashes.lookup (sha t.input ++ ":" ++ sha t.expected)).isSome)
    (htests : (tests.map fun t => (t.input, t.expected)).Nodup) :
    (tests'.map fun t => (t.input, t.expected)).Nodup := by
  induction ts generalizing i seenHashes tests with
  | nil =>
      obtain rfl := Except.ok.inj h
      exact htests
  | cons t ts ih =>
      simp only [insertTests] at h
      split at h
      · cases h
      rename_i hlookup
      split at h
      · cases h
      rename_i inserted hinsert
      obtain rfl := insertTest_eq_ok hinsert
      refine ih h (fun u hu => ?_) ?_
      · rw [List.lookup_cons]
        split
        · rfl
        rename_i hne
        rcases List.mem_append.mp hu with hu | hu
        · exact hseen u hu
        · obtain rfl := List.mem_singleton.mp hu
          simp [testRow] at hne
      · rw [List.map_append, List.nodup_append]
        refine ⟨htests, by simp, fun a ha b hb hab => ?_⟩
        obtain ⟨u, hu, rfl⟩ := List.mem_map.mp ha
        obtain rfl := List.mem_singleton.mp hb
        obtain ⟨hi, he⟩ := Prod.mk.inj hab
        have hsome := hseen u hu
        rw [hi, he] at hsome
        simp [testRow, hlookup] at hsome

/-- `ReplaceTests` with what the loop has made. -/
lemma replaceTests_of {ids : ℕ → String} {tests : List TestInput} {rows : List TestRow}
    (hvalid : validateTestPoints tests p.maxScore = .ok ())
    (hrows : insertTests sha ids (distributePoints tests p.maxScore) 0 [] [] = .ok rows) :
    p.replaceTests sha ids tests = .ok { p with tests := rows } := by
  rw [replaceTests, hvalid, hrows]

/-! ## Every call -/

/-- A call keeps a suite, as long as no id is there twice. -/
theorem Suite.run {e : Edit} (hp : p.Suite sha m) (h : e.op.run sha p = .ok p')
    (hunique : p'.ids.Nodup) : p'.Suite sha m := by
  have hnumbered : p'.Numbered := by
    have happly : (e.op.apply sha p).Numbered := e.op.apply_numbered hp.numbered
    rwa [TestOp.apply, h] at happly
  cases e with
  | addSingleTest id input expected points =>
      obtain ⟨hbody, hscore⟩ := addSingleTest_body h
      refine ⟨hscore.trans hp.score, hnumbered, hunique, fun t ht => ?_⟩
      have hmem := List.mem_map_of_mem (f := body) ht
      rw [hbody, List.mem_append] at hmem
      rcases hmem with hmem | hmem
      · obtain ⟨u, hu, heq⟩ := List.mem_map.mp hmem
        have hu := hp.hashed u hu
        simp only [body, Prod.mk.injEq] at heq
        rw [← heq.1, ← heq.2.1, ← heq.2.2.1, ← heq.2.2.2]
        exact hu
      · simp only [body, List.mem_singleton, Prod.mk.injEq] at hmem
        rw [hmem.1, hmem.2.1, hmem.2.2.1, hmem.2.2.2]
        exact ⟨rfl, rfl⟩
  | updateSingleTest ordinal input expected points =>
      refine ⟨?_, hnumbered, hunique, updateSingleTest_hashed hp h⟩
      obtain ⟨-, -, -, -, -, -, rfl⟩ := updateSingleTest_eq_ok h
      exact hp.score
  | replaceTests scan ids tests =>
      obtain ⟨-, rows, hrows, rfl⟩ := replaceTests_eq_ok h
      exact ⟨hp.score, hnumbered, hunique, insertTests_hashed hrows (by simp)⟩
  | deleteSingleTest scan₁ scan₂ ordinal =>
      obtain ⟨hbody, hscore⟩ := deleteSingleTest_body hp.numbered h
      exact ⟨hscore.trans hp.score, hnumbered, hunique, hp.of_body hbody.subset⟩

/-- A call keeps the contents distinct. -/
theorem Suite.run_distinct {e : Edit} (hp : p.Suite sha m) (hdistinct : p.Distinct)
    (h : e.op.run sha p = .ok p') : p'.Distinct := by
  cases e with
  | addSingleTest id input expected points =>
      obtain ⟨-, -, hnone, -⟩ := addSingleTest_eq_ok h
      obtain ⟨hbody, -⟩ := addSingleTest_body h
      have hcontents : (p'.tests.map fun t => (t.input, t.expected)) =
          (p.tests.map fun t => (t.input, t.expected)) ++ [(input, expected)] := by
        have := congrArg (List.map fun b => (b.1, b.2.1)) hbody
        simpa [body, Function.comp_def] using this
      rw [Distinct, hcontents, List.nodup_append]
      refine ⟨hdistinct, by simp, fun a ha b hb hab => ?_⟩
      obtain ⟨t, ht, rfl⟩ := List.mem_map.mp ha
      obtain rfl := List.mem_singleton.mp hb
      obtain ⟨hi, he⟩ := Prod.mk.inj hab
      obtain ⟨hti, hte⟩ := hp.hashed t ht
      cases findIdentical_eq_none.mp hnone t ht (by rw [hti, hi]) (by rw [hte, he])
  | updateSingleTest ordinal input expected points => exact updateSingleTest_distinct hp hdistinct h
  | replaceTests scan ids tests =>
      obtain ⟨-, rows, hrows, rfl⟩ := replaceTests_eq_ok h
      exact insertTests_distinct hrows (by simp) (by simp)
  | deleteSingleTest scan₁ scan₂ ordinal =>
      exact hdistinct.of_body (deleteSingleTest_body hp.numbered h).1

end ProblemRow

end Problem

end Labyrithm
