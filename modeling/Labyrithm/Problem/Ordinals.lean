import Labyrithm.Problem.Tests

/-!
# The ordinals of a suite

`DeleteSingleTest` closes the gap it leaves in two `UPDATE`s: the ordinals behind it are made negative,
and then those that are negative get their new values.

* `ProblemRow.Numbered` — the ordinals are `1` to `n`, in the order of the rows.
* `TestOp.apply_numbered` — every call leaves a suite numbered.
* `clear_without`, `clear_negated` — neither `UPDATE` has an ordinal twice between any two of its rows.
* **`ordinals_contiguous`** — both, over any sequence of calls; so the constraint is never violated.
-/

namespace Labyrithm

namespace Problem

/-- `1` to `n`. -/
def oneTo (n : ℕ) : List ℤ := (List.range n).map fun i : ℕ => (i : ℤ) + 1

@[simp] lemma length_oneTo (n : ℕ) : (oneTo n).length = n := by simp [oneTo]

lemma oneTo_succ (n : ℕ) : oneTo (n + 1) = oneTo n ++ [(n : ℤ) + 1] := by
  simp [oneTo, List.range_succ]

lemma mem_oneTo {n : ℕ} {o : ℤ} : o ∈ oneTo n ↔ 1 ≤ o ∧ o ≤ n := by
  simp only [oneTo, List.mem_map, List.mem_range]
  constructor
  · rintro ⟨i, hi, rfl⟩
    omega
  · rintro ⟨hlow, hhigh⟩
    exact ⟨(o - 1).toNat, by omega, by omega⟩

lemma nodup_oneTo (n : ℕ) : (oneTo n).Nodup :=
  List.nodup_range.map fun i j h => by simpa using h

lemma max?_oneTo (n : ℕ) : (oneTo n).max?.getD 0 = n := by
  cases n with
  | zero => rfl
  | succ n =>
      have hmax : (oneTo (n + 1)).max? = some ((n : ℤ) + 1) := by
        rw [List.max?_eq_some_iff]
        refine ⟨mem_oneTo.mpr (by omega), fun o ho => ?_⟩
        have hle := (mem_oneTo.mp ho).2
        omega
      rw [hmax]
      simp

namespace ProblemRow

variable {p p' : ProblemRow} {sha : List UInt8 → String}

/-- The ordinals of the tests are 1 to n. -/
def Numbered (p : ProblemRow) : Prop := p.ordinals = oneTo p.tests.length

instance (p : ProblemRow) : Decidable p.Numbered := inferInstanceAs (Decidable (_ = _))

lemma length_ordinals : p.ordinals.length = p.tests.length := List.length_map ..

/-- A suite is numbered by its ordinals alone. -/
lemma Numbered.of_ordinals_eq (h : p.Numbered) (heq : p'.ordinals = p.ordinals) : p'.Numbered := by
  have hlen : p'.tests.length = p.tests.length := by
    rw [← length_ordinals, heq, length_ordinals]
  rw [Numbered, heq, hlen]
  exact h

/-- Two tests of a numbered suite with one ordinal are the same. -/
lemma Numbered.inj (h : p.Numbered) {t u : TestRow} (ht : t ∈ p.tests) (hu : u ∈ p.tests)
    (heq : t.ordinal = u.ordinal) : t = u := by
  have hnodup : (p.tests.map (·.ordinal)).Nodup := by
    rw [← ordinals, h]
    exact nodup_oneTo _
  exact List.inj_on_of_nodup_map hnodup ht hu heq

/-- The next ordinal is behind the last. -/
lemma Numbered.nextOrdinal_eq (h : p.Numbered) : p.nextOrdinal = p.tests.length + 1 := by
  rw [nextOrdinal, h, max?_oneTo]

lemma numbered_of_eq {n : ℕ} (h : p.ordinals = oneTo n) : p.Numbered := by
  have hlen : p.tests.length = n := by rw [← length_ordinals, h, length_oneTo]
  rw [Numbered, hlen]
  exact h

/-! ## Calls that leave the ordinals as they are -/

lemma map_ordinal_mapIdx (tests : List TestRow) (f : ℕ → ℤ) :
    (tests.mapIdx fun i t => { t with points := f i }).map (·.ordinal) = tests.map (·.ordinal) := by
  refine List.ext_getElem (by simp) fun i _ _ => ?_
  simp

@[simp] lemma distributeProblemPoints_ordinals (maxScore : ℤ) :
    (p.distributeProblemPoints maxScore).ordinals = p.ordinals := by
  unfold distributeProblemPoints
  split_ifs
  · rfl
  · exact map_ordinal_mapIdx _ _

lemma updateSingleTest_ordinals {ordinal : ℤ} {input expected : Option (List UInt8)}
    {points : Option ℤ} (h : p.updateSingleTest sha ordinal input expected points = .ok p') :
    p'.ordinals = p.ordinals := by
  obtain ⟨current, row, -, -, rfl, -, rfl⟩ := updateSingleTest_eq_ok h
  simp only [ordinals, List.map_map]
  refine List.map_congr_left fun t _ => ?_
  simp only [Function.comp_apply]
  split_ifs with hord
  · exact hord.symm
  · rfl

@[simp] lemma setPoints_ordinals (ordinal points : ℤ) : (p.setPoints ordinal points).ordinals = p.ordinals := by
  simp only [ordinals, setPoints, List.map_map]
  refine List.map_congr_left fun t _ => ?_
  simp only [Function.comp_apply]
  split_ifs <;> rfl

lemma updateTestPoints_ordinals {pointsMap : List (ℤ × ℤ)}
    (h : p.updateTestPoints pointsMap = .ok p') : p'.ordinals = p.ordinals := by
  induction pointsMap generalizing p with
  | nil =>
      obtain rfl := Except.ok.inj h
      rfl
  | cons e pointsMap ih =>
      simp only [updateTestPoints] at h
      split_ifs at h
      rw [ih h, setPoints_ordinals]

/-! ## Calls that insert -/

/-- What is inserted from the position `i` on has the ordinals from `i + 1` on. -/
lemma insertTests_ordinals {ids : ℕ → String} {ts : List TestInput} {i : ℕ}
    {seenHashes : List (String × ℕ)} {tests tests' : List TestRow}
    (h : insertTests sha ids ts i seenHashes tests = .ok tests')
    (htests : tests.map (·.ordinal) = oneTo i) :
    tests'.map (·.ordinal) = oneTo (i + ts.length) := by
  induction ts generalizing i seenHashes tests with
  | nil =>
      obtain rfl := Except.ok.inj h
      exact htests
  | cons t ts ih =>
      simp only [insertTests] at h
      split at h
      · cases h
      split at h
      · cases h
      · rename_i inserted hinsert
        have hlast : inserted.map (·.ordinal) = oneTo (i + 1) := by
          rw [insertTest_eq_ok hinsert, List.map_append, htests, oneTo_succ]
          rfl
        rw [ih h hlast, List.length_cons]
        congr 1
        omega

lemma replaceTests_numbered {ids : ℕ → String} {tests : List TestInput}
    (h : p.replaceTests sha ids tests = .ok p') : p'.Numbered := by
  obtain ⟨-, rows, hrows, rfl⟩ := replaceTests_eq_ok h
  exact numbered_of_eq (insertTests_ordinals hrows rfl)

lemma addSingleTest_numbered {id : String} {input expected : List UInt8} {points : ℤ}
    (hp : p.Numbered) (h : p.addSingleTest sha id input expected points = .ok p') : p'.Numbered := by
  have hnext := hp.nextOrdinal_eq
  have hordinals (row : TestRow) (hrow : row.ordinal = p.nextOrdinal) :
      (p.tests ++ [row]).map (·.ordinal) = oneTo (p.tests.length + 1) := by
    rw [List.map_append, oneTo_succ, ← hp, ← hnext, ← hrow]
    rfl
  obtain ⟨-, -, -, rfl⟩ := addSingleTest_eq_ok h
  refine numbered_of_eq (n := p.tests.length + 1) ?_
  split_ifs
  · rw [distributeProblemPoints_ordinals]
    exact hordinals _ rfl
  · exact hordinals _ rfl

/-! ## Renumbering -/

lemma map_ordinal_renumber (f : ℤ → ℤ) (tests : List TestRow) (i : ℕ) :
    (renumber f tests i).map (·.ordinal) = (tests.map (·.ordinal)).modify i f := by
  refine List.ext_getElem? fun j => ?_
  simp only [renumber, List.getElem?_map, List.getElem?_modify]
  cases tests[j]? with
  | none => rfl
  | some t => by_cases hij : i = j <;> simp [hij]

lemma map_ordinal_foldl (f : ℤ → ℤ) (tests : List TestRow) (is : List ℕ) :
    (is.foldl (renumber f) tests).map (·.ordinal) = Sql.visit f (tests.map (·.ordinal)) is := by
  unfold Sql.visit
  induction is generalizing tests with
  | nil => rfl
  | cons i is ih => rw [List.foldl_cons, ih, map_ordinal_renumber, List.foldl_cons]

/-- The rows after an `UPDATE` has written `k` of those it has found. -/
def updating (cond : ℤ → Bool) (f : ℤ → ℤ) (scan : Sql.Scan) (tests : List TestRow) (k : ℕ) :
    List TestRow :=
  ((visits cond scan tests).take k).foldl (renumber f) tests

/-- The rows after it has written all of them. -/
def updated (cond : ℤ → Bool) (f : ℤ → ℤ) (scan : Sql.Scan) (tests : List TestRow) : List TestRow :=
  (visits cond scan tests).foldl (renumber f) tests

variable {cond : ℤ → Bool} {f : ℤ → ℤ} {scan scan₁ scan₂ : Sql.Scan} {tests : List TestRow}

/-- What an `UPDATE` does to each row, in any order. -/
def renumberIf (cond : ℤ → Bool) (f : ℤ → ℤ) (t : TestRow) : TestRow :=
  if cond t.ordinal then { t with ordinal := f t.ordinal } else t

lemma updated_eq_map : updated cond f scan tests = tests.map (renumberIf cond f) := by
  have hfound : Sql.found cond (tests.map (·.ordinal)) = Sql.found (fun t => cond t.ordinal) tests := by
    simp only [Sql.found, List.length_map, List.getElem?_map, Option.any_map]
  rw [updated, visits, hfound]
  exact scan.visit_eq_map (f := fun t : TestRow => { t with ordinal := f t.ordinal })

lemma map_ordinal_updated : (updated cond f scan tests).map (·.ordinal) =
    (tests.map (·.ordinal)).map fun o => if cond o then f o else o := by
  rw [updated_eq_map, List.map_map, List.map_map]
  refine List.map_congr_left fun t _ => ?_
  simp only [Function.comp_apply, renumberIf]
  split_ifs <;> rfl

/-- What an `UPDATE` needs so that the constraint lets every row of it pass. -/
structure Clear (cond : ℤ → Bool) (f : ℤ → ℤ) (tests : List TestRow) : Prop where
  nodup : (tests.map (·.ordinal)).Nodup
  new : ∀ o ∈ tests.map (·.ordinal), cond o = true → f o ∉ tests.map (·.ordinal)
  injective : ∀ o o', f o = f o' → o = o'

lemma Clear.nodup_updating (h : Clear cond f tests) (k : ℕ) :
    ((updating cond f scan tests k).map (·.ordinal)).Nodup := by
  rw [updating, map_ordinal_foldl]
  exact scan.nodup_visit_take h.nodup h.new (fun o _ o' _ _ _ heq => h.injective o o' heq) k

lemma foldlM_renumberRow (is : List ℕ)
    (h : ∀ k, (((is.take k).foldl (renumber f) tests).map (·.ordinal)).Nodup) :
    is.foldlM (renumberRow f) tests = .ok (is.foldl (renumber f) tests) := by
  induction is generalizing tests with
  | nil => rfl
  | cons i is ih =>
      have hfirst : renumberRow f tests i = .ok (renumber f tests i) := if_pos (h 1)
      rw [List.foldlM_cons, hfirst]
      exact ih fun k => h (k + 1)

lemma Clear.updateOrdinals (h : Clear cond f tests) :
    ProblemRow.updateOrdinals cond f scan tests = .ok (updated cond f scan tests) :=
  foldlM_renumberRow _ fun k => h.nodup_updating k

/-! ## `deleteSingleTest` -/

/-- The rows without the one that is deleted. -/
def without (ordinal : ℤ) (p : ProblemRow) : List TestRow := p.tests.filter (·.ordinal ≠ ordinal)

/-- The rows after the first `UPDATE`. -/
def negated (scan₁ : Sql.Scan) (ordinal : ℤ) (p : ProblemRow) : List TestRow :=
  updated (· > ordinal) (fun o => -o) scan₁ (p.without ordinal)

/-- The rows after the second. -/
def shifted (scan₁ scan₂ : Sql.Scan) (ordinal : ℤ) (p : ProblemRow) : List TestRow :=
  updated (· < 0) (fun o => -o - 1) scan₂ (p.negated scan₁ ordinal)

lemma map_ordinal_without (ordinal : ℤ) (p : ProblemRow) :
    (p.without ordinal).map (·.ordinal) = p.ordinals.filter (· ≠ ordinal) := by
  rw [without, ordinals, List.filter_map]
  rfl

lemma mem_without {ordinal o : ℤ} (h : p.Numbered)
    (ho : o ∈ (p.without ordinal).map (·.ordinal)) : 1 ≤ o ∧ o ≠ ordinal := by
  rw [map_ordinal_without, h, List.mem_filter, mem_oneTo] at ho
  exact ⟨ho.1.1, by simpa using ho.2⟩

/-- The first `UPDATE` makes ordinals negative, and there are no negative ones. -/
lemma clear_without (h : p.Numbered) (ordinal : ℤ) :
    Clear (· > ordinal) (fun o => -o) (p.without ordinal) where
  nodup := by
    rw [map_ordinal_without, h]
    exact (nodup_oneTo _).filter _
  new o ho _ hmem := by
    have hpos := (mem_without h ho).1
    have hneg := (mem_without h hmem).1
    omega
  injective o o' heq := by omega

lemma map_ordinal_negated (scan₁ : Sql.Scan) (ordinal : ℤ) (p : ProblemRow) :
    (p.negated scan₁ ordinal).map (·.ordinal) =
      ((p.without ordinal).map (·.ordinal)).map fun o => if o > ordinal then -o else o := by
  rw [negated, map_ordinal_updated]
  simp only [decide_eq_true_eq]

/-- The second `UPDATE` moves a negative ordinal to a place where no positive one is left. -/
lemma clear_negated (h : p.Numbered) (scan₁ : Sql.Scan) (ordinal : ℤ) :
    Clear (· < 0) (fun o => -o - 1) (p.negated scan₁ ordinal) where
  nodup := by
    rw [map_ordinal_negated]
    refine (clear_without h ordinal).nodup.map_on fun o ho o' ho' heq => ?_
    have hpos := (mem_without h ho).1
    have hpos' := (mem_without h ho').1
    split_ifs at heq <;> omega
  new o ho hneg hmem := by
    rw [map_ordinal_negated, List.mem_map] at ho hmem
    obtain ⟨x, hx, rfl⟩ := ho
    obtain ⟨y, hy, hxy⟩ := hmem
    obtain ⟨hxpos, -⟩ := mem_without h hx
    obtain ⟨hypos, hyne⟩ := mem_without h hy
    simp only [decide_eq_true_eq] at hneg
    split_ifs at hneg hxy <;> omega
  injective o o' heq := by omega

lemma shift_oneTo {n : ℕ} {d : ℤ} (hd : d ∈ oneTo n) :
    ((oneTo n).filter (· ≠ d)).map (fun o => if o > d then o - 1 else o) = oneTo (n - 1) := by
  induction n with
  | zero => simp [oneTo] at hd
  | succ n ih =>
      obtain ⟨hlow, hhigh⟩ := mem_oneTo.mp hd
      rw [oneTo_succ, List.filter_append, List.map_append, Nat.add_sub_cancel]
      by_cases hlast : d = n + 1
      · subst hlast
        have hkeep : ∀ o ∈ oneTo n, o ≠ (n : ℤ) + 1 := fun o ho => by
          have hle := (mem_oneTo.mp ho).2
          omega
        have hsame : ∀ o ∈ oneTo n, (if o > (n : ℤ) + 1 then o - 1 else o) = o := fun o ho => by
          have hle := (mem_oneTo.mp ho).2
          exact if_neg (by omega)
        rw [List.filter_eq_self.mpr fun o ho => by simpa using hkeep o ho,
          List.map_congr_left hsame]
        simp
      · have hn : 0 < n := by omega
        rw [ih (mem_oneTo.mpr (by omega))]
        have hne : (n : ℤ) + 1 ≠ d := Ne.symm hlast
        have hgt : (n : ℤ) + 1 > d := by omega
        simp only [List.filter_cons, List.filter_nil, ne_eq, hne, not_false_eq_true, decide_true,
          if_true, List.map_cons, List.map_nil, hgt]
        obtain ⟨m, rfl⟩ := Nat.exists_eq_succ_of_ne_zero hn.ne'
        rw [Nat.succ_eq_add_one, Nat.add_sub_cancel, oneTo_succ]
        simp

lemma map_ordinal_shifted (h : p.Numbered) {ordinal : ℤ} (hmem : ordinal ∈ p.ordinals) :
    (p.shifted scan₁ scan₂ ordinal).map (·.ordinal) = oneTo (p.tests.length - 1) := by
  rw [h] at hmem
  rw [shifted, map_ordinal_updated, map_ordinal_negated, List.map_map, ← shift_oneTo hmem, ← h,
    ← map_ordinal_without]
  refine List.map_congr_left fun o ho => ?_
  have hpos := (mem_without h ho).1
  simp only [Function.comp_apply, decide_eq_true_eq]
  split_ifs <;> omega

/-- The two `UPDATE`s always go through. -/
lemma deleteSingleTest_eq (h : p.Numbered) (scan₁ scan₂ : Sql.Scan) (ordinal : ℤ) :
    p.deleteSingleTest scan₁ scan₂ ordinal =
      if ordinal ∉ p.ordinals then .error .notFound
      else if isEvenDistribution p.points p.maxScore then
        .ok (distributeProblemPoints { p with tests := p.shifted scan₁ scan₂ ordinal } p.maxScore)
      else .ok { p with tests := p.shifted scan₁ scan₂ ordinal } := by
  have hall : p.tests.all (·.ordinal ≠ ordinal) = true ↔ ordinal ∉ p.ordinals := by
    simp [ordinals]
  have hfirst : updateOrdinals (· > ordinal) (fun o => -o) scan₁
      (p.tests.filter (·.ordinal ≠ ordinal)) = .ok (p.negated scan₁ ordinal) :=
    (clear_without h ordinal).updateOrdinals
  have hsecond : updateOrdinals (· < 0) (fun o => -o - 1) scan₂ (p.negated scan₁ ordinal) =
      .ok (p.shifted scan₁ scan₂ ordinal) := (clear_negated h scan₁ ordinal).updateOrdinals
  simp only [deleteSingleTest, hall, hfirst]
  by_cases hmem : ordinal ∈ p.ordinals
  · rw [if_neg (not_not.mpr hmem), if_neg (not_not.mpr hmem)]
    simp only [bind, Except.bind, hsecond]
    split_ifs <;> rfl
  · rw [if_pos hmem, if_pos hmem]

lemma deleteSingleTest_numbered (h : p.Numbered) {ordinal : ℤ}
    (hok : p.deleteSingleTest scan₁ scan₂ ordinal = .ok p') : p'.Numbered := by
  rw [deleteSingleTest_eq h] at hok
  split_ifs at hok with hmem heven
  all_goals
    obtain rfl := Except.ok.inj hok
    refine numbered_of_eq (n := p.tests.length - 1) ?_
  · rw [distributeProblemPoints_ordinals]
    exact map_ordinal_shifted h hmem
  · exact map_ordinal_shifted h hmem

lemma deleteSingleTest_ne_uniqueViolation (h : p.Numbered) (scan₁ scan₂ : Sql.Scan) (ordinal : ℤ) :
    p.deleteSingleTest scan₁ scan₂ ordinal ≠ .error .uniqueViolation := by
  rw [deleteSingleTest_eq h]
  split_ifs <;> simp

end ProblemRow

/-! ## The runs -/

lemma TestOp.apply_numbered {sha : List UInt8 → String} {p : ProblemRow} (h : p.Numbered)
    (op : TestOp) : (op.apply sha p).Numbered := by
  unfold TestOp.apply
  split
  · rename_i p' hrun
    cases op with
    | replaceTests ids tests => exact ProblemRow.replaceTests_numbered hrun
    | addSingleTest id input expected points => exact ProblemRow.addSingleTest_numbered h hrun
    | updateSingleTest ordinal input expected points =>
        exact h.of_ordinals_eq (ProblemRow.updateSingleTest_ordinals hrun)
    | updateTestPoints pointsMap => exact h.of_ordinals_eq (ProblemRow.updateTestPoints_ordinals hrun)
    | deleteSingleTest scan₁ scan₂ ordinal => exact ProblemRow.deleteSingleTest_numbered h hrun
  · exact h

lemma numbered_foldl {sha : List UInt8 → String} {p : ProblemRow} (h : p.Numbered)
    (ops : List TestOp) : (ops.foldl (TestOp.apply sha) p).Numbered := by
  induction ops generalizing p with
  | nil => exact h
  | cons op ops ih => exact ih (op.apply_numbered h)

/-- After any calls on a new problem the ordinals are 1 to n; and whichever test is deleted then, and
in whatever orders the two `UPDATE`s visit their rows, no ordinal is there twice after any number of
rows of either, so that the deletion is not refused. -/
theorem ordinals_contiguous (sha : List UInt8 → String) (input : CreateProblemInput)
    (ops : List TestOp) (scan₁ scan₂ : Sql.Scan) (ordinal : ℤ) :
    let p := ops.foldl (TestOp.apply sha) (ProblemRow.create input)
    p.Numbered ∧
      (∀ k, ((ProblemRow.updating (· > ordinal) (fun o => -o) scan₁ (p.without ordinal) k).map
        (·.ordinal)).Nodup) ∧
      (∀ k, ((ProblemRow.updating (· < 0) (fun o => -o - 1) scan₂ (p.negated scan₁ ordinal) k).map
        (·.ordinal)).Nodup) ∧
      p.deleteSingleTest scan₁ scan₂ ordinal ≠ .error .uniqueViolation := by
  intro p
  have hcreate : (ProblemRow.create input).Numbered := rfl
  have hp : p.Numbered := numbered_foldl hcreate ops
  exact ⟨hp, (ProblemRow.clear_without hp ordinal).nodup_updating,
    (ProblemRow.clear_negated hp scan₁ ordinal).nodup_updating,
    ProblemRow.deleteSingleTest_ne_uniqueViolation hp scan₁ scan₂ ordinal⟩

end Problem

end Labyrithm
