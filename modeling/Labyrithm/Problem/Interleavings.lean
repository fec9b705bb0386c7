import Labyrithm.Problem.Handlers
import Labyrithm.Problem.RowRules

/-!
# Interleaved edits of one suite

Each of the four calls, walked through once with the rules of `RowRules.lean`: whatever the others
commit in between, what it commits is what it would have done alone, provided that nothing it went by
has changed (`Edit.Undisturbed`).

`AddSingleTest` and `DeleteSingleTest` lock the row of the problem and work on a suite that stays put.
`UpdateSingleTest` and `ReplaceTests` do not: they look first and write later, and what they commit may
be too late for themselves or for one that holds the lock.

* `addSingleTest_does`, `deleteSingleTest_does`, `updateSingleTest_does`, `replaceTests_does`.
* **`edits_serializable`** — a run whose commits are undisturbed is a run of the committed calls one
  after the other, in the order of their commits.
* `edits_race` — two updates at once that leave a content twice.
-/

namespace Labyrithm

namespace Problem

open Sql Tx ProblemRow

variable {sha : List UInt8 → String} {m : ℤ} {e : Edit} {H : List RowLock} {ws : List RowWrite}
  {base c c' : ProblemRow}

lemma Settled.refl (hc : base.Suite sha m) : Settled sha m e base base := ⟨hc, .refl e base, rfl⟩

/-- Commit, with the row of the problem. -/
lemma Working.commits (hW : Working sha m e base H ws c) (hproblem : RowLock.problem ∈ H)
    (hrun : e.UpToDate sha ws c → e.op.run sha c = .ok (view ws c))
    (hunique : (view ws c).ids.Nodup) : (edits sha m).Commits e H ws c := by
  intro others hdisj hguard
  have hrel := hrun hguard.1
  refine ⟨hW.settled.suite.run hrel hunique, hrel, fun o ho l hl => ?_⟩
  cases l with
  | problem => exact absurd hproblem (hdisj o ho _ hl)
  | test id => exact frame_of_locked (e := o.1) hW.locked (hdisj o ho _ hl) c

/-- Nothing. -/
abbrev Whatever {α : Type} : α → Assert ProblemRow RowWrite RowLock := fun _ _ _ _ => True

lemma transaction_does {body : EditHandler Unit} (hc : c.Suite sha m)
    (h : Does sha m e body Whatever [] [] c) : Does sha m e (transaction body) Whatever [] [] c :=
  Attains.transaction hc (Attains.mono h fun _ _ _ _ _ _ _ => trivial)

/-- The ids that a call sees, by their keys. -/
lemma Sees.unique {ks : List (String × ℤ)} (hsees : Sees sha m e base ws ks)
    (hnodup : (ks.map Prod.fst).Nodup) (hset : Settled sha m e base c) : (view ws c).ids.Nodup := by
  rw [view_eq, ids, ids_of_sees hsees hset]
  exact hnodup

/-! ## `AddSingleTest` -/

section Add

variable {id : String} {input expected : List UInt8} {points : ℤ}

/-- The row of the problem is enough: a suite that has lost its tests has another next ordinal. -/
lemma holds_add (hproblem : RowLock.problem ∈ H) :
    Holds sha m (.addSingleTest id input expected points) base H := by
  intro c c' hc hrely
  obtain ⟨hgrounds, hkeys⟩ := hrely.2 .problem hproblem
  have hsuite : c'.Suite sha m := hrely.1
  refine ⟨hsuite, hc.grounds.trans hgrounds, ?_⟩
  rcases hkeys with hkeys | hnil
  · exact hkeys.trans hc.keys
  · have hnext := hgrounds.1
    rw [hsuite.numbered.nextOrdinal_eq, hc.suite.numbered.nextOrdinal_eq, hnil] at hnext
    have hlen : c.tests.length = 0 := by
      rw [List.length_nil] at hnext
      omega
    rw [← hc.keys, hnil, List.length_eq_zero_iff.mp hlen]

/-- The tests with the new one. -/
lemma sees_insert {row : TestRow} (hset : Settled sha m e base c)
    (hord : row.ordinal = c.nextOrdinal) (hfree : ∀ t ∈ c.tests, t.id ≠ row.id) :
    Sees sha m e base [.insert row] (base.tests.map (·.key) ++ [row.key]) ∧
      ((base.tests.map (·.key) ++ [row.key]).map Prod.fst).Nodup ∧
      ((base.tests.map (·.key) ++ [row.key]).map Prod.snd).Pairwise (· ≤ ·) := by
  refine ⟨fun d hd => ?_, ?_, ?_⟩
  · rw [rowsAfter_singleton, ← hd.keys]
    simp [RowWrite.apply]
  · have hids : (base.tests.map (·.key)).map Prod.fst = c.ids := by
      rw [← hset.keys, List.map_map]
      rfl
    rw [List.map_append, hids, List.map_singleton, List.nodup_append]
    refine ⟨hset.suite.unique, by simp, fun a ha b hb hab => ?_⟩
    obtain ⟨t, ht, rfl⟩ := List.mem_map.mp ha
    obtain rfl := List.mem_singleton.mp hb
    exact hfree t ht hab
  · have hords : (base.tests.map (·.key)).map Prod.snd = oneTo c.tests.length := by
      rw [← hset.suite.numbered, ← hset.keys, List.map_map]
      rfl
    have hlast : row.key.2 = (c.tests.length : ℤ) + 1 :=
      hord.trans hset.suite.numbered.nextOrdinal_eq
    rw [List.map_append, hords, List.map_singleton, hlast, ← oneTo_succ]
    exact pairwise_oneTo _

/-- What the call makes of a suite, by what it has gone by. -/
def added (sha : List UInt8 → String) (m : ℤ) (base : ProblemRow) (id : String)
    (input expected : List UInt8) (points : ℤ) (d : ProblemRow) : ProblemRow :=
  if base.shouldAutoDistribute points then
    distributeProblemPoints
      { d with tests := d.tests ++ [testRow sha id base.nextOrdinal input expected 0] } m
  else { d with tests := d.tests ++ [testRow sha id base.nextOrdinal input expected points] }

lemma run_add (hset : Settled sha m (.addSingleTest id input expected points) base c)
    (hneg : ¬ points < 0) (hroom : ¬ base.exceeds points)
    (hnone : c.findIdentical (sha input) (sha expected) none = none) :
    c.addSingleTest sha id input expected points =
      .ok (added sha m base id input expected points c) := by
  obtain ⟨hnext, hauto, hexceeds⟩ := hset.grounds
  rw [addSingleTest_of hset.suite.numbered hneg (mt hexceeds.mp hroom) hnone, hnext, hauto, added,
    ← hset.suite.score]

/-- The end of the call: it commits what it has gone by. -/
lemma finish_add {ks : List (String × ℤ)}
    (hW : Working sha m (.addSingleTest id input expected points) base H ws c)
    (hproblem : RowLock.problem ∈ H) (hneg : ¬ points < 0) (hroom : ¬ base.exceeds points)
    (hnodup : (ks.map Prod.fst).Nodup)
    (hview : ∀ d, Settled sha m (.addSingleTest id input expected points) base d →
      view ws d = added sha m base id input expected points d ∧ (view ws d).ids = ks.map Prod.fst) :
    Does sha m (.addSingleTest id input expected points) finish Whatever H ws c := by
  refine Attains.finish (fun c' hc => ?_) fun _ _ => trivial
  have hW := hW.rely hc
  obtain ⟨hadded, hids⟩ := hview c' hW.settled
  refine hW.commits hproblem (fun hnone => ?_) ?_
  · rw [hadded]
    exact run_add hW.settled hneg hroom hnone
  · rw [hids]
    exact hnodup

/-- From the `INSERT` on. -/
lemma insert_does (hW : Working sha m (.addSingleTest id input expected points) base [.problem] [] c)
    (hneg : ¬ points < 0) (hroom : ¬ base.exceeds points) :
    Does sha m (.addSingleTest id input expected points)
      (do
        insertRow (testRow sha id base.nextOrdinal input expected
          (if base.shouldAutoDistribute points = true then 0 else points))
        if base.shouldAutoDistribute points = true then do
          distributeProblemPointsTx m
          let row ← select fun p => p.tests.find? (·.ordinal = base.nextOrdinal)
          match row with
          | none => throw .noRow
          | some _ => finish
        else finish) Whatever [.problem] [] c := by
  refine insertRow_does fun c₁ c₂ c₃ h₁ h₂ h₃ hfree => ?_
  have hW₂ := ((hW.rely h₁).lock .problem).rely h₂
  have hW₃ := (hW₂.lock _).rely h₃
  generalize hrow : testRow sha id base.nextOrdinal input expected
    (if base.shouldAutoDistribute points = true then 0 else points) = row at hfree hW₃ ⊢
  have hord : row.ordinal = c₃.nextOrdinal := by
    rw [hW₃.settled.grounds.1, ← hrow]
    rfl
  have hput := hW₃.put (w := .insert row) (by simp [RowWrite.id])
  obtain ⟨hsees, hnodup, hsorted⟩ := sees_insert hW₃.settled hord fun t ht => (hfree t ht).1
  by_cases hauto : base.shouldAutoDistribute points = true
  · rw [if_pos hauto] at hrow ⊢
    refine Attains.seq hput.settled.suite (distribute_does hput hsees hnodup hsorted) ?_
    rintro _ H' ws' c₄ - ⟨hW₄, hsub, hview⟩
    refine Attains.select fun c₅ h₅ => ?_
    cases (view ws' c₅).tests.find? (·.ordinal = base.nextOrdinal) with
    | none => exact Attains.throw
    | some _ =>
        refine finish_add (hW₄.rely h₅) (hsub (by simp)) hneg hroom hnodup fun d hd => ?_
        rw [hview d hd, view_eq]
        refine ⟨by rw [added, if_pos hauto, hrow]; rfl, ?_⟩
        rw [ids, map_distributeProblemPoints _ fun _ _ => rfl]
        exact ids_of_sees hsees hd
  · rw [if_neg hauto] at hrow ⊢
    refine finish_add hput (by simp) hneg hroom hnodup fun d hd => ?_
    rw [view_eq]
    exact ⟨by rw [added, if_neg hauto, hrow]; rfl, ids_of_sees hsees hd⟩

theorem addSingleTest_does (hc : c.Suite sha m) :
    Does sha m (.addSingleTest id input expected points)
      (Problem.addSingleTest sha id input expected points) Whatever [] [] c := by
  refine transaction_does hc (Attains.acquire fun base h₀ => ?_)
  have hW : Working sha m (.addSingleTest id input expected points) base [.problem] [] base :=
    ⟨.refl h₀.1, holds_add (by simp), by simp⟩
  refine Attains.select fun c₁ h₁ => Attains.select fun c₂ h₂ => ?_
  have hW₁ := hW.rely h₁
  have hW₂ := hW₁.rely h₂
  rw [view_nil, view_nil, hW₁.settled.suite.score, hW₂.settled.grounds.1]
  by_cases hneg : points < 0
  · rw [if_pos hneg]
    exact Attains.throw
  rw [if_neg hneg]
  refine Attains.select fun c₃ h₃ => ?_
  have hW₃ := hW₂.rely h₃
  have hpoints : (byOrdinal (view [] c₃).tests).map (·.points) = c₃.points := by
    rw [view_nil, hW₃.settled.suite.numbered.byOrdinal_eq]
    rfl
  have hauto : (decide (points ≤ 0) && isEvenDistribution c₃.points m) =
      base.shouldAutoDistribute points := by
    rw [← hW₃.settled.suite.score]
    exact hW₃.settled.grounds.2.1
  rw [hpoints]
  dsimp only
  rw [hauto]
  by_cases hover : (!base.shouldAutoDistribute points) = true ∧ points > 0 ∧
      int32 (c₃.currentSum + points) > m
  · exact (if_pos hover).symm ▸ Attains.throw
  refine (if_neg hover).symm ▸ Attains.select fun c₄ h₄ => ?_
  cases (view [] c₄).findIdentical (sha input) (sha expected) none with
  | some t => exact Attains.throw
  | none =>
      refine insert_does (hW₃.rely h₄) hneg fun hexceeds => hover ?_
      obtain ⟨hpos, hgt⟩ := hW₃.settled.grounds.2.2.mpr hexceeds
      rw [hW₃.settled.suite.score] at hgt
      have hgiven : ¬ points ≤ 0 := not_le.mpr hpos
      exact ⟨by simp [shouldAutoDistribute, hgiven], hpos, hgt⟩

end Add

/-! ## `DeleteSingleTest` -/

section Delete

variable {scan₁ scan₂ : Scan} {ordinal : ℤ} {u : TestRow}

lemma Settled.ids_eq (h : Settled sha m e base c) : c.ids = base.ids := by
  have hids := congrArg (List.map Prod.fst) h.keys
  rw [List.map_map, List.map_map] at hids
  exact hids

lemma Settled.ordinals_eq (h : Settled sha m e base c) : c.ordinals = base.ordinals := by
  have hordinals := congrArg (List.map Prod.snd) h.keys
  rw [List.map_map, List.map_map] at hordinals
  exact hordinals

/-- The row of the problem and the row of one test are enough: the suite has not lost that test. -/
lemma holds_delete (hproblem : RowLock.problem ∈ H) (hrow : RowLock.test u.id ∈ H)
    (hu : u ∈ base.tests) : Holds sha m (.deleteSingleTest scan₁ scan₂ ordinal) base H := by
  intro c c' hc hrely
  obtain ⟨hgrounds, hkeys⟩ := hrely.2 .problem hproblem
  refine ⟨hrely.1, hc.grounds.trans hgrounds, ?_⟩
  rcases hkeys with hkeys | hnil
  · exact hkeys.trans hc.keys
  · exfalso
    have hsame : rowWith u.id c'.tests = rowWith u.id c.tests := hrely.2 (.test u.id) hrow
    have hmem : u.id ∈ c.ids := hc.ids_eq ▸ List.mem_map_of_mem hu
    obtain ⟨t, ht, hid⟩ := List.mem_map.mp hmem
    rw [hnil, rowWith_of_mem hc.suite.unique ht hid] at hsame
    cases hsame

/-- The tests without the one that is deleted. -/
lemma sees_delete (id : String) :
    Sees sha m e base [.delete id] ((base.tests.map (·.key)).filter (·.1 ≠ id)) := by
  intro d hd
  rw [rowsAfter_singleton, ← hd.keys, List.filter_map]
  rfl

/-- What an `UPDATE` of the ordinals makes of a key. -/
def rekey (cond : ℤ → Bool) (f : ℤ → ℤ) (k : String × ℤ) : String × ℤ :=
  (k.1, if cond k.2 then f k.2 else k.2)

lemma Sees.renumber {ks : List (String × ℤ)} {ws' : List RowWrite} {cond : ℤ → Bool} {f : ℤ → ℤ}
    (hsees : Sees sha m e base ws ks)
    (hrows : ∀ d, Settled sha m e base d →
      rowsAfter ws' d.tests = (rowsAfter ws d.tests).map (renumberIf cond f)) :
    Sees sha m e base ws' (ks.map (rekey cond f)) := by
  intro d hd
  rw [hrows d hd, ← hsees d hd, List.map_map, List.map_map]
  refine List.map_congr_left fun t _ => ?_
  simp only [Function.comp_apply, renumberIf, TestRow.key, rekey]
  split_ifs <;> rfl

lemma map_fst_rekey (ks : List (String × ℤ)) (cond : ℤ → Bool) (f : ℤ → ℤ) :
    (ks.map (rekey cond f)).map Prod.fst = ks.map Prod.fst := by
  rw [List.map_map]
  rfl

/-- The row with the id is the row with the ordinal. -/
lemma rows_without (hset : Settled sha m e base c) (hu : u ∈ base.tests) (hord : u.ordinal = ordinal) :
    rowsAfter [.delete u.id] c.tests = c.without ordinal := by
  have hkey : u.key ∈ c.tests.map (·.key) := hset.keys ▸ List.mem_map_of_mem hu
  obtain ⟨v, hv, hvkey⟩ := List.mem_map.mp hkey
  obtain ⟨hvid, hvord⟩ := Prod.mk.inj hvkey
  refine List.filter_congr fun t ht => ?_
  have hiff : t.id = u.id ↔ t.ordinal = ordinal := by
    constructor
    · intro hid
      rw [List.inj_on_of_nodup_map hset.suite.unique ht hv (hid.trans hvid.symm), hvord, hord]
    · intro hto
      rw [hset.suite.numbered.inj ht hv (hto.trans (hvord.trans hord).symm), hvid]
  simp only [ne_eq, hiff]

/-- What the call makes of a suite, by what it has gone by. -/
def removed (m : ℤ) (wasEven : Bool) (scan₁ scan₂ : Scan) (ordinal : ℤ) (d : ProblemRow) : ProblemRow :=
  if wasEven then distributeProblemPoints { d with tests := d.shifted scan₁ scan₂ ordinal } m
  else { d with tests := d.shifted scan₁ scan₂ ordinal }

/-- The end of the call: it commits what it has gone by. -/
lemma finish_delete {ks : List (String × ℤ)}
    (hW : Working sha m (.deleteSingleTest scan₁ scan₂ ordinal) base H ws c)
    (hproblem : RowLock.problem ∈ H) (hmem : ordinal ∈ base.ordinals) (hnodup : (ks.map Prod.fst).Nodup)
    (hview : ∀ d, Settled sha m (.deleteSingleTest scan₁ scan₂ ordinal) base d →
      view ws d = removed m (isEvenDistribution base.points base.maxScore) scan₁ scan₂ ordinal d ∧
        (view ws d).ids = ks.map Prod.fst) :
    Does sha m (.deleteSingleTest scan₁ scan₂ ordinal) finish Whatever H ws c := by
  refine Attains.finish (fun c' hc => ?_) fun _ _ => trivial
  have hW := hW.rely hc
  obtain ⟨hremoved, hids⟩ := hview c' hW.settled
  refine hW.commits hproblem (fun _ => ?_) ?_
  · have heven : isEvenDistribution c'.points c'.maxScore =
        isEvenDistribution base.points base.maxScore := hW.settled.grounds
    show c'.deleteSingleTest scan₁ scan₂ ordinal = _
    rw [deleteSingleTest_eq hW.settled.suite.numbered, if_neg, heven, hremoved, removed,
      hW.settled.suite.score]
    · split_ifs <;> rfl
    · rw [hW.settled.ordinals_eq]
      exact not_not.mpr hmem
  · rw [hids]
    exact hnodup

/-- From the `DELETE` on. -/
lemma delete_does
    (hW : Working sha m (.deleteSingleTest scan₁ scan₂ ordinal) base [.test u.id, .problem] [] base)
    (hu : u ∈ base.tests) (hord : u.ordinal = ordinal) :
    Does sha m (.deleteSingleTest scan₁ scan₂ ordinal)
      (do
        put (.delete u.id)
        updateRows scan₁ (·.ordinal > ordinal) (writeOrdinal fun o => -o)
        updateRows scan₂ (·.ordinal < 0) (writeOrdinal fun o => -o - 1)
        if isEvenDistribution base.points base.maxScore = true then do
          distributeProblemPointsTx m
          finish
        else finish) Whatever [.test u.id, .problem] [] base := by
  have hmem : ordinal ∈ base.ordinals := hord ▸ List.mem_map_of_mem hu
  have hunique : ((base.tests.map (·.key)).map Prod.fst).Nodup := by
    rw [List.map_map]
    exact hW.settled.suite.unique
  have hnodup : (((base.tests.map (·.key)).filter (·.1 ≠ u.id)).map Prod.fst).Nodup :=
    hunique.sublist (List.filter_sublist.map _)
  refine Attains.put ?_
  have hW₁ := hW.put (w := .delete u.id) (by simp [RowWrite.id])
  have hsees₁ : Sees sha m (.deleteSingleTest scan₁ scan₂ ordinal) base ([] ++ [.delete u.id]) _ :=
    sees_delete u.id
  refine Attains.seq hW₁.settled.suite
    (renumber_does (· > ordinal) (fun o => -o) hW₁ hsees₁ hnodup) ?_
  rintro _ H₂ ws₂ c₂ - ⟨hW₂, hsub₂, hrows₂⟩
  have hsees₂ := hsees₁.renumber hrows₂
  rw [← map_fst_rekey _ (· > ordinal) fun o => -o] at hnodup
  refine Attains.seq hW₂.settled.suite
    (renumber_does (· < 0) (fun o => -o - 1) hW₂ hsees₂ hnodup) ?_
  rintro _ H₃ ws₃ c₃ - ⟨hW₃, hsub₃, hrows₃⟩
  rw [← map_fst_rekey _ (· < 0) fun o => -o - 1] at hnodup
  have hsees₃ := hsees₂.renumber hrows₃
  have hproblem : RowLock.problem ∈ H₃ := hsub₃ (hsub₂ (by simp))
  have hshifted : ∀ d, Settled sha m (.deleteSingleTest scan₁ scan₂ ordinal) base d →
      rowsAfter ws₃ d.tests = d.shifted scan₁ scan₂ ordinal := by
    intro d hd
    rw [hrows₃ d hd, hrows₂ d hd, List.nil_append, rows_without hd hu hord, shifted, negated,
      updated_eq_map, updated_eq_map]
  have hids : ∀ d, Settled sha m (.deleteSingleTest scan₁ scan₂ ordinal) base d →
      (view ws₃ d).ids = _ := fun d hd => by rw [view_eq, ids, ids_of_sees hsees₃ hd]
  by_cases heven : isEvenDistribution base.points base.maxScore = true
  · have hsorted := hsees₃ base hW.settled
    rw [hshifted base hW.settled] at hsorted
    rw [if_pos heven]
    refine Attains.seq hW₃.settled.suite (distribute_does hW₃ hsees₃ hnodup ?_) ?_
    · rw [← hsorted, List.map_map]
      show ((base.shifted scan₁ scan₂ ordinal).map (·.ordinal)).Pairwise (· ≤ ·)
      rw [map_ordinal_shifted hW.settled.suite.numbered hmem]
      exact pairwise_oneTo _
    · rintro _ H₄ ws₄ c₄ - ⟨hW₄, hsub₄, hview⟩
      refine finish_delete hW₄ (hsub₄ hproblem) hmem hnodup fun d hd => ?_
      rw [hview d hd]
      refine ⟨?_, ?_⟩
      · rw [view_eq, hshifted d hd, removed, if_pos heven]
      · rw [ids, map_distributeProblemPoints _ fun _ _ => rfl]
        exact hids d hd
  · rw [if_neg heven]
    refine finish_delete hW₃ hproblem hmem hnodup fun d hd => ⟨?_, hids d hd⟩
    rw [view_eq, hshifted d hd, removed, if_neg heven]

theorem deleteSingleTest_does (hc : c.Suite sha m) :
    Does sha m (.deleteSingleTest scan₁ scan₂ ordinal)
      (Problem.deleteSingleTest scan₁ scan₂ ordinal) Whatever [] [] c := by
  refine transaction_does hc (Attains.acquire fun c₀ h₀ => ?_)
  refine Attains.select fun c₁ h₁ => Attains.select fun c₂ h₂ => ?_
  have hscore : (view [] c₁).maxScore = m := Suite.score h₁.1
  have hpoints : (byOrdinal (view [] c₂).tests).map (·.points) = c₂.points := by
    rw [view_nil, (Suite.numbered h₂.1).byOrdinal_eq]
    rfl
  rw [hscore, hpoints]
  refine lockRow_does (fun _ _ _ => Attains.throw) fun t base' c₄ base h₃ _ h₄ h₅ => ?_
  cases hrow : (view [] base).tests.find? fun u => u.id = t.id && decide (u.ordinal = ordinal) with
  | none => exact Attains.throw
  | some u =>
      obtain ⟨hu, hid, hord⟩ := recheck_some hrow
      have hord : u.ordinal = ordinal := of_decide_eq_true hord
      rw [← hid]
      have heven : isEvenDistribution c₂.points m =
          isEvenDistribution base.points base.maxScore := by
        have hrely : Relies sha m (.deleteSingleTest scan₁ scan₂ ordinal) [.problem] c₂ base :=
          (h₃.trans h₄).trans (Relies.mono h₅ (by simp))
        have hgrounds : isEvenDistribution base.points base.maxScore =
            isEvenDistribution c₂.points c₂.maxScore := (hrely.2 .problem (by simp)).1
        rw [hgrounds, Suite.score h₂.1]
      rw [heven]
      have hbase : base.Suite sha m := h₅.1
      exact delete_does ⟨.refl hbase, holds_delete (by simp) (by simp) hu, by simp⟩ hu hord

end Delete

/-! ## `UpdateSingleTest` -/

section Update

variable {ordinal : ℤ} {input expected : Option (List UInt8)} {points : Option ℤ} {t : TestRow}

/-- The call finds its row by the ordinal as by the id. -/
lemma find_ordinal (hc : c.Suite sha m) (hmine : rowWith t.id c.tests = some t)
    (hord : t.ordinal = ordinal) : c.tests.find? (·.ordinal = ordinal) = some t := by
  have ht := (rowWith_some hmine).1
  cases hfind : c.tests.find? (·.ordinal = ordinal) with
  | none => exact absurd hord (by simpa using List.find?_eq_none.mp hfind t ht)
  | some v =>
      have hvord : v.ordinal = ordinal := by simpa using List.find?_some hfind
      rw [hc.numbered.inj (List.mem_of_find?_eq_some hfind) ht (hvord.trans hord.symm)]

/-- The row of the call in a suite, with its new content. -/
lemma setContent_eq {content : TestRow} (hc : c.Suite sha m) (hmine : rowWith t.id c.tests = some t)
    (hord : t.ordinal = ordinal) (hid : content.id = t.id) (hordinal : content.ordinal = ordinal) :
    rowsAfter [.setContent t.id content] c.tests =
      c.tests.map fun u => if u.ordinal = ordinal then content else u := by
  have ht := (rowWith_some hmine).1
  refine List.map_congr_left fun u hu => ?_
  by_cases huo : u.ordinal = ordinal
  · obtain rfl := hc.numbered.inj hu ht (huo.trans hord.symm)
    rw [if_pos rfl, if_pos huo]
    obtain ⟨_, _, _, _, _, _, _⟩ := content
    simp_all [TestRow.withContent]
  · have hui : u.id ≠ t.id := fun hui =>
      huo (List.inj_on_of_nodup_map hc.unique hu ht hui ▸ hord)
    rw [if_neg hui, if_neg huo]

lemma map_key_setContent (id : String) (content : TestRow) (tests : List TestRow) :
    (rowsAfter [.setContent id content] tests).map (·.key) = tests.map (·.key) := by
  simp only [rowsAfter_singleton, RowWrite.apply, modifyRow, List.map_map]
  refine List.map_congr_left fun u _ => ?_
  simp only [Function.comp_apply]
  split_ifs <;> rfl

/-- Commit: the others that hold the row of the problem are the condition's business. -/
lemma update_commits (hc : c.Suite sha m) (hmine : rowWith t.id c.tests = some t)
    (hord : t.ordinal = ordinal) (hneg : ¬ ∃ n ∈ points, n < 0) (hlock : RowLock.test t.id ∈ H) :
    (edits sha m).Commits (.updateSingleTest ordinal input expected points) H
      [.setContent t.id (testRow sha t.id ordinal (input.getD t.input) (expected.getD t.expected)
        (points.getD t.points))] c := by
  intro others hdisj hguard
  generalize hcontent : testRow sha t.id ordinal (input.getD t.input) (expected.getD t.expected)
    (points.getD t.points) = content at hguard ⊢
  have hfind := find_ordinal hc hmine hord
  have hkeys := map_key_setContent t.id content c.tests
  have hrun : c.updateSingleTest sha ordinal input expected points =
      .ok (view [.setContent t.id content] c) := by
    rw [updateSingleTest_of hfind hneg (hguard.1 t hfind), view_eq,
      setContent_eq hc hmine hord (hcontent ▸ rfl) (hcontent ▸ rfl), hcontent]
  refine ⟨hc.run (e := .updateSingleTest ordinal input expected points) hrun ?_, hrun,
    fun o ho l hl => ?_⟩
  · have hids := congrArg (List.map Prod.fst) hkeys
    rw [List.map_map, List.map_map] at hids
    rw [view_eq]
    show ((rowsAfter [.setContent t.id content] c.tests).map (Prod.fst ∘ TestRow.key)).Nodup
    rw [hids]
    exact hc.unique
  · cases l with
    | problem =>
        refine ⟨hguard.2 o ho hl, .inl ?_⟩
        rw [view_eq]
        exact hkeys
    | test id =>
        exact frame_of_locked (e := o.1) (by simpa [RowWrite.id] using hlock) (hdisj o ho _ hl) c

theorem updateSingleTest_does (hc : c.Suite sha m) :
    Does sha m (.updateSingleTest ordinal input expected points)
      (Problem.updateSingleTest sha ordinal input expected points) Whatever [] [] c := by
  refine transaction_does hc (lockRow_does (fun _ _ _ => Attains.throw) fun v c₁ c₂ c₃ _ _ _ h₃ => ?_)
  cases hrow : (view [] c₃).tests.find? fun u => u.id = v.id && decide (u.ordinal = ordinal) with
  | none => exact Attains.throw
  | some t =>
      obtain ⟨hin, hid, hord⟩ := recheck_some hrow
      have hord : t.ordinal = ordinal := of_decide_eq_true hord
      rw [← hid]
      have hc₃ : c₃.Suite sha m := h₃.1
      have hmine : rowWith t.id c₃.tests = some t := rowWith_of_mem hc₃.unique hin rfl
      -- the row is the call's from here on
      have hkeep : ∀ {H a b}, RowLock.test t.id ∈ H → rowWith t.id a.tests = some t →
          Relies sha m (.updateSingleTest ordinal input expected points) H a b →
          rowWith t.id b.tests = some t := by
        intro H a b hlock ha hab
        have hframe : rowWith t.id b.tests = rowWith t.id a.tests := hab.2 (.test t.id) hlock
        exact hframe.trans ha
      dsimp only
      by_cases hneg : ∃ n ∈ points, n < 0
      · rw [if_pos hneg]
        exact Attains.throw
      rw [if_neg hneg]
      refine Attains.select fun c₄ h₄ => ?_
      have hmine₄ := hkeep (by simp) hmine h₄
      split
      · exact Attains.throw
      refine lockRow_does (fun _ _ _ => Attains.throw) fun w c₅ c₆ c₇ h₅ hfound h₆ h₇ => ?_
      have hmine₅ := hkeep (by simp) hmine₄ h₅
      obtain rfl : t = w := Option.some.inj ((find_ordinal h₅.1 hmine₅ hord).symm.trans hfound)
      have hmine₇ := hkeep (by simp) (hkeep (by simp) hmine₅ h₆) h₇
      cases hagain : (view [] c₇).tests.find? fun u => u.id = t.id && decide (u.ordinal = ordinal) with
      | none => exact Attains.throw
      | some w =>
          have hwid : w.id = t.id := (recheck_some hagain).2.1
          refine Attains.put (Attains.finish (fun c₈ h₈ => ?_) fun _ _ => trivial)
          rw [hwid]
          exact update_commits h₈.1 (hkeep (by simp) hmine₇ h₈) hord hneg (by simp)

end Update

/-! ## `ReplaceTests` -/

section Replace

variable {scan : Scan} {ids : ℕ → String} {tests : List TestInput}

/-- The `DELETE` deletes some rows. -/
lemma clear_does :
    Does sha m e (updateRows scan (fun _ => true) fun t => put (.delete t.id))
      (fun _ H' ws' _ => (∃ dels : List String, ws' = dels.map .delete) ∧
        ∀ w ∈ ws', RowLock.test w.id ∈ H') H [] c := by
  let J : List String → List String → Assert ProblemRow RowWrite RowLock := fun _ _ H' ws' _ =>
    (∃ dels : List String, ws' = dels.map .delete) ∧ ∀ w ∈ ws', RowLock.test w.id ∈ H'
  refine Attains.select fun c₁ h₁ => ?_
  refine Attains.seq h₁.1 (Attains.forEach (J := J) (fun _ _ _ _ _ h _ => h) ?_ [] h₁.1
    ⟨⟨[], rfl⟩, by simp⟩) fun _ _ _ _ _ h => Attains.pure fun _ _ => h
  rintro _ id _ H' ws' c₂ - ⟨⟨dels, rfl⟩, hlocked⟩
  refine recheck_does fun c₃ c₄ _ _ => ?_
  have hmore : ∀ w ∈ dels.map RowWrite.delete, RowLock.test w.id ∈ RowLock.test id :: H' :=
    fun w hw => List.mem_cons_of_mem _ (hlocked w hw)
  cases hrow : (view (dels.map RowWrite.delete) c₄).tests.find? fun t => t.id = id && true with
  | none => exact Attains.pure fun _ _ => ⟨⟨dels, rfl⟩, hmore⟩
  | some t =>
      have hid : t.id = id := (recheck_some hrow).2.1
      refine fun _ _ _ _ => ⟨⟨dels ++ [t.id], by simp⟩, fun w hw => ?_⟩
      rcases List.mem_append.mp hw with hw | hw
      · exact hmore w hw
      · rw [List.mem_singleton.mp hw, RowWrite.id, hid]
        exact List.mem_cons_self

lemma rowsAfter_insert (rows tests : List TestRow) :
    rowsAfter (rows.map .insert) tests = tests ++ rows := by
  induction rows generalizing tests with
  | nil => rw [List.map_nil, rowsAfter_nil, List.append_nil]
  | cons row rows ih =>
      show rowsAfter (rows.map .insert) (tests ++ [row]) = _
      rw [ih, List.append_assoc]
      rfl

/-- Nothing is left where every row is deleted. -/
lemma rowsAfter_delete {dels : List String} {tests : List TestRow} (h : ∀ t ∈ tests, t.id ∈ dels) :
    rowsAfter (dels.map .delete) tests = [] := by
  induction dels generalizing tests with
  | nil => exact List.eq_nil_iff_forall_not_mem.mpr fun t ht => by simpa using h t ht
  | cons id dels ih =>
      refine ih fun t ht => ?_
      obtain ⟨hmem, hne⟩ := List.mem_filter.mp ht
      exact (List.mem_cons.mp (h t hmem)).resolve_left (by simpa using hne)

lemma insertTests_cons {t : TestInput} {ts : List TestInput} {i : ℕ} {seenHashes : List (String × ℕ)}
    {rows rows' : List TestRow}
    (hlookup : seenHashes.lookup (sha t.input ++ ":" ++ sha t.expected) = none)
    (hinsert : ProblemRow.insertTest (testRow sha (ids i) (i + 1) t.input t.expected t.points) rows = .ok rows') :
    insertTests sha ids (t :: ts) i seenHashes rows =
      insertTests sha ids ts (i + 1) ((sha t.input ++ ":" ++ sha t.expected, i) :: seenHashes) rows' := by
  rw [insertTests]
  simp only [hlookup, hinsert]

/-- In the middle of the loop: the rows so far are those that the call would have made alone. -/
structure Filling (dels : List String) (rows : List TestRow) (H : List RowLock) (ws : List RowWrite) :
    Prop where
  writes : ws = dels.map .delete ++ rows.map .insert
  locked : ∀ w ∈ ws, RowLock.test w.id ∈ H
  unique : (rows.map (·.id)).Nodup
  problem : rows ≠ [] → RowLock.problem ∈ H

lemma insertRows_does {dels : List String} {all : List TestInput} (ts : List TestInput) {i : ℕ}
    {seenHashes : List (String × ℕ)} {rows : List TestRow} (h : Filling dels rows H ws)
    (hc : c.Suite sha m) (hords : rows.map (·.ordinal) = oneTo i)
    (hall : insertTests sha ids all 0 [] [] = insertTests sha ids ts i seenHashes rows) :
    Does sha m e (insertRows sha ids ts i seenHashes)
      (fun _ H' ws' _ => ∃ rows', insertTests sha ids all 0 [] [] = .ok rows' ∧
        Filling dels rows' H' ws') H ws c := by
  induction ts generalizing i seenHashes rows H ws c with
  | nil => exact Attains.pure fun _ _ => ⟨rows, hall, h⟩
  | cons t ts ih =>
      unfold insertRows
      dsimp only
      split
      · exact Attains.throw
      rename_i hlookup
      refine insertRow_does fun c₁ c₂ c₃ _ _ h₃ hfree => ?_
      generalize hrow : testRow sha (ids i) (i + 1) t.input t.expected t.points = row at hfree ⊢
      have hord : row.ordinal = i + 1 := hrow ▸ rfl
      have hinsert : ProblemRow.insertTest row rows = .ok (rows ++ [row]) := by
        refine if_neg ?_
        simp only [List.any_eq_true, decide_eq_true_eq, not_exists, not_and]
        intro u hu heq
        have hmem : u.ordinal ∈ oneTo i := hords ▸ List.mem_map_of_mem hu
        have hle := (mem_oneTo.mp hmem).2
        omega
      have hnext : insertTests sha ids all 0 [] [] = insertTests sha ids ts (i + 1)
          ((sha t.input ++ ":" ++ sha t.expected, i) :: seenHashes) (rows ++ [row]) :=
        hall.trans (insertTests_cons hlookup (by rw [hrow, hinsert]))
      refine ih ⟨?_, fun w hw => ?_, ?_, fun _ => by simp⟩ h₃.1 ?_ hnext
      · rw [h.writes]
        simp
      · rcases List.mem_append.mp hw with hw | hw
        · exact List.mem_cons_of_mem _ (List.mem_cons_of_mem _ (h.locked w hw))
        · rw [List.mem_singleton.mp hw]
          exact List.mem_cons_self
      · rw [List.map_append, List.nodup_append]
        refine ⟨h.unique, by simp, fun a ha b hb hab => ?_⟩
        obtain ⟨u, hu, rfl⟩ := List.mem_map.mp ha
        obtain rfl := List.mem_singleton.mp hb
        refine (hfree u ?_).1 hab
        rw [view_eq, h.writes, rowsAfter_append, rowsAfter_insert]
        exact List.mem_append_right _ hu
      · rw [List.map_append, hords, oneTo_succ, ← hord]
        rfl

/-- Commit: the rows there are now are the new ones alone. -/
lemma replace_commits {dels : List String} {rows : List TestRow} (hc : c.Suite sha m)
    (hvalid : validateTestPoints tests m = .ok ())
    (hrows : insertTests sha ids (distributePoints tests m) 0 [] [] = .ok rows)
    (h : Filling dels rows H ws) : (edits sha m).Commits (.replaceTests scan ids tests) H ws c := by
  intro others hdisj hguard
  have hdels : ∀ t ∈ c.tests, t.id ∈ dels := by
    intro t ht
    have hmem : RowWrite.delete t.id ∈ ws := hguard.1 t ht
    rw [h.writes] at hmem
    simpa using hmem
  have hview : view ws c = { c with tests := rows } := by
    rw [view_eq, h.writes, rowsAfter_append, rowsAfter_delete hdels, rowsAfter_insert]
    rfl
  have hrun : c.replaceTests sha ids tests = .ok (view ws c) := by
    rw [hview]
    exact replaceTests_of (hc.score ▸ hvalid) (hc.score ▸ hrows)
  refine ⟨hc.run (e := .replaceTests scan ids tests) hrun (hview ▸ h.unique), hrun,
    fun o ho l hl => ?_⟩
  cases l with
  | problem =>
      refine ⟨hguard.2 o ho hl, .inr ?_⟩
      rw [hview]
      by_contra hne
      exact hdisj o ho _ hl (h.problem hne)
  | test id => exact frame_of_locked (e := o.1) h.locked (hdisj o ho _ hl) c

theorem replaceTests_does (hc : c.Suite sha m) :
    Does sha m (.replaceTests scan ids tests) (Problem.replaceTests sha scan ids tests) Whatever
      [] [] c := by
  refine transaction_does hc (Attains.select fun c₁ h₁ => ?_)
  have hscore : (view [] c₁).maxScore = m := Suite.score h₁.1
  rw [hscore]
  split
  · exact Attains.throw
  rename_i hvalid
  refine Attains.seq h₁.1 clear_does ?_
  rintro _ H₂ ws₂ c₂ hc₂ ⟨⟨dels, hwrites⟩, hlocked⟩
  have hstart : Filling dels [] H₂ ws₂ := ⟨by simpa using hwrites, hlocked, by simp, by simp⟩
  refine Attains.seq hc₂ (insertRows_does _ hstart hc₂ rfl rfl) ?_
  rintro _ H₃ ws₃ c₃ - ⟨rows, hrows, hfilled⟩
  exact Attains.finish (fun c₄ h₄ => replace_commits h₄.1 hvalid hrows hfilled) fun _ _ => trivial

end Replace

/-! ## Runs -/

/-- Every call does what is agreed on. -/
theorem edits_kept (sha : List UInt8 → String) (m : ℤ) : (edits sha m).Kept (Edit.prog sha) := by
  intro e c hc
  have hdoes : Does sha m e (e.handler sha) Whatever [] [] c := by
    cases e with
    | addSingleTest => exact addSingleTest_does hc
    | updateSingleTest => exact updateSingleTest_does hc
    | replaceTests => exact replaceTests_does hc
    | deleteSingleTest => exact deleteSingleTest_does hc
  exact Follows.mono hdoes fun _ _ _ _ _ => trivial

/-- In a run whose commits come too late for nobody, the suite is at every point what the calls that
were committed make of it one after the other; its ordinals are 1 to n, and no content is there twice if
none was before. -/
theorem edits_serializable (sha : List UInt8 → String) (p : ProblemRow) (hp : p.Suite sha p.maxScore)
    {s : Editing}
    (hs : Go.ReachIf (Sys.move (Edit.prog sha)) (Sys.Allowed (Edit.Undisturbed sha)) (Sys.idle p) s) :
    Serializable sha p s ∧ s.db.Numbered ∧ (p.Distinct → s.db.Distinct) := by
  let P : ProblemRow → List Edit → Prop := fun c ops =>
    ops.foldlM (fun p e => e.op.run sha p) p = .ok c ∧ (p.Distinct → c.Distinct)
  have hserial := (edits sha p.maxScore).serial (edits_kept sha p.maxScore) (P := P) hp ⟨rfl, id⟩
    (fun ops e c c' ⟨hops, hd⟩ hc _ hrel => ⟨?_, fun hp => hc.run_distinct (hd hp) hrel⟩) hs
  · obtain ⟨hsuite, hrun, hdistinct⟩ := hserial
    exact ⟨⟨s.committed, .refl _, hrun⟩, hsuite.numbered, hdistinct⟩
  · have hlast : e.op.run sha c = .ok c' := hrel
    rw [List.foldlM_append, hops]
    simp only [List.foldlM_cons, List.foldlM_nil, bind_pure]
    exact hlast

/-! ## Samples -/

/-- Two tests worth 50 points each. -/
def sampleSuite : ProblemRow where
  slug := "two-sum"
  timeLimitMs := 1000
  memoryLimitMb := 64
  maxScore := 100
  published := false
  samples := []
  tests := [testRow sampleSha "a" 1 [49] [50] 50, testRow sampleSha "b" 2 [51] [52] 50]

/-- A test gets a content, in a suite that has it not. -/
def sampleUpdate (ordinal : ℤ) : Edit := .updateSingleTest ordinal (some [53]) (some [54]) none

/-- A call begins, and another one; the second goes on while the first waits, and then the first. -/
def twoCalls (e₁ e₂ : Edit) (n k l : ℕ) : List (Sys.Action Edit) :=
  [.start e₁, .start e₂] ++ List.replicate n (.advance 0) ++ List.replicate k (.advance 1) ++
    List.replicate l (.advance 0)

lemma sample_suite : sampleSuite.Suite sampleSha 100 :=
  ⟨rfl, by decide, by decide, by decide⟩

/-- A test is added while another gets a new content: it waits for the row of that one, to give it its
new share. -/
theorem edits_serializable_sample :
    let s : Editing := (Go.runIf (Sys.move (Edit.prog sampleSha))
      (Sys.Allowed (Edit.Undisturbed sampleSha))
      (twoCalls (sampleUpdate 1) (.addSingleTest "c" [55] [56] 0) 4 11 20)
      (Sys.idle sampleSuite)).getD (Sys.idle sampleSuite)
    s.sessions.length = 0 ∧ s.committed.length = 2 ∧
      Serializable sampleSha sampleSuite s ∧ s.db.Numbered ∧
        (sampleSuite.Distinct → s.db.Distinct) :=
  ⟨by decide +kernel, by decide +kernel,
    edits_serializable sampleSha sampleSuite sample_suite (Go.ReachIf.runIf_getD _)⟩

/-- Two tests are given the same content at once, and each call looks for it before the other one has
written it. -/
theorem edits_race : ∃ s, Go.Reach (Sys.move (Edit.prog sampleSha)) (Sys.idle sampleSuite) s ∧
    s.sessions.length = 0 ∧ sampleSuite.Suite sampleSha 100 ∧ sampleSuite.Distinct ∧ ¬ s.db.Distinct ∧
      ¬ Serializable sampleSha sampleSuite s :=
  ⟨_, Go.Reach.run_getD (twoCalls (sampleUpdate 1) (sampleUpdate 2) 8 10 2), by decide +kernel,
    sample_suite, by decide, by decide +kernel, by decide +kernel⟩

end Problem

end Labyrithm
