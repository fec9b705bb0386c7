import Labyrithm.Judge.Statements

/-!
# What a score row is for

`problem_scores` caches, for each (team, problem) pair, the best submission that counts.  Here is what
that means without reference to how it is computed, and that `recomputeProblemScore` computes it.

* `Consistent k db` — the score row of `k` is absent if and only if nothing counts for `k`, and else
  records the best submission by score, then creation time, then id.
* `consistent_iff` — that is, the row is what `recomputeProblemScore` would insert.
* `ScoringSame` — the part of the store the score of a pair depends on; `Consistent.of_same` is the
  frame rule for it.
-/

namespace Labyrithm

open Sql

/-- The submission `id` is in the store as `r` and counts for the pair `k`. -/
def Counts (db : Db) (k : Pair) (id : Uuid) (r : Submission) : Prop :=
  db.submission id = some r ∧ r.pair = k ∧ r.scoring

/-- Of all submissions that count for `k`, `id` is the best: the highest score, among these the
earliest, among these the least id. -/
def Best (db : Db) (k : Pair) (id : Uuid) (r : Submission) : Prop :=
  Counts db k id r ∧ ∀ id' r', Counts db k id' r' → scoreOrder (id, r) (id', r')

/-- The score row of `k` agrees with the submissions. -/
structure Consistent (k : Pair) (db : Db) : Prop where
  absent : db.problemScore k = none ↔ ∀ id r, ¬ Counts db k id r
  best : ∀ s, db.problemScore k = some s →
    ∃ id r, Best db k id r ∧ s.bestScore = r.score ∧ s.bestSubmissionId = some id ∧
      s.userId = some r.userId ∧ s.updatedAt = r.createdAt

/-- What a row is worth to the pair `k`. -/
def scoringFor (k : Pair) (o : Option Submission) : Option Submission :=
  o.filter fun r => r.pair = k ∧ r.scoring

/-- Nothing that the score of `k` depends on differs between the two stores. -/
structure ScoringSame (k : Pair) (c c' : Db) : Prop where
  rows : ∀ id, scoringFor k (c'.submission id) = scoringFor k (c.submission id)
  score : c'.problemScore k = c.problemScore k

variable {k : Pair} {db c c' c'' : Db} {id id' : Uuid} {r r' : Submission}

/-! ## The order -/

lemma scoreOrder_total (a b : Uuid × Submission) : scoreOrder a b ∨ scoreOrder b a := by
  simp only [scoreOrder, decide_eq_true_eq]
  grind

lemma scoreOrder_trans (a b c : Uuid × Submission) (hab : scoreOrder a b) (hbc : scoreOrder b c) :
    scoreOrder a c := by
  simp only [scoreOrder, decide_eq_true_eq] at *
  grind

/-- Two submissions that tie in everything are one. -/
lemma scoreOrder_antisymm_id {a b : Uuid × Submission} (hab : scoreOrder a b)
    (hba : scoreOrder b a) : a.1 = b.1 := by
  simp only [scoreOrder, decide_eq_true_eq] at *
  grind

/-! ## The best submission -/

lemma counts_iff : Counts db k id r ↔ scoringFor k (db.submission id) = some r := by
  simp only [Counts, scoringFor, Option.filter_eq_some_iff, decide_eq_true_eq]

lemma mem_counting :
    (id, r) ∈ (db.submissions.rows.filter fun p => p.2.pair = k ∧ p.2.scoring) ↔
      Counts db k id r := by
  simp [Counts, Db.submission]

lemma bestSubmission_eq_none : db.bestSubmission k = none ↔ ∀ id r, ¬ Counts db k id r := by
  rw [Db.bestSubmission, first_eq_none, List.eq_nil_iff_forall_not_mem]
  exact ⟨fun h id r hc => h (id, r) (mem_counting.mpr hc), fun h p hp => h p.1 p.2 (mem_counting.mp hp)⟩

lemma bestSubmission_eq_some : db.bestSubmission k = some (id, r) ↔ Best db k id r := by
  rw [Db.bestSubmission, first_eq_some_iff scoreOrder_total scoreOrder_trans, mem_counting, Best]
  · refine and_congr_right fun _ => ⟨fun h id' r' hc => h _ (mem_counting.mpr hc), fun h p hp => ?_⟩
    exact h p.1 p.2 (mem_counting.mp hp)
  · rintro ⟨i, a⟩ ⟨j, b⟩ hab hba ha hb
    obtain rfl : i = j := scoreOrder_antisymm_id hab hba
    have ha := (mem_counting.mp ha).1
    have hb := (mem_counting.mp hb).1
    rw [ha, Option.some.injEq] at hb
    rw [hb]

/-- The score row is right if and only if it is what `recomputeProblemScore` inserts. -/
theorem consistent_iff : Consistent k db ↔ db.problemScore k = (db.bestSubmission k).map scoreRow := by
  constructor
  · intro h
    cases hs : db.problemScore k with
    | none => rw [bestSubmission_eq_none.mpr (h.absent.mp hs), Option.map_none]
    | some s =>
        obtain ⟨id, r, hbest, hscore, hid, huser, hat⟩ := h.best s hs
        rw [bestSubmission_eq_some.mpr hbest, Option.map_some, Option.some.injEq]
        cases s
        simp_all [scoreRow]
  · intro h
    cases hb : db.bestSubmission k with
    | none =>
        rw [hb, Option.map_none] at h
        exact ⟨by simp [h, bestSubmission_eq_none.mp hb], by simp [h]⟩
    | some p =>
        obtain ⟨id, r⟩ := p
        rw [hb, Option.map_some] at h
        have hbest := bestSubmission_eq_some.mp hb
        refine ⟨⟨by simp [h], fun hno => absurd hbest.1 (hno id r)⟩, fun s hs => ⟨id, r, hbest, ?_⟩⟩
        rw [h, Option.some.injEq] at hs
        subst hs
        simp [scoreRow]

/-! ## What the score depends on -/

lemma ScoringSame.refl (k : Pair) (c : Db) : ScoringSame k c c := ⟨fun _ => rfl, rfl⟩

lemma ScoringSame.trans (h : ScoringSame k c c') (h' : ScoringSame k c' c'') :
    ScoringSame k c c'' :=
  ⟨fun id => (h'.rows id).trans (h.rows id), h'.score.trans h.score⟩

lemma ScoringSame.counts (h : ScoringSame k c c') : Counts c' k id r ↔ Counts c k id r := by
  rw [counts_iff, counts_iff, h.rows id]

theorem Consistent.of_same (hc : Consistent k c) (h : ScoringSame k c c') : Consistent k c' := by
  refine ⟨?_, fun s hs => ?_⟩
  · simp only [h.score, hc.absent, h.counts]
  · obtain ⟨id, r, hbest, hrow⟩ := hc.best s (h.score ▸ hs)
    exact ⟨id, r, ⟨h.counts.mpr hbest.1, fun id' r' hc' => hbest.2 id' r' (h.counts.mp hc')⟩, hrow⟩

lemma scoringFor_of_not_scoring (h : r.scoring = false) : scoringFor k (some r) = none := by
  simp [scoringFor, h]

lemma scoringFor_of_pair_ne (h : r.pair ≠ k) : scoringFor k (some r) = none := by
  simp [scoringFor, h]

end Labyrithm
