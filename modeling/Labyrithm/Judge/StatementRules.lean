import Labyrithm.Judge.Locking

/-!
# One rule for each statement

What the statements of `Statements.lean` do to the assertion `Ok`, whoever else is running.

* `updateRow_ensures` — an update leaves the score of the row's pair and the tests of the row to be
  settled, and can break no unique index.
* `updateSubmissions_ensures` — the same for all rows of the statement.
* `recomputeProblemScore_ensures`, `reconcile_ensures` — the bookkeeping settles them.
-/

namespace Labyrithm

open Sql Tx

/-- The unique index an error comes from. -/
def JudgeError.constraint : JudgeError → Option Constraint
  | sql _ (.uniqueViolation c) => some c
  | _ => none

/-- The error is not a collision that the locks rule out. -/
def Harmless (e : JudgeError) : Prop :=
  e.constraint ≠ some .activeTeamProblem ∧ e.constraint ≠ some .problemScoresPkey

variable {hash : Hash} {op : Op} {D : Pair → Prop} {E : Uuid → Prop}
  {S : List (Uuid × Submission)} {H : List Lock} {ws : List Write} {c : Db} {id : Uuid}
  {r r' : Submission} {u : Update} {context : String}

lemma indexConflict_eq_false {db : Db} (h : ActiveUnique db) (hr : db.submission id = some r)
    (hk : r.indexEntry = r'.indexEntry) : db.indexConflict id r' = false := by
  rw [Db.indexConflict, Bool.and_eq_false_iff]
  cases hk' : r'.indexEntry with
  | none => exact Or.inl rfl
  | some k =>
      refine Or.inr (List.any_eq_false.mpr ?_)
      rintro ⟨i, s⟩ hs
      have hs : db.submission i = some s := Table.mem_rows.mp hs
      simp only [decide_eq_true_eq, not_and]
      exact fun hne hsk => hne (h i id s r k hs hr hsk (hk.trans hk'))

/-- Storing the next version of a locked row never collides. -/
theorem storeRow_ensures (hins : ∀ id r, ¬ op.inserts id r) (h : Ok hash op D E S H ws c)
    (hlock : Lock.submission id ∈ H) (hr : (view ws c).submission id = some r)
    (hstep : op.Step id r r') :
    Ensures (protocol hash) (Committed op) (storeRow context id (some r) r')
      (fun _ H' ws' c' => H' = H ∧ ws' = ws ++ [.putSubmission id r'] ∧
        (protocol hash).Rely H c c') Harmless H ws c := by
  unfold storeRow
  cases hk : r'.indexEntry with
  | none => exact fun c₁ h₁ c₂ h₂ => ⟨rfl, rfl, h₁.trans h₂⟩
  | some k =>
      have hbefore := hstep.indexEntry hk
      simp only [Option.bind_some, hbefore, ne_eq, not_true_eq_false, if_false]
      refine Ensures.select fun c₁ h₁ => ?_
      have hconflict : (view ws c₁).indexConflict id r' = false :=
        indexConflict_eq_false ((h.stable h₁).view_unique hins h₁.1)
          ((view_submission_congr (rely_row h₁ hlock)).trans hr) (hbefore.trans hk.symm)
      simp only [hconflict, Bool.false_eq_true, if_false]
      exact fun c₂ h₂ c₃ h₃ => ⟨rfl, rfl, (h₁.trans h₂).trans h₃⟩

/-- What `updateRow` leaves behind: nothing was written, or the next version of the row was, to the
assertion as it stood before. -/
structure RowUpdated (hash : Hash) (op : Op) (D : Pair → Prop) (E : Uuid → Prop)
    (S : List (Uuid × Submission)) (u : Update) (id : Uuid) (H : List Lock) (ws : List Write)
    (c : Db) (a : Option (Uuid × Submission)) (H' : List Lock) (ws' : List Write) (c' : Db) :
    Prop where
  locks : ∀ l ∈ H, l ∈ H'
  rely : (protocol hash).Rely H c c'
  ok : Ok hash op D E S H' ws c'
  none : a = none → ws' = ws
  some : ∀ p, a = some p → ws' = ws ++ [.putSubmission id p.2] ∧ Lock.submission id ∈ H' ∧
    ∃ r, (view ws c').submission id = some r ∧ u.applies id r ∧ p = (id, u.set r)

theorem updateRow_ensures (hins : ∀ id r, ¬ op.inserts id r) (h : Ok hash op D E S H ws c)
    (hstep : ∀ c' r, (protocol hash).Rely H c c' → (view ws c').submission id = some r →
      u.applies id r → op.Step id r (u.set r)) :
    Ensures (protocol hash) (Committed op) (updateRow context u id)
      (RowUpdated hash op D E S u id H ws c) Harmless H ws c := by
  unfold updateRow
  refine Ensures.acquire fun c₁ h₁ => ?_
  have ok₁ := (h.stable h₁).grow fun l hl => List.mem_cons_of_mem (.submission id) hl
  have locks : ∀ l ∈ H, l ∈ Lock.submission id :: H := fun l hl => List.mem_cons_of_mem _ hl
  have weaker : ∀ {a b}, (protocol hash).Rely (.submission id :: H) a b →
      (protocol hash).Rely H a b := fun hab => ⟨hab.1, fun l hl => hab.2 l (locks l hl)⟩
  refine Ensures.select fun c₂ h₂ => ?_
  have rely₂ := h₁.trans (weaker h₂)
  have ok₂ := ok₁.stable h₂
  have unchanged : ∀ c₃, (protocol hash).Rely (.submission id :: H) c₂ c₃ →
      RowUpdated hash op D E S u id H ws c none (.submission id :: H) ws c₃ := fun c₃ h₃ =>
    ⟨locks, rely₂.trans (weaker h₃), ok₂.stable h₃, fun _ => rfl, by simp⟩
  cases hr : (view ws c₂).submission id with
  | none => exact Ensures.pure unchanged
  | some r =>
      by_cases happ : u.applies id r
      · simp only [happ, if_true]
        refine Ensures.seq h₂.1 (storeRow_ensures hins ok₂ (by simp) hr (hstep c₂ r rely₂ hr happ)) ?_
        rintro _ H' ws' c₃ - ⟨rfl, rfl, h₃⟩
        refine Ensures.pure fun c₄ h₄ => ⟨locks, rely₂.trans (weaker (h₃.trans h₄)),
          ok₂.stable (h₃.trans h₄), by simp, ?_⟩
        rintro p hp
        obtain rfl := Option.some.inj hp
        refine ⟨rfl, by simp, r, ?_, happ, rfl⟩
        rw [view_submission_congr (rely_row (h₃.trans h₄) (by simp)), hr]
      · simp only [happ]
        exact Ensures.pure unchanged

/-- The pairs to be settled once the rows in `rows` have changed; `loud` says whether the change can
concern a score at all. -/
def alsoPairs (D : Pair → Prop) (loud : Prop) (rows : List (Uuid × Submission)) (k : Pair) : Prop :=
  D k ∨ (loud ∧ ∃ p ∈ rows, p.2.pair = k)

/-- The submissions whose tests are to be settled once the rows in `rows` have changed. -/
def alsoTests (E : Uuid → Prop) (messy : Prop) (rows : List (Uuid × Submission)) (id : Uuid) : Prop :=
  E id ∨ (messy ∧ ∃ p ∈ rows, p.1 = id)

theorem updateSubmissions_ensures (loud messy : Prop) (hins : ∀ id r, ¬ op.inserts id r)
    (h : Ok hash op D E S H ws c)
    (hstep : ∀ id r, u.applies id r → op.Step id r (u.set r))
    (hloud : ∀ id r, u.applies id r → loud ∨ (r.scoring = false ∧ (u.set r).scoring = false))
    (hmessy : ∀ id r, u.applies id r → messy ∨ ((u.set r).active → r.active)) :
    Ensures (protocol hash) (Committed op) (updateSubmissions context u)
      (fun rows => Ok hash op (alsoPairs D loud rows) (alsoTests E messy rows) (S ++ rows))
      Harmless H ws c := by
  let J : List Uuid → List (Option (Uuid × Submission)) → Assert Db Write Lock := fun _ as =>
    Ok hash op (alsoPairs D loud as.reduceOption) (alsoTests E messy as.reduceOption)
      (S ++ as.reduceOption)
  refine Ensures.select fun c₁ h₁ => ?_
  refine Ensures.seq (P := J []) h₁.1 (Ensures.forEach (J := J) (fun as => Ok.stable) ?_ [] h₁.1 ?_) ?_
  · intro i rest as H ws c _ hJ
    refine Ensures.mono (updateRow_ensures hins hJ fun c' r _ _ happ => hstep i r happ) ?_
    intro a H' ws' c' hrow
    show Ok _ _ _ _ _ _ _ _
    cases a with
    | none =>
        rw [hrow.none rfl]
        simpa [List.reduceOption_append] using hrow.ok
    | some p =>
        obtain ⟨hws, hlock, r, hr, happ, rfl⟩ := hrow.some p rfl
        rw [hws, List.reduceOption_append, List.reduceOption_singleton, ← List.append_assoc]
        refine hrow.ok.putRow hlock hr (hstep i r happ) ?_ ?_ ?_ ?_
        · exact fun k hk => hk.imp_right fun ⟨hl, q, hq, hqk⟩ => ⟨hl, q, by simp [hq], hqk⟩
        · exact fun j hj => hj.imp_right fun ⟨hl, q, hq, hqj⟩ => ⟨hl, q, by simp [hq], hqj⟩
        · exact (hloud i r happ).imp_left fun hl => Or.inr
            ⟨hl, (i, u.set r), by simp, (hstep i r happ).pair⟩
        · exact (hmessy i r happ).imp_left fun hm => Or.inr ⟨hm, (i, u.set r), by simp, rfl⟩
  · exact (h.stable h₁).weaken (fun k => Or.inl) (fun i => Or.inl) (by simp)
  · intro as H ws c _ hJ
    exact Ensures.pure fun c' hc => hJ.stable hc

/-! ## Bookkeeping -/

/-- The score of `k` is settled: the session holds its lock, and the row is right. -/
lemma Ok.settle {k : Pair} (h : Ok hash op D E S H ws c) (hk : Lock.advisory (hash k) ∈ H)
    (hc : Consistent k (view ws c)) : Ok hash op (fun j => D j ∧ j ≠ k) E S H ws c where
  locked := h.locked
  rows := h.rows
  tests := h.tests
  scores j hj := by
    by_cases hjk : j = k
    · subst hjk
      exact Or.inr ⟨hk, hc⟩
    · exact h.scores j fun hD => hj ⟨hD, hjk⟩
  changed := h.changed

/-- A score row is written: the score of its pair is to be settled. -/
lemma Ok.putScoreRow {k : Pair} {w : Write} (h : Ok hash op D E S H ws c)
    (hw : ∃ s, w = .putScore k s ∨ w = .deleteScore k) :
    Ok hash op (fun j => D j ∨ j = k) E S H (ws ++ [w]) c := by
  obtain ⟨s, rfl | rfl⟩ := hw <;>
  exact h.putOther (fun _ _ => rfl) (by simp [Write.submissionId]) (fun _ => Or.inl)
    (by simp [Write.pair]) fun i hi => Or.inl ⟨hi, fun _ _ => rfl⟩

/-- Under the lock of the pair and with its row gone, the `INSERT` settles the score. -/
lemma insertBestScore_ensures {k : Pair} (h : Ok hash op (fun j => D j ∨ j = k) E S H ws c)
    (hlock : Lock.advisory (hash k) ∈ H) (hnone : (view ws c).problemScore k = none) :
    Ensures (protocol hash) (Committed op) (insertBestScore k)
      (fun _ => Ok hash op (fun j => D j ∧ j ≠ k) E S) Harmless H ws c := by
  have settled : ∀ ws' c₁, Ok hash op (fun j => D j ∨ j = k) E S H ws' c₁ →
      Consistent k (view ws' c₁) → ∀ c₂, (protocol hash).Rely H c₁ c₂ →
      Ok hash op (fun j => D j ∧ j ≠ k) E S H ws' c₂ := by
    intro ws' c₁ ok₁ hcons c₂ h₂
    refine ((ok₁.settle hlock hcons).stable h₂).weaken ?_ (fun i hi => hi) fun p hp => hp
    exact fun j hj => ⟨hj.1.resolve_right hj.2, hj.2⟩
  unfold insertBestScore
  refine Ensures.select fun c₁ h₁ => ?_
  have ok₁ := h.stable h₁
  -- nobody else touches what the score depends on
  have hnone₁ : (view ws c₁).problemScore k = none :=
    (view_score_congr (rely_score h₁ hlock).score).trans hnone
  simp only [hnone₁, Option.isSome_none]
  cases hbest : (view ws c₁).bestSubmission k with
  | none =>
      have hcons : Consistent k (view ws c₁) :=
        consistent_iff.mpr (by rw [hnone₁, hbest, Option.map_none])
      exact Ensures.pure fun c₂ h₂ => settled ws c₁ ok₁ hcons c₂ h₂
  | some best =>
      have hcons : Consistent k (view (ws ++ [.putScore k (scoreRow best)]) c₁) := by
        rw [consistent_iff, view_append_singleton]
        show _ = ((view ws c₁).bestSubmission k).map scoreRow
        rw [hbest, Db.problemScore_apply, Write.onScore, if_pos rfl, Option.map_some]
      have ok₂ := (ok₁.putScoreRow ⟨scoreRow best, Or.inl rfl⟩).weaken
        (fun j hj => hj.elim id Or.inr) (fun i hi => hi) fun p hp => hp
      exact fun c₂ h₂ c₃ h₃ => settled _ c₁ ok₂ hcons c₃ (h₂.trans h₃)

theorem recomputeProblemScore_ensures (k : Pair) (h : Ok hash op D E S H ws c) :
    Ensures (protocol hash) (Committed op) (recomputeProblemScore hash k)
      (fun _ => Ok hash op (fun j => D j ∧ j ≠ k) E S) Harmless H ws c := by
  unfold recomputeProblemScore
  refine Ensures.acquire fun c₁ h₁ => ?_
  have ok₁ := (h.stable h₁).grow fun l hl => List.mem_cons_of_mem (.advisory (hash k)) hl
  have hlock : Lock.advisory (hash k) ∈ Lock.advisory (hash k) :: H := by simp
  refine Ensures.select fun c₂ h₂ => ?_
  have ok₂ := ok₁.stable h₂
  cases hpresent : (view ws c₂).problemScore k with
  | none =>
      exact insertBestScore_ensures
        (ok₂.weaken (fun j => Or.inl) (fun i hi => hi) fun p hp => hp) hlock hpresent
  | some s =>
      refine Ensures.put fun c₃ h₃ => ?_
      refine insertBestScore_ensures ((ok₂.stable h₃).putScoreRow ⟨s, Or.inr rfl⟩) hlock ?_
      rw [view_append_singleton, Db.problemScore_apply, Write.onScore, if_pos rfl]

/-- The details of a submission are cleared. -/
lemma Ok.deleteTests (h : Ok hash op D E S H ws c) (hlock : Lock.submission id ∈ H) :
    Ok hash op D (fun i => E i ∧ i ≠ id) S H (ws ++ [.deleteTests id]) c := by
  refine h.putOther (fun _ _ => rfl) ?_ (fun _ hk => hk) (by simp [Write.pair]) fun i hi => ?_
  · simp only [Write.submissionId, Option.some.injEq]
    rintro i rfl
    exact hlock
  · by_cases hid : id = i
    · refine Or.inr fun _ o => ?_
      rw [view_append_singleton, Db.test_apply, Write.onTest, if_pos hid]
    · exact Or.inl ⟨fun hE => hi ⟨hE, fun he => hid he.symm⟩, fun o t => by
        rw [Write.onTest, if_neg hid]⟩

lemma mem_sortedPairs {rows : List (Uuid × Submission)} {k : Pair} :
    k ∈ sortedPairs rows ↔ ∃ p ∈ rows, p.2.pair = k := by
  simp [sortedPairs, List.mem_insertionSort]

/-- After `reconcileSubmissionChanges`, the rows that an `UPDATE` has changed leave nothing to be
settled. -/
theorem reconcile_ensures {rows : List (Uuid × Submission)} {loud messy : Prop} (hinv : ActiveUnique c)
    (h : Ok hash op (alsoPairs D loud rows) (alsoTests E messy rows) (S ++ rows) H ws c) :
    Ensures (protocol hash) (Committed op) (reconcileSubmissionChanges hash rows)
      (fun n H' ws' c' => n = rows.length ∧ Ok hash op D E (S ++ rows) H' ws' c') Harmless H ws c := by
  unfold reconcileSubmissionChanges
  by_cases hempty : rows = []
  · subst hempty
    refine Ensures.pure fun c' hc => ⟨rfl, (h.stable hc).weaken ?_ ?_ fun p hp => hp⟩
    · exact fun k hk => hk.resolve_right (by simp)
    · exact fun i hi => hi.resolve_right (by simp)
  simp only [List.isEmpty_iff, hempty, if_false]
  -- first the tests of every changed row, then the score of every pair of one
  let J₁ : List (Uuid × Submission) → List Unit → Assert Db Write Lock := fun rest _ H ws c =>
    (∀ p ∈ rest, p ∈ rows) ∧ Ok hash op (alsoPairs D loud rows) (alsoTests E messy rest) (S ++ rows) H ws c
  let J₂ : List Pair → List Unit → Assert Db Write Lock := fun rest _ =>
    Ok hash op (fun k => D k ∨ k ∈ rest) E (S ++ rows)
  have clear : ∀ p rest (as : List Unit) H ws c, ActiveUnique c → J₁ (p :: rest) as H ws c →
      Ensures (protocol hash) (Committed op) (put (.deleteTests p.1) : Handler Unit)
        (fun a => J₁ rest (as ++ [a])) Harmless H ws c := by
    rintro p rest as H ws c - ⟨hmem, ok₁⟩ c₁ h₁ c₂ h₂
    have hlock := (ok₁.changed p (List.mem_append_right _ (hmem p (by simp)))).1
    have hmem' : ∀ q ∈ rest, q ∈ rows := fun q hq => hmem q (List.mem_cons_of_mem _ hq)
    have ok₂ := (ok₁.deleteTests hlock).stable (h₁.trans h₂)
    refine ⟨hmem', ok₂.weaken (fun k hk => hk) ?_ fun q hq => hq⟩
    rintro i ⟨hi | ⟨hm, q, hq, rfl⟩, hne⟩
    · exact Or.inl hi
    · rcases List.mem_cons.mp hq with rfl | hq
      · exact absurd rfl hne
      · exact Or.inr ⟨hm, q, hq, rfl⟩
  have settle : ∀ k rest (as : List Unit) H ws c, ActiveUnique c → J₂ (k :: rest) as H ws c →
      Ensures (protocol hash) (Committed op) (recomputeProblemScore hash k)
        (fun a => J₂ rest (as ++ [a])) Harmless H ws c := by
    intro k rest as H ws c _ ok₁
    refine (recomputeProblemScore_ensures k ok₁).mono fun _ H' ws' c' ok₂ => ?_
    refine ok₂.weaken ?_ (fun i hi => hi) fun q hq => hq
    rintro j ⟨hj | hj, hne⟩
    · exact Or.inl hj
    · exact Or.inr ((List.mem_cons.mp hj).resolve_left hne)
  have stable₁ : ∀ as, (J₁ [] as).Stable (protocol hash) :=
    fun as H ws c c' hJ hc => ⟨hJ.1, hJ.2.stable hc⟩
  refine Ensures.seq hinv (Ensures.forEach (J := J₁) stable₁ clear [] hinv ⟨fun p hp => hp, h⟩) ?_
  rintro as H₁ ws₁ c₁ hinv₁ ⟨-, ok₁⟩
  have ok₂ : J₂ (sortedPairs rows) [] H₁ ws₁ c₁ := by
    refine ok₁.weaken (fun k hk => hk.imp_right fun hk' => ?_) ?_ fun q hq => hq
    · exact mem_sortedPairs.mpr hk'.2
    · exact fun i hi => hi.resolve_right (by simp)
  refine Ensures.seq hinv₁ (Ensures.forEach (J := J₂) (fun as => Ok.stable) settle [] hinv₁ ok₂) ?_
  intro bs H₂ ws₂ c₂ _ ok₃
  refine Ensures.pure fun c₃ h₃ => ⟨rfl, (ok₃.stable h₃).weaken ?_ (fun i hi => hi) fun q hq => hq⟩
  exact fun k hk => hk.resolve_right (by simp)

end Labyrithm
