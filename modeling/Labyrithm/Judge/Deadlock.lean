import Labyrithm.Judge.Contention

/-!
# Deadlocks of the judge's transactions

The transactions that settle submissions, running at the same time on PostgreSQL's locks.  Scores are
locked in the order of their pairs (`reconcileSubmissionChanges` sorts them), which rules out cycles
among advisory locks.  Two orders are not kept:

* a bulk `UPDATE` takes rows in the order it meets them, so that two of them can hold what the other
  wants next;
* `ReviewSubmission` holds a row `FOR UPDATE` before it asks for the score, whereas a scorer holds the
  score when it checks the foreign key to the best submission, which may be that row.

* `InOrder` — a wait for a row begins with rows of smaller ids in hand only, and no foreign key waits.
* **`deadlock_free`** — in runs with no other waits for rows the waits-for graph has no cycle.
* `review_deadlock` — a review and a completion for the same pair wait for each other.
-/

namespace Labyrithm

open Sql

abbrev JudgeCluster := Cluster Settling Db Write Lock RowLock Reply

/-- The handlers of the transactions on PostgreSQL's locks. -/
def judgeTurn (hash : Hash) : Turn Settling Db → JudgeCluster → Option JudgeCluster :=
  Cluster.turn lockRules fun op => op.1.program hash

/-- Nothing runs. -/
def idleCluster (db : Db) : JudgeCluster := ⟨db, []⟩

/-- A backend that has to wait for a submission holds only submissions with smaller ids, and does not
wait for a foreign key.  Whatever others do to the store, the pairs of the submissions are in `S`. -/
def InOrder (S : List Pair) : Turn Settling Db → JudgeCluster → Prop
  | .advance i, s => ∀ b ∈ s.backend i, ∀ l ∈ b.todo.head?, ∀ id ∈ l.row?,
      ¬ s.Free lockRules i l →
      l.mode ≠ .keyShare ∧ ∀ held ∈ b.locks, ∀ id' ∈ held.row?, id' < id
  | .store db, _ => PairsIn S db
  | _, _ => True

instance (S : List Pair) : (t : Turn Settling Db) → (s : JudgeCluster) → Decidable (InOrder S t s)
  | .advance i, s => inferInstanceAs (Decidable (∀ b ∈ s.backend i, _))
  | .store db, _ => inferInstanceAs (Decidable (PairsIn S db))
  | .start _, _ => .isTrue trivial
  | .fail _, _ => .isTrue trivial

/-! ## Ranks -/

section Rank

variable {hash : Hash} {S : List Pair}

/-- The pair a key of an advisory lock stands for. -/
def pairOf (hash : Hash) (S : List Pair) (key : ℤ) : Pair :=
  (S.find? fun k => hash k = key).getD (0, 0)

/-- Submissions by their ids, above them the scores by their pairs, below them all else. -/
def RowLock.rank (hash : Hash) (S : List Pair) (l : RowLock) : ℕ ×ₗ ℕ ×ₗ ℕ :=
  match l.object with
  | .submission id => toLex (1, toLex (id, 0))
  | .advisory key => toLex (2, toLex (pairOf hash S key))
  | _ => toLex (0, toLex (0, 0))

lemma pairOf_hash (hhash : (S.map hash).Nodup) {k : Pair} (hk : k ∈ S) : pairOf hash S (hash k) = k := by
  unfold pairOf
  cases hfind : S.find? fun k' => hash k' = hash k with
  | none => exact absurd (List.find?_eq_none.mp hfind k hk) (by simp)
  | some k' =>
      have hkey : hash k' = hash k := by simpa using List.find?_some hfind
      exact List.inj_on_of_nodup_map hhash (List.mem_of_find?_eq_some hfind) hk hkey

/-- Locks that exclude each other are on one object. -/
lemma rank_eq_of_conflict {l l' : RowLock} (h : lockRules.conflict l l' = true) :
    l.rank hash S = l'.rank hash S := by
  have hobject : l.object = l'.object := by
    have h' : (decide (l.object = l'.object) && l.mode.conflicts l'.mode) = true := h
    simp only [Bool.and_eq_true, decide_eq_true_eq] at h'
    exact h'.1
  unfold RowLock.rank
  rw [hobject]

/-- A lock that is not free is on an object of which another backend holds a lock. -/
lemma exists_of_not_free {s : JudgeCluster} {i : ℕ} {l : RowLock} (h : ¬ s.Free lockRules i l) :
    ∃ j b l', j ≠ i ∧ s.backend j = some b ∧ l' ∈ b.locks ∧ l.object = l'.object ∧
      l.mode.conflicts l'.mode = true := by
  unfold Cluster.Free at h
  push Not at h
  obtain ⟨j, -, hj, b, hb, l', hl', hc⟩ := h
  have hc' : (decide (l.object = l'.object) && l.mode.conflicts l'.mode) ≠ false := hc
  simp only [ne_eq, Bool.not_eq_false, Bool.and_eq_true, decide_eq_true_eq] at hc'
  exact ⟨j, b, l', hj, hb, hl', hc'.1, hc'.2⟩

/-- The row of a submission is not locked for an update by two backends. -/
lemma rowLocked_unique {s : JudgeCluster} (h : s.Good lockRules (discipline hash S))
    {i j : ℕ} {a b : Backend Settling Db Write Lock RowLock Reply} (hij : i ≠ j)
    (ha : s.backend i = some a) (hb : s.backend j = some b) {id : Uuid} (hlocked : RowLocked a.locks id) :
    ¬ RowLocked b.locks id := by
  intro hlocked'
  have hexclusive := h.exclusive i j a b hij ha hb
  rcases hlocked with hl | hl <;> rcases hlocked' with hl' | hl' <;>
    simpa [lockRules, RowLock.conflict, LockMode.conflicts] using hexclusive _ hl _ hl'

lemma scoreLocked_unique {s : JudgeCluster} (h : s.Good lockRules (discipline hash S))
    {i j : ℕ} {a b : Backend Settling Db Write Lock RowLock Reply} (hij : i ≠ j)
    (ha : s.backend i = some a) (hb : s.backend j = some b) {k : Pair}
    (hlocked : ScoreLocked hash a.locks k) : ¬ ScoreLocked hash b.locks k := by
  intro hlocked'
  simpa [lockRules, RowLock.conflict, LockMode.conflicts] using
    h.exclusive i j a b hij ha hb _ hlocked _ hlocked'

/-- Every wait begins in order: for a row by assumption, for a score because scores are sorted, and for
anything else there is none. -/
lemma waitsInOrder (hhash : (S.map hash).Nodup) {s : JudgeCluster}
    (h : s.Good lockRules (discipline hash S)) {i : ℕ} (horder : InOrder S (.advance i) s) :
    s.WaitsInOrder lockRules (RowLock.rank hash S) i := by
  intro b hb l hl hwait held hheld
  have hgood := h.backend i b hb
  have hmay : MayLock hash S b.locks l := by
    have hallows := hgood.allows
    cases htodo : b.todo with
    | nil =>
        rw [htodo] at hl
        exact nomatch hl
    | cons l' todo =>
        rw [htodo] at hl hallows
        obtain rfl := Option.some.inj hl
        exact hallows.1
  obtain ⟨j, c, l', hj, hc, hl', hobject, hmode⟩ := exists_of_not_free hwait
  obtain ⟨H', hsub', hmay'⟩ := (h.backend j c hc).lawful.may hl'
  have hmay' : MayLock hash S H' l' := hmay'
  obtain ⟨H₀, hsub₀, hmay₀⟩ := hgood.lawful.may hheld
  have hmay₀ : MayLock hash S H₀ held := hmay₀
  obtain ⟨object, mode⟩ := l
  obtain ⟨object', mode'⟩ := l'
  obtain ⟨heldObject, heldMode⟩ := held
  obtain rfl : object = object' := hobject
  cases object with
  | submission id =>
      obtain ⟨hstrong, hrows⟩ := horder b hb _ hl id rfl hwait
      cases heldObject with
      | submission id' =>
          have hlt : id' < id := hrows _ hheld id' rfl
          simp [RowLock.rank, Prod.Lex.toLex_lt_toLex, hlt]
      | advisory key => exact nomatch hmay hstrong _ hheld
      | _ => simp [RowLock.rank, Prod.Lex.toLex_lt_toLex]
  | tests id =>
      exact absurd (hmay'.2.mono hsub') (rowLocked_unique h hj.symm hb hc hmay.2)
  | score k =>
      exact absurd (hsub' _ hmay'.2) (scoreLocked_unique h hj.symm hb hc hmay.2)
  | entry k => exact hmay.elim
  | team id | problem id | user id =>
      obtain rfl : mode = .keyShare := hmay
      obtain rfl : mode' = .keyShare := hmay'
      exact absurd hmode Bool.false_ne_true
  | advisory key =>
      obtain ⟨-, k, hk, rfl, habove⟩ := hmay
      cases heldObject with
      | advisory key' =>
          obtain ⟨rfl, k', hk', rfl, -⟩ := hmay₀
          have hlt : toLex k' < toLex k := habove k' hk' hheld
          simp [RowLock.rank, Prod.Lex.toLex_lt_toLex, pairOf_hash hhash hk, pairOf_hash hhash hk']
          exact Prod.Lex.toLex_lt_toLex.mp hlt
      | _ => simp [RowLock.rank, Prod.Lex.toLex_lt_toLex]

end Rank

/-! ## The runs -/

lemma idleCluster_good {hash : Hash} {S : List Pair} {db : Db} (hdb : PairsIn S db) :
    (idleCluster db).Good lockRules (discipline hash S) :=
  ⟨hdb, fun _ _ hb => (nomatch hb), fun _ _ _ _ _ ha => (nomatch ha)⟩

lemma idleCluster_ranked {hash : Hash} {S : List Pair} {db : Db} :
    (idleCluster db).Ranked (RowLock.rank hash S) := fun _ _ hb => (nomatch hb)

/-- Where no two pairs share a key of the advisory locks, and every wait for a submission begins in
order, no transactions that settle submissions wait for each other in a cycle. -/
theorem deadlock_free (hash : Hash) (S : List Pair) (hhash : (S.map hash).Nodup) (db : Db)
    (hdb : PairsIn S db) (s : JudgeCluster)
    (h : Go.ReachIf (judgeTurn hash) (InOrder S) (idleCluster db) s) : ¬ s.Deadlocked lockRules := by
  have hinvariant : s.Good lockRules (discipline hash S) ∧ s.Ranked (RowLock.rank hash S) := by
    refine Go.ReachIf.invariant
      (P := fun s => s.Good lockRules (discipline hash S) ∧ s.Ranked (RowLock.rank hash S))
      ⟨idleCluster_good hdb, idleCluster_ranked⟩ ?_ h
    rintro t s s' ⟨hgood, hranked⟩ horder hturn
    constructor
    · refine hgood.turn (settling_keeps hhash) (fun db hstore => ?_) hturn
      subst hstore
      exact horder
    · refine hranked.turn (fun i hadvance => ?_) hturn
      subst hadvance
      exact waitsInOrder hhash hgood horder
  exact Cluster.not_deadlocked hinvariant.2 fun l l' => rank_eq_of_conflict

/-! ## One pair, two submissions -/

/-- A submission of team 1 for problem 7. -/
def contendedRow (state : Status) (score : ℤ) (finishedAt : Option Time) (claimedBy : Option ClaimId)
    (leaseUntil : Option Time) : Submission where
  teamId := 1
  userId := 1
  problemId := 7
  language := "cpp"
  code := "int main;"
  state := state
  verdict := none
  score := score
  maxScore := 100
  testsTotal := 2
  testsDone := 0
  compileError := none
  createdAt := 0
  claimedAt := none
  claimedBy := claimedBy
  leaseUntil := leaseUntil
  attempts := 1
  finishedAt := finishedAt
  isRejudge := false
  reviewStatus := .accepted
  reviewReason := ""
  reviewedBy := none
  reviewedAt := none

/-- Submission 2 is the team's best, submission 1 is being judged. -/
def contendedStore : Db :=
  { Judge.sampleStore with
    submissions := (AList.insert 1 (contendedRow .running 0 none (some "w") (some 100)) ∅).insert 2
      (contendedRow .passed 90 (some 5) none none) }

/-- The best submission is rejected while the other one is completed. -/
def reviewing : Settling := ⟨.review 2 (some 2) .rejected "" 20, rfl⟩

def completing : Settling := ⟨.complete (Judge.sampleJudged 1 1) "w" 10 10, rfl⟩

/-- The backend `i` for a number of turns. -/
def turns (i n : ℕ) : List (Turn Settling Db) := List.replicate n (.advance i)

/-- The review is ahead with the score, and the completion waits for it. -/
def contendedSample : List (Turn Settling Db) :=
  [.start reviewing, .start completing] ++ turns 0 14 ++ turns 1 40

theorem deadlock_free_sample :
    ¬ ((Go.runIf (judgeTurn Judge.sampleHash) (InOrder [(1, 7)]) contendedSample
      (idleCluster contendedStore)).getD (idleCluster contendedStore)).Deadlocked lockRules :=
  deadlock_free Judge.sampleHash [(1, 7)] (by decide) contendedStore (by decide) _
    (Go.ReachIf.runIf_getD contendedSample)

/-- The review locks its row, the completion comes as far as the foreign key to that row, and the review
goes on to the score. -/
def reviewDeadlock : JudgeCluster :=
  (Go.run (judgeTurn Judge.sampleHash)
    ([.start reviewing, .start completing] ++ turns 0 2 ++ turns 1 40 ++ turns 0 20)
    (idleCluster contendedStore)).getD (idleCluster contendedStore)

theorem review_deadlock :
    ¬ ∀ (hash : Hash) (db : Db) (s : JudgeCluster),
      Go.Reach (judgeTurn hash) (idleCluster db) s → ¬ s.Deadlocked lockRules := by
  intro h
  refine h Judge.sampleHash contendedStore reviewDeadlock (Go.Reach.run_getD _) ⟨0, ?_⟩
  have hreview : reviewDeadlock.WaitsFor lockRules 0 1 := by decide +kernel
  have hcompletion : reviewDeadlock.WaitsFor lockRules 1 0 := by decide +kernel
  exact .tail (.single hreview) hcompletion

end Labyrithm
