import Labyrithm.Judge.StatementRules
import Labyrithm.Sql.Contention

/-!
# The locks of the judge's transactions

PostgreSQL's locks behind the statements of the transactions that settle submissions.  An `UPDATE` of
`submissions` changes no key and locks its row `FOR NO KEY UPDATE`; `ReviewSubmission` begins with
`FOR UPDATE`.  A deleted row is locked, a row that is inserted stands in its primary key, and each of its
foreign keys is checked by locking the row it points to `FOR KEY SHARE`; that a `problem_scores` row
names its best submission makes this a lock on a submission, of anyone.  Advisory locks are exclusive,
and everything is held to the end of the transaction.

* `lockRules` — the locks of each statement, and the conflict table.
* `discipline` — which locks may be asked for when: rows before scores, scores in the order of their
  pairs.
* **`settling_keeps`** — every transaction that settles submissions keeps it.
-/

namespace Labyrithm

open Sql Tx

/-! ## Locks -/

/-- The modes of row locks. -/
inductive LockMode
  | forUpdate
  | noKeyUpdate
  | share
  | keyShare
  deriving DecidableEq, Repr

/-- The conflict table of row locks. -/
def LockMode.conflicts : LockMode → LockMode → Bool
  | keyShare, keyShare | keyShare, share | keyShare, noKeyUpdate => false
  | share, keyShare | share, share => false
  | noKeyUpdate, keyShare => false
  | _, _ => true

lemma LockMode.conflicts_symm (m m' : LockMode) : m.conflicts m' = m'.conflicts m := by
  cases m <;> cases m' <;> rfl

/-- What is locked; the rows of `submission_tests` of one submission are taken together. -/
inductive LockObject
  | submission (id : Uuid)
  | tests (submissionId : Uuid)
  | score (k : Pair)
  | team (id : Uuid)
  | problem (id : Uuid)
  | user (id : Uuid)
  | entry (k : Pair)
  | advisory (key : ℤ)
  deriving DecidableEq, Repr

structure RowLock where
  object : LockObject
  mode : LockMode
  deriving DecidableEq, Repr

/-- The submission a lock is on. -/
def RowLock.row? (l : RowLock) : Option Uuid :=
  match l.object with
  | .submission id => some id
  | _ => none

/-- The key of an advisory lock. -/
def RowLock.key? (l : RowLock) : Option ℤ :=
  match l.object with
  | .advisory key => some key
  | _ => none

def RowLock.conflict (l l' : RowLock) : Bool := l.object = l'.object && l.mode.conflicts l'.mode

lemma RowLock.conflict_symm (l l' : RowLock) : l.conflict l' = l'.conflict l := by
  rw [conflict, conflict, LockMode.conflicts_symm, Bool.decide_congr eq_comm]

/-! ## The locks of the statements -/

/-- The transactions that change or settle submissions that are there: all but creating, claiming and
renewing. -/
def Op.settles : Op → Bool
  | create .. | claim .. | renew .. => false
  | _ => true

abbrev Settling := { op : Op // op.settles = true }

/-- How the transaction locks the rows it is about to update. -/
def Op.rowMode : Op → LockMode
  | review .. | claim .. => .forUpdate
  | _ => .noKeyUpdate

/-- A foreign key that points to the object is checked. -/
def checked (o : LockObject) : RowLock := ⟨o, .keyShare⟩

def Op.onLock (op : Op) : Lock → RowLock
  | .submission id => ⟨.submission id, op.rowMode⟩
  | .activeEntry k => ⟨.entry k, .forUpdate⟩
  | .advisory key => ⟨.advisory key, .forUpdate⟩

/-- The reviewer of a row is checked by the transaction that sets it. -/
def Op.reviewerCheck : Op → Submission → List RowLock
  | review .., r => r.reviewedBy.toList.map fun id => checked (.user id)
  | _, _ => []

def Op.onWrite (op : Op) : Write → List RowLock
  | .putSubmission _ r => op.reviewerCheck r
  | .deleteTests id => [⟨.tests id, .forUpdate⟩]
  | .putTest id _ _ => [⟨.tests id, .forUpdate⟩, checked (.submission id)]
  | .putReview r =>
      checked (.submission r.submissionId) :: r.reviewerId.toList.map fun id => checked (.user id)
  | .deleteScore k => [⟨.score k, .forUpdate⟩]
  | .putScore k s =>
      ⟨.score k, .forUpdate⟩ :: checked (.team k.1) :: checked (.problem k.2) ::
        (s.userId.toList.map fun id => checked (.user id)) ++
        s.bestSubmissionId.toList.map fun id => checked (.submission id)

def lockRules : LockRules Settling Write Lock RowLock where
  onLock op := op.1.onLock
  onWrite op := op.1.onWrite
  conflict := RowLock.conflict
  conflict_symm := RowLock.conflict_symm

/-! ## The discipline -/

/-- The row of a submission is locked for an update. -/
def RowLocked (H : List RowLock) (id : Uuid) : Prop :=
  ⟨.submission id, .forUpdate⟩ ∈ H ∨ ⟨.submission id, .noKeyUpdate⟩ ∈ H

/-- The score of a pair is locked. -/
def ScoreLocked (hash : Hash) (H : List RowLock) (k : Pair) : Prop :=
  ⟨.advisory (hash k), .forUpdate⟩ ∈ H

/-- When a transaction that holds `H` may ask for a lock: a row, except for a foreign key, before all
scores; tests with their row, a score row with its score; scores in the order of their pairs. -/
def MayLock (hash : Hash) (S : List Pair) (H : List RowLock) (l : RowLock) : Prop :=
  match l.object with
  | .submission _ => l.mode ≠ .keyShare → ∀ h ∈ H, h.key? = none
  | .tests id => l.mode = .forUpdate ∧ RowLocked H id
  | .score k => l.mode = .forUpdate ∧ ScoreLocked hash H k
  | .team _ | .problem _ | .user _ => l.mode = .keyShare
  | .entry _ => False
  | .advisory key => l.mode = .forUpdate ∧
      ∃ k ∈ S, key = hash k ∧ ∀ k' ∈ S, ScoreLocked hash H k' → toLex k' < toLex k

/-- The pairs of all submissions are among `S`. -/
def PairsIn (S : List Pair) (db : Db) : Prop := ∀ p ∈ db.submissions.rows, p.2.pair ∈ S

instance (S : List Pair) (db : Db) : Decidable (PairsIn S db) :=
  inferInstanceAs (Decidable (∀ p ∈ db.submissions.rows, _))

def Write.pairIn (S : List Pair) : Write → Prop
  | putSubmission _ r => r.pair ∈ S
  | _ => True

variable {hash : Hash} {S : List Pair}

lemma PairsIn.submission {db : Db} (h : PairsIn S db) {id : Uuid} {r : Submission}
    (hr : db.submission id = some r) : r.pair ∈ S :=
  h (id, r) (Table.mem_rows.mpr hr)

lemma PairsIn.apply {db : Db} (h : PairsIn S db) {w : Write} (hw : w.pairIn S) :
    PairsIn S (Store.apply w db) := by
  rintro ⟨id, r⟩ hr
  have hr : (Store.apply w db).submission id = some r := Table.mem_rows.mp hr
  rw [Db.submission_apply] at hr
  cases w with
  | putSubmission id' r' =>
      simp only [Write.onSubmission] at hr
      split_ifs at hr with hid
      · obtain rfl := Option.some.inj hr
        exact hw
      · exact h.submission hr
  | _ => exact h.submission hr

def discipline (hash : Hash) (S : List Pair) : LockDiscipline Db Write RowLock where
  store := PairsIn S
  write := Write.pairIn S
  may := MayLock hash S
  store_apply _ _ hw hc := hc.apply hw

/-! ## The statements keep it -/

/-- No score is locked yet. -/
def BeforeScores (H : List RowLock) : Prop := ∀ h ∈ H, h.key? = none

lemma BeforeScores.cons {H : List RowLock} (h : BeforeScores H) {l : RowLock} (hl : l.key? = none) :
    BeforeScores (l :: H) := by
  intro l' hl'
  rcases List.mem_cons.mp hl' with rfl | hl'
  · exact hl
  · exact h l' hl'

lemma BeforeScores.not_scoreLocked {H : List RowLock} (h : BeforeScores H) (k : Pair) :
    ¬ ScoreLocked hash H k := fun hk => nomatch h _ hk

lemma RowLocked.mono {H H' : List RowLock} (hsub : ∀ l ∈ H, l ∈ H') {id : Uuid} (h : RowLocked H id) :
    RowLocked H' id := h.imp (hsub _) (hsub _)

lemma rowLocked_cons_onLock (op : Settling) (id : Uuid) (H : List RowLock) :
    RowLocked (lockRules.onLock op (.submission id) :: H) id := by
  obtain ⟨op, hop⟩ := op
  cases op <;> simp [RowLocked, lockRules, Op.onLock, Op.rowMode]

/-- The check of a foreign key. -/
def RowLock.ForeignKey (l : RowLock) : Prop :=
  match l.object with
  | .submission _ | .team _ | .problem _ | .user _ => l.mode = .keyShare
  | _ => False

lemma RowLock.ForeignKey.key {l : RowLock} (h : l.ForeignKey) : l.key? = none := by
  obtain ⟨o, m⟩ := l
  cases o with
  | advisory key => exact h.elim
  | _ => rfl

/-- Foreign keys may be checked at any time. -/
lemma RowLock.ForeignKey.mayLock {l : RowLock} (h : l.ForeignKey) (H : List RowLock) :
    MayLock hash S H l := by
  obtain ⟨o, m⟩ := l
  cases o with
  | submission id => exact fun hm => absurd h hm
  | team id => exact h
  | problem id => exact h
  | user id => exact h
  | _ => exact h.elim

lemma allows_foreignKeys {ls : List RowLock} (h : ∀ l ∈ ls, l.ForeignKey) (H : List RowLock) :
    (discipline hash S).Allows H ls := by
  induction ls generalizing H with
  | nil => trivial
  | cons l ls ih =>
      exact ⟨(h l (by simp)).mayLock H, ih (fun l' hl' => h l' (by simp [hl'])) _⟩

lemma foreignKey_reviewerCheck (op : Op) (r : Submission) :
    ∀ l ∈ op.reviewerCheck r, l.ForeignKey := by
  intro l hl
  cases op with
  | review =>
      obtain ⟨id, -, rfl⟩ := List.mem_map.mp hl
      rfl
  | _ => exact nomatch hl

lemma foreignKey_putReview (op : Op) (r : SubmissionReview) :
    ∀ l ∈ op.onWrite (.putReview r), l.ForeignKey := by
  intro l hl
  rcases List.mem_cons.mp hl with rfl | hl
  · rfl
  · obtain ⟨id, -, rfl⟩ := List.mem_map.mp hl
    rfl

/-- A score row stands in its primary key, and points to four other rows. -/
lemma onWrite_putScore (op : Op) (k : Pair) (row : ProblemScore) :
    ∃ ls, op.onWrite (.putScore k row) = ⟨.score k, .forUpdate⟩ :: ls ∧ ∀ l ∈ ls, l.ForeignKey := by
  refine ⟨_, rfl, fun l hl => ?_⟩
  rcases List.mem_append.mp hl with hl | hl
  · rcases List.mem_cons.mp hl with rfl | hl
    · rfl
    · rcases List.mem_cons.mp hl with rfl | hl
      · rfl
      · obtain ⟨id, -, rfl⟩ := List.mem_map.mp hl
        rfl
  · obtain ⟨id, -, rfl⟩ := List.mem_map.mp hl
    rfl

section Rules

variable {op : Settling} {H : List RowLock} {u : Update} {context : String}

/-- An update that moves no submission to another pair, and enters none into the partial unique
index. -/
structure Update.Stays (u : Update) : Prop where
  pair : ∀ id r, u.applies id r → (u.set r).pair = r.pair
  entry : ∀ id r, u.applies id r → ∀ k, (u.set r).indexEntry = some k → r.indexEntry = some k

lemma Update.Stays.of_step (o : Op) (h : ∀ id r, u.applies id r → o.Step id r (u.set r)) :
    u.Stays where
  pair id r happ := (h id r happ).pair
  entry id r happ _ hk := (h id r happ).indexEntry hk

/-- A row that is changed: locked, and of a pair in `S`. -/
def Changed (S : List Pair) (u : Update) (H : List RowLock) (p : Uuid × Submission) : Prop :=
  RowLocked H p.1 ∧ p.2.pair ∈ S ∧ ∃ r, u.applies p.1 r

lemma Changed.mono {H' : List RowLock} (hsub : ∀ l ∈ H, l ∈ H') {p : Uuid × Submission}
    (h : Changed S u H p) : Changed S u H' p :=
  ⟨h.1.mono hsub, h.2⟩

/-- A new version of a row needs no lock but the check of its reviewer. -/
lemma storeRow_orderly {id : Uuid} {old new : Submission} (hpair : new.pair ∈ S)
    (hentry : ∀ k, new.indexEntry = some k → old.indexEntry = some k) (hbefore : BeforeScores H) :
    Orderly lockRules op (discipline hash S) (storeRow context id (some old) new)
      (fun _ H' => BeforeScores H' ∧ ∀ l ∈ H, l ∈ H') H := by
  have hchecks := foreignKey_reviewerCheck op.1 new
  have hput : Orderly lockRules op (discipline hash S) (put (.putSubmission id new) : Handler Unit)
      (fun _ H' => BeforeScores H' ∧ ∀ l ∈ H, l ∈ H') H := by
    refine ⟨hpair, allows_foreignKeys hchecks H, fun _ _ => ⟨fun l hl => ?_, fun l hl => ?_⟩⟩
    · rcases List.mem_append.mp hl with hl | hl
      · exact (hchecks l (List.mem_reverse.mp hl)).key
      · exact hbefore l hl
    · exact List.mem_append_right _ hl
  unfold storeRow
  cases hk : new.indexEntry with
  | none => exact hput
  | some k =>
      simp only [Option.bind_some, hentry k hk, ne_eq, not_true_eq_false, if_false]
      refine Orderly.select fun v _ => ?_
      split_ifs
      · exact Orderly.throw
      · exact hput

lemma updateRow_orderly (hu : u.Stays) (id : Uuid) (hbefore : BeforeScores H) :
    Orderly lockRules op (discipline hash S) (updateRow context u id)
      (fun a H' => BeforeScores H' ∧ (∀ l ∈ H, l ∈ H') ∧ ∀ p, a = some p → Changed S u H' p) H := by
  unfold updateRow
  have hlock : (lockRules.onLock op (.submission id)).key? = none := rfl
  refine Orderly.acquire (fun _ => hbefore) ?_
  have hbefore' := hbefore.cons hlock
  have hsub : ∀ l ∈ H, l ∈ lockRules.onLock op (.submission id) :: H := fun l hl =>
    List.mem_cons_of_mem _ hl
  refine Orderly.select fun v hv => ?_
  cases hr : v.submission id with
  | none => exact Orderly.pure ⟨hbefore', hsub, fun p hp => nomatch hp⟩
  | some r =>
      by_cases happ : u.applies id r
      · simp only [happ, if_true]
        have hpair : (u.set r).pair ∈ S := by
          rw [hu.pair id r happ]
          exact hv.submission hr
        refine Orderly.seq (storeRow_orderly hpair (hu.entry id r happ) hbefore') fun _ H' hH' => ?_
        refine Orderly.pure ⟨hH'.1, fun l hl => hH'.2 l (hsub l hl), fun p hp => ?_⟩
        obtain rfl := Option.some.inj hp
        exact ⟨(rowLocked_cons_onLock op id H).mono hH'.2, hpair, r, happ⟩
      · simp only [happ]
        exact Orderly.pure ⟨hbefore', hsub, fun p hp => nomatch hp⟩

/-- `UPDATE submissions`: rows are locked in any order, before all scores. -/
lemma updateSubmissions_orderly (hu : u.Stays) (hbefore : BeforeScores H) :
    Orderly lockRules op (discipline hash S) (updateSubmissions context u)
      (fun rows H' => BeforeScores H' ∧ (∀ l ∈ H, l ∈ H') ∧ ∀ p ∈ rows, Changed S u H' p) H := by
  unfold updateSubmissions
  refine Orderly.select fun v _ => ?_
  let J : List Uuid → List (Option (Uuid × Submission)) → List RowLock → Prop :=
    fun _ as H' => BeforeScores H' ∧ (∀ l ∈ H, l ∈ H') ∧ ∀ p, some p ∈ as → Changed S u H' p
  have hloop : ∀ id rest as H', J (id :: rest) as H' →
      Orderly lockRules op (discipline hash S) (updateRow context u id)
        (fun a => J rest (as ++ [a])) H' := by
    rintro id rest as H' ⟨hbefore', hsub, has⟩
    refine (updateRow_orderly hu id hbefore').mono fun a H'' ⟨hbefore'', hsub', ha⟩ => ?_
    refine ⟨hbefore'', fun l hl => hsub' l (hsub l hl), fun p hp => ?_⟩
    rcases List.mem_append.mp hp with hp | hp
    · exact (has p hp).mono hsub'
    · exact ha p (List.mem_singleton.mp hp).symm
  refine Orderly.seq (Orderly.forEach hloop [] ⟨hbefore, fun l hl => hl, fun p hp => nomatch hp⟩) ?_
  rintro rows H' ⟨hbefore', hsub, hrows⟩
  refine Orderly.pure ⟨hbefore', hsub, fun p hp => hrows p ?_⟩
  simpa using List.reduceOption_mem_iff.mp hp

/-! ## Scores -/

/-- The next scores to be locked are of pairs in `S`, and above those that are locked. -/
structure ScoresAhead (hash : Hash) (S : List Pair) (H : List RowLock) (ks : List Pair) : Prop where
  sorted : ks.Pairwise fun a b => toLex a < toLex b
  subset : ∀ k ∈ ks, k ∈ S
  above : ∀ k' ∈ S, ScoreLocked hash H k' → ∀ k ∈ ks, toLex k' < toLex k

/-- A list of foreign keys locks no score. -/
lemma scoreLocked_append {ls : List RowLock} (hls : ∀ l ∈ ls, l.key? = none) {k : Pair} :
    ScoreLocked hash (ls ++ H) k ↔ ScoreLocked hash H k := by
  unfold ScoreLocked
  rw [List.mem_append, or_iff_right]
  exact fun h => nomatch hls _ h

/-- The score of `k` is settled: it was the next to be locked, and no other one is locked. -/
lemma recomputeProblemScore_orderly {k : Pair} {ks : List Pair} (h : ScoresAhead hash S H (k :: ks))
    (hhash : (S.map hash).Nodup) :
    Orderly lockRules op (discipline hash S) (recomputeProblemScore hash k)
      (fun _ H' => ScoresAhead hash S H' ks) H := by
  have hk : k ∈ S := h.subset k (by simp)
  -- whatever else is asked for, the score of `k` is the only one that is locked now
  have hdone : ∀ ls : List RowLock, (∀ l ∈ ls, l.key? = none) →
      ScoresAhead hash S (ls ++ ⟨.advisory (hash k), .forUpdate⟩ :: H) ks := by
    intro ls hls
    refine ⟨h.sorted.of_cons, fun k' hk' => h.subset k' (by simp [hk']), fun k' hk' hlocked k₂ hk₂ => ?_⟩
    have hafter : toLex k < toLex k₂ := (List.pairwise_cons.mp h.sorted).1 k₂ hk₂
    rw [scoreLocked_append hls] at hlocked
    rcases List.mem_cons.mp hlocked with hsame | hlocked
    · have hkey : hash k' = hash k := by simpa using hsame
      obtain rfl := List.inj_on_of_nodup_map hhash hk' hk hkey
      exact hafter
    · exact (h.above k' hk' hlocked k (by simp)).trans hafter
  have hscore : ∀ ls : List RowLock,
      ScoreLocked hash (ls ++ ⟨.advisory (hash k), .forUpdate⟩ :: H) k := fun ls =>
    List.mem_append_right _ (by simp)
  -- the insert, after whatever was asked for so far
  have hinsert : ∀ ls : List RowLock, (∀ l ∈ ls, l.key? = none) →
      Orderly lockRules op (discipline hash S) (insertBestScore k)
        (fun _ H' => ScoresAhead hash S H' ks) (ls ++ ⟨.advisory (hash k), .forUpdate⟩ :: H) := by
    intro ls hls
    unfold insertBestScore
    refine Orderly.select fun v _ => ?_
    cases hbest : v.bestSubmission k with
    | none => exact Orderly.pure (hdone ls hls)
    | some best =>
        cases hpresent : (v.problemScore k).isSome with
        | true => exact Orderly.throw
        | false =>
            obtain ⟨fks, hfks, hchecks⟩ := onWrite_putScore op.1 k (scoreRow best)
            have hlocks : lockRules.onWrite op (.putScore k (scoreRow best)) = _ := hfks
            refine ⟨trivial, ?_, fun _ _ => ?_⟩
            · rw [hlocks]
              exact ⟨⟨rfl, hscore ls⟩, allows_foreignKeys hchecks _⟩
            · rw [hlocks, ← List.append_assoc]
              refine hdone _ fun l hl => ?_
              rcases List.mem_append.mp hl with hl | hl
              · rcases List.mem_cons.mp (List.mem_reverse.mp hl) with rfl | hl
                · rfl
                · exact (hchecks l hl).key
              · exact hls l hl
  unfold recomputeProblemScore
  refine Orderly.acquire ⟨rfl, k, hk, rfl, fun k' hk' hlocked => ?_⟩ ?_
  · exact h.above k' hk' hlocked k (by simp)
  · refine Orderly.select fun v _ => ?_
    cases hpresent : (v.problemScore k).isSome with
    | false => exact hinsert [] fun l hl => nomatch hl
    | true =>
        refine Orderly.put trivial ⟨⟨rfl, hscore []⟩, trivial⟩ ?_
        exact hinsert [⟨.score k, .forUpdate⟩] fun l hl => by simp_all [RowLock.key?]

lemma pairwise_sortedPairs (rows : List (Uuid × Submission)) :
    (sortedPairs rows).Pairwise fun a b => toLex a < toLex b := by
  have hle : (sortedPairs rows).Pairwise fun a b => toLex a ≤ toLex b :=
    List.pairwise_insertionSort _ _
  have hnodup : (sortedPairs rows).Nodup :=
    (List.perm_insertionSort _ _).nodup_iff.mpr (List.nodup_dedup _)
  refine (hle.and hnodup).imp fun h => lt_of_le_of_ne h.1 fun heq => h.2 (toLex.injective heq)

/-- The bookkeeping after an update: tests of locked rows, then the scores in their order. -/
lemma reconcile_orderly {rows : List (Uuid × Submission)} (hhash : (S.map hash).Nodup)
    (hbefore : BeforeScores H) (hrows : ∀ p ∈ rows, Changed S u H p) :
    Orderly lockRules op (discipline hash S) (reconcileSubmissionChanges hash rows)
      (fun _ _ => True) H := by
  unfold reconcileSubmissionChanges
  cases hempty : rows.isEmpty with
  | true => exact Orderly.pure trivial
  | false =>
      let J : List (Uuid × Submission) → List Unit → List RowLock → Prop :=
        fun rest _ H' => BeforeScores H' ∧ (∀ l ∈ H, l ∈ H') ∧ ∀ p ∈ rest, Changed S u H' p
      have htests : ∀ p rest as H', J (p :: rest) as H' →
          Orderly lockRules op (discipline hash S) (put (.deleteTests p.1) : Handler Unit)
            (fun a => J rest (as ++ [a])) H' := by
        rintro p rest as H' ⟨hbefore', hsub, hrest⟩
        have hsub' : ∀ l ∈ H', l ∈ (⟨.tests p.1, .forUpdate⟩ : RowLock) :: H' := fun l hl =>
          List.mem_cons_of_mem _ hl
        refine ⟨trivial, ⟨⟨rfl, (hrest p (by simp)).1⟩, trivial⟩, fun _ _ => ⟨?_, ?_, ?_⟩⟩
        · exact hbefore'.cons rfl
        · exact fun l hl => hsub' l (hsub l hl)
        · exact fun p' hp' => (hrest p' (by simp [hp'])).mono hsub'
      have hscores : ∀ k rest (as : List Unit) H', ScoresAhead hash S H' (k :: rest) →
          Orderly lockRules op (discipline hash S) (recomputeProblemScore hash k)
            (fun _ H' => ScoresAhead hash S H' rest) H' :=
        fun k rest as H' h => recomputeProblemScore_orderly h hhash
      refine Orderly.seq (Orderly.forEach htests [] ⟨hbefore, fun l hl => hl, hrows⟩) ?_
      rintro _ H' ⟨hbefore', -, -⟩
      refine Orderly.seq (Orderly.forEach (J := fun ks _ H => ScoresAhead hash S H ks) hscores []
        ⟨pairwise_sortedPairs rows, ?_, ?_⟩) fun _ _ _ => Orderly.pure trivial
      · intro k hk
        obtain ⟨p, hp, rfl⟩ := mem_sortedPairs.mp hk
        exact (hrows p hp).2.1
      · exact fun k' _ hlocked => (hbefore'.not_scoreLocked k' hlocked).elim

end Rules

/-! ## The transactions keep it -/

section Transactions

variable {op : Settling}

lemma beforeScores_nil : BeforeScores [] := fun _ hl => nomatch hl

/-- One `UPDATE` and its bookkeeping, whatever the count is good for. -/
lemma updateAndReconcile_orderly {α : Type} {u : Update} {context : String} (hu : u.Stays)
    (hhash : (S.map hash).Nodup) {f : ℕ → Handler α}
    (hf : ∀ n H, Orderly lockRules op (discipline hash S) (f n) (fun _ _ => True) H) :
    Orderly lockRules op (discipline hash S) (do
      let rows ← updateSubmissions context u
      let count ← reconcileSubmissionChanges hash rows
      f count) (fun _ _ => True) [] := by
  refine Orderly.seq (updateSubmissions_orderly hu beforeScores_nil) ?_
  rintro rows H ⟨hbefore, -, hrows⟩
  exact Orderly.seq (reconcile_orderly hhash hbefore hrows) fun count H' _ => hf count H'

/-- A count of zero that is an error. -/
lemma orderly_of_count {n : ℕ} {e : JudgeError} {H : List RowLock} :
    Orderly lockRules op (discipline hash S) (if n = 0 then throw e else finish : Handler Unit)
      (fun _ _ => True) H := by
  split_ifs
  · exact Orderly.throw
  · exact Orderly.finish (Orderly.pure trivial)

lemma rejudgeSubmission_orderly (hhash : (S.map hash).Nodup) (id : Uuid) :
    Orderly lockRules op (discipline hash S) (rejudgeSubmission hash id) (fun _ _ => True) [] := by
  have hu : (rejudgeUpdate id).Stays := .of_step (.rejudge id) fun id' r happ => by
    simp only [rejudgeUpdate, decide_eq_true_eq] at happ
    subst happ
    exact .rejudge
  exact Orderly.transaction (updateAndReconcile_orderly hu hhash fun _ _ => orderly_of_count)

lemma rejudgeProblemSubmissions_orderly (hhash : (S.map hash).Nodup) (problemId : Uuid) :
    Orderly lockRules op (discipline hash S) (rejudgeProblemSubmissions hash problemId)
      (fun _ _ => True) [] := by
  have hu : (rejudgeProblemUpdate problemId).Stays := .of_step (.rejudgeProblem problemId) fun id r happ => by
    simp only [rejudgeProblemUpdate, decide_eq_true_eq, Bool.not_eq_true'] at happ
    exact .rejudgeProblem happ.1 happ.2
  exact Orderly.transaction (updateAndReconcile_orderly hu hhash fun _ _ =>
    Orderly.finish (Orderly.pure trivial))

lemma cancelSubmission_orderly (hhash : (S.map hash).Nodup) (id : Uuid) (now : Time) :
    Orderly lockRules op (discipline hash S) (cancelSubmission hash id now) (fun _ _ => True) [] := by
  have hu : (cancelUpdate id now).Stays := .of_step (.cancel id now) fun id' r happ => by
    simp only [cancelUpdate, decide_eq_true_eq] at happ
    obtain ⟨rfl, hactive⟩ := happ
    exact .cancel hactive
  exact Orderly.transaction (updateAndReconcile_orderly hu hhash fun _ _ => orderly_of_count)

lemma unstickTeamSubmissions_orderly (hhash : (S.map hash).Nodup) (teamId : Uuid) (now : Time) :
    Orderly lockRules op (discipline hash S) (unstickTeamSubmissions hash teamId now)
      (fun _ _ => True) [] := by
  have hu : (unstickUpdate teamId now).Stays := .of_step (.unstick teamId now) fun id r happ => by
    simp only [unstickUpdate, decide_eq_true_eq] at happ
    exact .unstick happ.1 happ.2
  exact Orderly.transaction (updateAndReconcile_orderly hu hhash fun _ _ =>
    Orderly.finish (Orderly.pure trivial))

/-- Both updates of the reaper lock their rows before all scores. -/
lemma reclaimExpiredLeases_orderly (hhash : (S.map hash).Nodup) (now : Time) :
    Orderly lockRules op (discipline hash S) (reclaimExpiredLeases hash now) (fun _ _ => True) [] := by
  have hrequeue : (requeueUpdate now).Stays := .of_step (.reap now) fun id r happ => by
    simp only [requeueUpdate, decide_eq_true_eq] at happ
    exact .requeue happ.1 happ.2
  have hfail : (failUpdate now).Stays := .of_step (.reap now) fun id r happ => by
    simp only [failUpdate, decide_eq_true_eq] at happ
    exact .fail happ.1 happ.2
  refine Orderly.transaction (Orderly.seq (updateSubmissions_orderly hrequeue beforeScores_nil) ?_)
  rintro requeued H ⟨hbefore, -, -⟩
  refine Orderly.seq (updateSubmissions_orderly hfail hbefore) ?_
  rintro failed H' ⟨hbefore', -, hrows⟩
  exact Orderly.seq (reconcile_orderly hhash hbefore' hrows) fun _ _ _ =>
    Orderly.finish (Orderly.pure trivial)

/-- A transaction that ends with the score of one pair. -/
lemma settle_orderly (hhash : (S.map hash).Nodup) {k : Pair} (hbefore : BeforeScores H) (hk : k ∈ S) :
    Orderly lockRules op (discipline hash S) (do
      recomputeProblemScore hash k
      finish : Handler Unit) (fun _ _ => True) H := by
  have hahead : ScoresAhead hash S H [k] := by
    refine ⟨List.pairwise_singleton _ _, fun k' hk' => ?_, fun k' _ hlocked => ?_⟩
    · obtain rfl := List.mem_singleton.mp hk'
      exact hk
    · exact (hbefore.not_scoreLocked k' hlocked).elim
  exact Orderly.seq (recomputeProblemScore_orderly hahead hhash) fun _ _ _ =>
    Orderly.finish (Orderly.pure trivial)

/-- A completion that found its row: the tests are replaced, and the score is settled. -/
lemma recordResult_orderly (hhash : (S.map hash).Nodup) (res : Result) {H : List RowLock}
    (hbefore : BeforeScores H) (hrow : RowLocked H res.submissionId) :
    Orderly lockRules op (discipline hash S) (do
      put (.deleteTests res.submissionId)
      let _ ← forEach (insertTest res.submissionId) res.tests
      let row ← select fun db => (db.submission res.submissionId).map Submission.pair
      match row with
      | none => throw (.sql "" .noRows)
      | some k =>
          recomputeProblemScore hash k
          finish : Handler Unit) (fun _ _ => True) H := by
  have hgrow : ∀ {H : List RowLock} {l : RowLock}, RowLocked H res.submissionId →
      RowLocked (l :: H) res.submissionId := fun h => h.mono fun _ hl => List.mem_cons_of_mem _ hl
  let J : List (ℤ × SubmissionTest) → List Unit → List RowLock → Prop :=
    fun _ _ H => BeforeScores H ∧ RowLocked H res.submissionId
  have htests : ∀ t rest as H, J (t :: rest) as H →
      Orderly lockRules op (discipline hash S) (insertTest res.submissionId t)
        (fun a => J rest (as ++ [a])) H := by
    rintro t rest as H ⟨hbefore, hrow⟩
    unfold insertTest
    refine Orderly.select fun v _ => ?_
    split_ifs
    · exact Orderly.throw
    · refine ⟨trivial, ⟨⟨rfl, hrow⟩, fun hm => absurd rfl hm, trivial⟩, fun _ _ => ⟨?_, ?_⟩⟩
      · exact (hbefore.cons rfl).cons rfl
      · exact hgrow (hgrow hrow)
  refine Orderly.put trivial ⟨⟨rfl, hrow⟩, trivial⟩ ?_
  refine Orderly.seq (Orderly.forEach htests [] ⟨hbefore.cons rfl, hgrow hrow⟩) ?_
  rintro _ H' ⟨hbefore', -⟩
  refine Orderly.select fun v hv => ?_
  cases hk : (v.submission res.submissionId).map Submission.pair with
  | none => exact Orderly.throw
  | some k =>
      obtain ⟨r, hr, rfl⟩ := Option.map_eq_some_iff.mp hk
      exact settle_orderly hhash hbefore' (hv.submission hr)

lemma completeSubmissionTx_orderly (hhash : (S.map hash).Nodup) (j : Judged) (workerId : ClaimId)
    (now clock : Time) :
    Orderly lockRules op (discipline hash S) (completeSubmissionTx hash j.result workerId now clock)
      (fun _ _ => True) [] := by
  have hu : (completeUpdate j.result workerId now clock).Stays :=
    .of_step (.complete j workerId now clock) fun _ _ => .complete
  refine Orderly.transaction (Orderly.seq (updateSubmissions_orderly hu beforeScores_nil) ?_)
  rintro rows H ⟨hbefore, -, hrows⟩
  cases rows with
  | nil => exact Orderly.throw
  | cons p rows =>
      obtain ⟨hrow, -, r, happ⟩ := hrows p (by simp)
      simp only [completeUpdate, holdsLease, decide_eq_true_eq] at happ
      rw [happ.1] at hrow
      exact recordResult_orderly hhash j.result hbefore hrow

/-- A review locks its row, records itself, and settles the score of the row's pair. -/
lemma reviewSubmissionTx_orderly (hhash : (S.map hash).Nodup) (submissionId : Uuid)
    (reviewerId : Option Uuid) (status : ReviewStatus) (reason : String) (now : Time) :
    Orderly lockRules op (discipline hash S)
      (reviewSubmissionTx hash submissionId reviewerId status reason now) (fun _ _ => True) [] := by
  have hu : (reviewUpdate submissionId reviewerId status reason now).Stays :=
    .of_step (.review submissionId reviewerId status reason now) fun id r happ => by
      simp only [reviewUpdate, decide_eq_true_eq] at happ
      subst happ
      exact .review
  refine Orderly.transaction (Orderly.acquire (fun _ => beforeScores_nil) ?_)
  refine Orderly.select fun v hv => ?_
  cases hr : v.submission submissionId with
  | none => exact Orderly.throw
  | some r =>
      have hk : r.pair ∈ S := hv.submission hr
      refine Orderly.seq (updateRow_orderly hu submissionId (beforeScores_nil.cons rfl)) ?_
      rintro a H ⟨hbefore, -, -⟩
      refine Orderly.select fun v' _ => ?_
      split_ifs with hknown hchanged
      · have hchecks := foreignKey_putReview op.1 ⟨submissionId, reviewerId, r.reviewStatus, status, reason⟩
        refine Orderly.put trivial (allows_foreignKeys hchecks H) (settle_orderly hhash (fun l hl => ?_) hk)
        rcases List.mem_append.mp hl with hl | hl
        · exact (hchecks l (List.mem_reverse.mp hl)).key
        · exact hbefore l hl
      · exact settle_orderly hhash hbefore hk
      · exact Orderly.throw

/-- Every transaction that settles submissions asks for its locks in the order of the discipline. -/
theorem settling_keeps (hhash : (S.map hash).Nodup) (op : Settling) :
    Tx.Keeps lockRules op (discipline hash S) (op.1.program hash) (fun _ _ => True) [] := by
  have hdone : ∀ {α : Type} {t : Handler α} {f : α → Answer},
      Orderly lockRules op (discipline hash S) t (fun _ _ => True) [] →
      Tx.Keeps lockRules op (discipline hash S) (do return f (← t) : Handler Answer).run
        (fun _ _ => True) [] := by
    intro α t f ht
    have hmap : Orderly lockRules op (discipline hash S) (do return f (← t) : Handler Answer)
        (fun _ _ => True) [] := Orderly.seq ht fun _ _ _ => Orderly.pure trivial
    exact Tx.Keeps.mono hmap fun _ _ _ => trivial
  obtain ⟨op, hop⟩ := op
  cases op with
  | create => exact nomatch hop
  | claim => exact nomatch hop
  | renew => exact nomatch hop
  | complete j workerId now clock =>
      exact hdone (completeSubmissionTx_orderly hhash j workerId now clock)
  | reap now => exact hdone (reclaimExpiredLeases_orderly hhash now)
  | review submissionId reviewerId status reason now =>
      refine hdone (Orderly.seq (reviewSubmissionTx_orderly hhash submissionId reviewerId status reason
        now) fun _ H _ => Orderly.select fun v _ => ?_)
      cases v.submission submissionId with
      | none => exact Orderly.throw
      | some r => exact Orderly.pure trivial
  | rejudge id => exact hdone (rejudgeSubmission_orderly hhash id)
  | rejudgeProblem problemId => exact hdone (rejudgeProblemSubmissions_orderly hhash problemId)
  | cancel id now => exact hdone (cancelSubmission_orderly hhash id now)
  | unstick teamId now => exact hdone (unstickTeamSubmissions_orderly hhash teamId now)

end Transactions

end Labyrithm
