import Labyrithm.Portal.Progress
import Mathlib.Data.List.TakeWhile

/-!
# When the portal settles on the final result

A submission has come to a final state, and the messages about it, about its earlier states too, reach
the client in any order and more than once, among those of other submissions.

* `Supersedes F E` — what the messages `F` of the final state have over the earlier ones `E`: they
  name the last attempt, or no attempt and a time of finishing after every attempt.
* `Settled` — the server-side counterpart for the versions of the row, kept by every operation.
* **`Portal.progress_converges`** — the client settles on the final state with the first message of it,
  unless that state has no attempt (a cancelled submission, an exhausted lease) and a result of
  earlier is held: such a message never replaces a result.
-/

namespace Labyrithm

open Sql Tx

namespace Portal

/-! ## Messages of a final state -/

/-- The message `m` is older than an attempt that starts at `t`. -/
def OlderThan (t : Time) (m : StatusResponse) : Prop :=
  (∀ t₀, m.attemptStartedAt = some t₀ → dateParse t₀ < dateParse t) ∧
    (m.attemptStartedAt = none → ∀ f₀, m.finishedAt = some f₀ → dateParse f₀ < dateParse t)

/-- The messages `F` are of a final state, the messages `E` of what came before: the last attempt has
ended, or the submission was given up. -/
inductive Supersedes (F E : StatusResponse → Prop) : Prop
  | attempted (t : Time) :
      (∀ m, F m → m.status.terminal ∧ m.attemptStartedAt = some t ∧
        ∃ f, m.finishedAt = some f ∧ dateParse t ≤ dateParse f) →
      (∀ m, E m → OlderThan t m ∨ (m.attemptStartedAt = some t ∧ m.status.terminal = false)) →
      Supersedes F E
  | givenUp (f : Time) :
      (∀ m, F m → m.status.terminal ∧ m.attemptStartedAt = none ∧ m.finishedAt = some f) →
      (∀ m, E m → ∀ t₀, m.attemptStartedAt = some t₀ → dateParse t₀ ≤ dateParse f) →
      Supersedes F E

variable {F E : StatusResponse → Prop} {h m : StatusResponse}

lemma Supersedes.terminal (hs : Supersedes F E) (hm : F m) : m.status.terminal := by
  cases hs with
  | attempted t hF => exact (hF m hm).1
  | givenUp f hF => exact (hF m hm).1

lemma rest_of_terminal (hterm : h.status.terminal) :
    shouldApplySubmissionProgress.rest h m = false := by
  unfold shouldApplySubmissionProgress.rest
  split_ifs <;> rfl

/-- A result is not replaced by the result of another state without an attempt. -/
lemma not_apply_givenUp (hterm : h.status.terminal) (hm : m.attemptStartedAt = none) :
    shouldApplySubmissionProgress (some h) m = false := by
  unfold shouldApplySubmissionProgress
  simp only [hm]
  cases h.attemptStartedAt with
  | none => exact rest_of_terminal hterm
  | some t =>
      simp only
      split_ifs
      · rfl
      · exact rest_of_terminal hterm

/-- The result of the last attempt replaces whatever came before. -/
lemma apply_attempted {t : Time} (hm : m.status.terminal ∧ m.attemptStartedAt = some t ∧
      ∃ f, m.finishedAt = some f ∧ dateParse t ≤ dateParse f)
    (hh : OlderThan t h ∨ (h.attemptStartedAt = some t ∧ h.status.terminal = false)) :
    shouldApplySubmissionProgress (some h) m = true := by
  obtain ⟨hterm, hattempt, f, hf, hle⟩ := hm
  unfold shouldApplySubmissionProgress
  simp only [hattempt]
  rcases hh with ⟨hsome, hnone⟩ | ⟨hsame, hrunning⟩
  · cases hold : h.attemptStartedAt with
    | none =>
        cases hfin : h.finishedAt with
        | none => rfl
        | some f₀ => simpa using hnone hold f₀ hfin
    | some t₀ =>
        have hlt := hsome t₀ hold
        simp only
        rw [if_pos (ne_of_lt hlt)]
        simpa using hlt
  · simp only [hsame, ne_eq, not_true_eq_false, if_false, shouldApplySubmissionProgress.rest, hf,
      shouldApplySubmissionProgress.finishedBefore, hrunning, hterm, Bool.false_eq_true, if_true]
    simpa using hle

/-- That a submission was given up replaces all but a result. -/
lemma apply_givenUp {f : Time} (hm : m.status.terminal ∧ m.attemptStartedAt = none ∧
      m.finishedAt = some f)
    (hh : ∀ t₀, h.attemptStartedAt = some t₀ → dateParse t₀ ≤ dateParse f)
    (hrunning : h.status.terminal = false) : shouldApplySubmissionProgress (some h) m = true := by
  obtain ⟨hterm, hattempt, hf⟩ := hm
  unfold shouldApplySubmissionProgress
  simp only [hattempt]
  cases hold : h.attemptStartedAt with
  | none =>
      simp [shouldApplySubmissionProgress.rest, shouldApplySubmissionProgress.finishedBefore, hold,
        hf, hrunning, hterm]
  | some t₀ =>
      simp [shouldApplySubmissionProgress.rest, shouldApplySubmissionProgress.finishedBefore, hold,
        hf, hrunning, hterm, hh t₀ hold]

/-- Nothing replaces the final state once it is held. -/
lemma not_apply_of_final (hs : Supersedes F E) (hh : F h) (hm : F m ∨ E m) :
    shouldApplySubmissionProgress (some h) m = false := by
  have hterm := hs.terminal hh
  cases hattempt : m.attemptStartedAt with
  | none => exact not_apply_givenUp hterm hattempt
  | some t₀ =>
      unfold shouldApplySubmissionProgress
      simp only [hattempt]
      cases hs with
      | attempted t hF hE =>
          simp only [(hF h hh).2.1]
          split_ifs with hne
          · have hlt : dateParse t₀ < dateParse t := by
              rcases hm with hm | hm
              · obtain rfl := Option.some.inj (hattempt.symm.trans (hF m hm).2.1)
                exact absurd rfl hne
              · rcases hE m hm with hold | ⟨hsame, -⟩
                · exact hold.1 t₀ hattempt
                · obtain rfl := Option.some.inj (hattempt.symm.trans hsame)
                  exact absurd rfl hne
            simpa using hlt.le
          · exact rest_of_terminal hterm
      | givenUp f hF hE =>
          simp only [(hF h hh).2.1, (hF h hh).2.2]
          have hle : dateParse t₀ ≤ dateParse f := by
            rcases hm with hm | hm
            · rw [(hF m hm).2.1] at hattempt
              cases hattempt
            · exact hE m hm t₀ hattempt
          simpa using hle

/-! ## The messages of one submission, one after the other -/

variable {ms : List StatusResponse} {held : Option StatusResponse}

/-- With the first message of the final state the client holds it, and then keeps what it holds. -/
def Converges (F : StatusResponse → Prop) (ms : List StatusResponse) : Prop :=
  ∀ pre m post, ms = pre ++ m :: post → F m →
    ∃ h, F h ∧ (pre ++ [m]).foldl keep none = some h ∧ ms.foldl keep none = some h

/-- No message that the submission was given up arrives while another result is held. -/
def Unpinned (F : StatusResponse → Prop) (ms : List StatusResponse) : Prop :=
  ∀ pre m post, ms = pre ++ m :: post → F m → m.attemptStartedAt = none →
    ∀ h, pre.foldl keep none = some h → h.status.terminal → F h

lemma foldl_keep_mem (hms : ∀ m ∈ ms, F m ∨ E m) (hheld : ∀ h, held = some h → F h ∨ E h) :
    ∀ h, ms.foldl keep held = some h → F h ∨ E h := by
  induction ms generalizing held with
  | nil => exact hheld
  | cons m ms ih =>
      refine ih (fun m' hm' => hms m' (List.mem_cons_of_mem m hm')) fun h hh => ?_
      unfold keep at hh
      split_ifs at hh
      · exact Option.some.inj hh ▸ hms m (by simp)
      · exact hheld h hh

/-- Once the final state is held, it stays. -/
lemma foldl_keep_final (hs : Supersedes F E) (hh : F h) (hms : ∀ m ∈ ms, F m ∨ E m) :
    ms.foldl keep (some h) = some h := by
  induction ms with
  | nil => rfl
  | cons m ms ih =>
      have hsame : keep (some h) m = some h := by
        rw [keep, not_apply_of_final hs hh (hms m (by simp))]
        rfl
      rw [List.foldl_cons, hsame]
      exact ih fun m' hm' => hms m' (List.mem_cons_of_mem m hm')

/-- The final state is taken over, unless the submission was given up and another result is held. -/
lemma keep_final (hs : Supersedes F E) (hm : F m) (hheld : ∀ h, held = some h → F h ∨ E h)
    (hpin : m.attemptStartedAt = none → ∀ h, held = some h → h.status.terminal → F h) :
    ∃ h, F h ∧ keep held m = some h := by
  cases held with
  | none => exact ⟨m, hm, rfl⟩
  | some h =>
      rcases hheld h rfl with hh | hh
      · refine ⟨h, hh, ?_⟩
        rw [keep, not_apply_of_final hs hh (Or.inl hm)]
        rfl
      · cases hs with
        | attempted t hF hE => exact ⟨m, hm, by rw [keep, if_pos (apply_attempted (hF m hm) (hE h hh))]⟩
        | givenUp f hF hE =>
            cases hterm : h.status.terminal with
            | true =>
                have hFh := hpin (hF m hm).2.1 h rfl hterm
                refine ⟨h, hFh, ?_⟩
                rw [keep, not_apply_givenUp hterm (hF m hm).2.1]
                rfl
            | false =>
                exact ⟨m, hm, by rw [keep, if_pos (apply_givenUp (hF m hm) (hE h hh) hterm)]⟩

theorem converges_of_unpinned (hs : Supersedes F E) (hms : ∀ m ∈ ms, F m ∨ E m)
    (hpin : Unpinned F ms) : Converges F ms := by
  rintro pre m post rfl hm
  have hpre : ∀ h, pre.foldl keep none = some h → F h ∨ E h :=
    foldl_keep_mem (fun m' hm' => hms m' (List.mem_append_left _ hm')) (by simp)
  obtain ⟨h, hh, hkeep⟩ := keep_final hs hm hpre (hpin pre m post rfl hm)
  refine ⟨h, hh, by rw [List.foldl_concat, hkeep], ?_⟩
  rw [List.foldl_append, List.foldl_cons, hkeep]
  exact foldl_keep_final hs hh fun m' hm' =>
    hms m' (List.mem_append_right _ (List.mem_cons_of_mem m hm'))

theorem unpinned_of_converges (hc : Converges F ms) : Unpinned F ms := by
  rintro pre m post rfl hm hattempt h hpre hterm
  obtain ⟨h', hh', hkeep, -⟩ := hc pre m post rfl hm
  rw [List.foldl_concat, hpre, keep, not_apply_givenUp hterm hattempt] at hkeep
  obtain rfl := Option.some.inj hkeep
  exact hh'

/-! ## The versions of a row in time -/

/-- The time an operation reads for what it writes to a row. -/
def stampOf : Op → Option Time
  | .claim _ now _ _ => some now
  | .complete _ _ _ clock => some clock
  | .reap now | .cancel _ now | .unstick _ now => some now
  | _ => none

def claims : Op → Bool
  | .claim _ _ _ _ => true
  | _ => false

/-- The version `v`, written after `w`, has the later time, and is in a later millisecond if it is of
a new attempt. -/
def inTime (v w : Version) : Bool :=
  match stampOf v.op, stampOf w.op with
  | some t, some t₀ =>
      dateParse t₀ ≤ dateParse t ∧ (claims v.op → dateParse t₀ < dateParse t)
  | _, _ => true

/-- The clocks that the operations on a row have read go forward, newest version first. -/
def Timely (vs : List Version) : Prop := vs.Pairwise fun v w => inTime v w

instance (vs : List Version) : Decidable (Timely vs) :=
  inferInstanceAs (Decidable (vs.Pairwise fun v w => inTime v w))

variable {id : Uuid} {v w : Version} {vs : List Version} {t t₀ f : Time} {r r' : Submission}

lemma inTime_le (h : inTime v w) (hv : stampOf v.op = some t) (hw : stampOf w.op = some t₀) :
    dateParse t₀ ≤ dateParse t ∧ (claims v.op → dateParse t₀ < dateParse t) := by
  simpa only [inTime, hv, hw, decide_eq_true_eq] using h

/-- The row shows a time, of its attempt or of its end. -/
def Shows (r : Submission) (t : Time) : Prop := r.claimedAt = some t ∨ r.finishedAt = some t

/-- A time that a row shows was there before, or is that of the operation. -/
lemma shows_of_step {op : Op} (h : op.Step id r r') (ht : Shows r' t) :
    Shows r t ∨ stampOf op = some t := by
  cases h with
  | claim =>
      rcases ht with h | h
      · exact Or.inr h
      · exact Or.inl (Or.inr h)
  | renew | review => exact Or.inl ht
  | complete =>
      rcases ht with h | h
      · exact Or.inl (Or.inl h)
      · exact Or.inr h
  | requeue =>
      rcases ht with h | h
      · cases h
      · exact Or.inl (Or.inr h)
  | fail | cancel | unstick =>
      rcases ht with h | h
      · cases h
      · exact Or.inr h
  | rejudge | rejudgeProblem => rcases ht with h | h <;> cases h

/-- Every time a version shows is that of an operation in its history. -/
lemma shows_stamped (h : Versions id vs) (hw : w ∈ vs) (ht : Shows w.row t) :
    ∃ u ∈ vs, stampOf u.op = some t := by
  induction h generalizing w with
  | @insert op r hins =>
      obtain rfl := List.mem_singleton.mp hw
      cases op with
      | create n now clock =>
          obtain ⟨-, maxScore, testsTotal, rfl⟩ := hins
          rcases ht with h | h <;> cases h
      | _ => exact hins.elim
  | update _ hstep ih =>
      rcases List.mem_cons.mp hw with rfl | hw
      · rcases shows_of_step hstep ht with ht | ht
        · obtain ⟨u, hu, hstamp⟩ := ih (List.mem_cons_self ..) ht
          exact ⟨u, List.mem_cons_of_mem _ hu, hstamp⟩
        · exact ⟨_, List.mem_cons_self .., ht⟩
      · obtain ⟨u, hu, hstamp⟩ := ih hw ht
        exact ⟨u, List.mem_cons_of_mem _ hu, hstamp⟩

/-- What the versions before an operation show is in its time. -/
lemma shows_before (h : Versions id vs) (htime : Timely (v :: vs)) (ht : stampOf v.op = some t)
    (hw : w ∈ vs) (hw₀ : Shows w.row t₀) :
    dateParse t₀ ≤ dateParse t ∧ (claims v.op → dateParse t₀ < dateParse t) := by
  obtain ⟨u, hu, hstamp⟩ := shows_stamped h hw hw₀
  exact inTime_le ((List.pairwise_cons.mp htime).1 u hu) ht hstamp

/-- The row is older than an attempt that starts at `t`, or of that attempt and not finished. -/
def UpTo (t : Time) (r : Submission) : Prop :=
  (∀ t₀, Shows r t₀ → dateParse t₀ < dateParse t) ∨
    (r.claimedAt = some t ∧ r.state.terminal = false)

/-- While a submission is running, all its versions are older than its attempt, or of it. -/
lemma upTo_of_running (h : Versions id (v :: vs)) (htime : Timely (v :: vs))
    (hrun : v.row.state = .running) (ht : v.row.claimedAt = some t) :
    ∀ w ∈ v :: vs, UpTo t w.row := by
  generalize hl : v :: vs = l at h htime
  induction h generalizing v vs with
  | @insert op r hins =>
      obtain ⟨rfl, rfl⟩ := List.cons.inj hl
      cases op with
      | create n now clock =>
          obtain ⟨-, maxScore, testsTotal, rfl⟩ := hins
          cases ht
      | _ => exact hins.elim
  | @update op r' u us hu hstep ih =>
      obtain ⟨rfl, rfl⟩ := List.cons.inj hl
      have hself : UpTo t r' := Or.inr ⟨ht, by rw [hrun]; rfl⟩
      -- an operation on a running submission leaves the attempt as it is
      have kept : u.row.state = .running → u.row.claimedAt = some t →
          ∀ w ∈ ⟨op, r'⟩ :: u :: us, UpTo t w.row := fun hrun' ht' =>
        List.forall_mem_cons.mpr ⟨hself, ih hrun' ht' rfl (List.pairwise_cons.mp htime).2⟩
      cases hstep with
      | claim =>
          refine List.forall_mem_cons.mpr ⟨hself, fun w hw => Or.inl fun t₀ hw₀ => ?_⟩
          exact (shows_before hu htime ht hw hw₀).2 rfl
      | renew | review => exact kept hrun ht
      | @complete j => rcases j.evaluated.status with hs | hs <;> simp [completeUpdate, hs] at hrun
      | requeue | fail | rejudge | rejudgeProblem | cancel | unstick => cases ht

def isFinal (v : Version) : Bool := v.row.state.terminal

/-- The versions of the final state, and those before. -/
def finalVersions (vs : List Version) : List Version := vs.takeWhile isFinal

def earlierVersions (vs : List Version) : List Version := vs.dropWhile isFinal

/-- How a submission has come to its final state: its last attempt has ended, or it was given up. -/
inductive Settled (vs : List Version) : Prop
  | attempted (t : Time) :
      (∀ w ∈ finalVersions vs, w.row.claimedAt = some t ∧
        ∃ f, w.row.finishedAt = some f ∧ dateParse t ≤ dateParse f) →
      (∀ w ∈ earlierVersions vs, UpTo t w.row) → Settled vs
  | givenUp (f : Time) :
      (∀ w ∈ finalVersions vs, w.row.claimedAt = none ∧ w.row.finishedAt = some f) →
      (∀ w ∈ earlierVersions vs, ∀ t₀, w.row.claimedAt = some t₀ → dateParse t₀ ≤ dateParse f) →
      Settled vs

/-- A review leaves the final state as it is. -/
lemma Settled.review (h : Settled (v :: vs)) (hv : isFinal v) (hw : isFinal w)
    (hclaimed : w.row.claimedAt = v.row.claimedAt)
    (hfinished : w.row.finishedAt = v.row.finishedAt) : Settled (w :: v :: vs) := by
  have hfinal : finalVersions (w :: v :: vs) = w :: finalVersions (v :: vs) :=
    List.takeWhile_cons_of_pos hw
  have hearlier : earlierVersions (w :: v :: vs) = earlierVersions (v :: vs) :=
    List.dropWhile_cons_of_pos hw
  have hmem : v ∈ finalVersions (v :: vs) := by
    rw [finalVersions, List.takeWhile_cons_of_pos hv]
    exact List.mem_cons_self ..
  cases h with
  | attempted t hF hE =>
      refine .attempted t ?_ (hearlier ▸ hE)
      rw [hfinal]
      exact List.forall_mem_cons.mpr ⟨by rw [hclaimed, hfinished]; exact hF v hmem, hF⟩
  | givenUp f hF hE =>
      refine .givenUp f ?_ (hearlier ▸ hE)
      rw [hfinal]
      exact List.forall_mem_cons.mpr ⟨by rw [hclaimed, hfinished]; exact hF v hmem, hF⟩

/-- The state before was not final. -/
lemma split_versions (vs : List Version) (hv : v.row.state.terminal = false) (hw : w.row.state.terminal) :
    finalVersions (w :: v :: vs) = [w] ∧ earlierVersions (w :: v :: vs) = v :: vs := by
  have hv : ¬ isFinal v := by simp [isFinal, hv]
  have hw : isFinal w := hw
  constructor
  · rw [finalVersions, List.takeWhile_cons_of_pos hw, List.takeWhile_cons_of_neg hv]
  · rw [earlierVersions, List.dropWhile_cons_of_pos hw, List.dropWhile_cons_of_neg hv]

lemma not_terminal_of_active (h : r.active) : r.state.terminal = false := by
  rcases Submission.active_iff.mp h with h | h <;> rw [h] <;> rfl

/-- A submission that is given up has settled. -/
lemma Settled.of_givenUp (h : Versions id (v :: vs)) (htime : Timely (w :: v :: vs))
    (hactive : v.row.active) (hstamp : stampOf w.op = some f) (hrow : w.row = abandon f v.row) :
    Settled (w :: v :: vs) := by
  have hterm : w.row.state.terminal := by rw [hrow]; rfl
  obtain ⟨hfinal, hearlier⟩ := split_versions vs (not_terminal_of_active hactive) hterm
  refine .givenUp f ?_ ?_
  · rw [hfinal]
    simp [hrow, abandon]
  · rw [hearlier]
    exact fun u hu t₀ ht₀ => (shows_before h htime hstamp hu (Or.inl ht₀)).1

/-- A submission in a final state has settled. -/
theorem settled (h : Versions id (v :: vs)) (htime : Timely (v :: vs))
    (hterm : v.row.state.terminal) : Settled (v :: vs) := by
  generalize hl : v :: vs = l at h htime
  induction h generalizing v vs with
  | @insert op r hins =>
      obtain ⟨rfl, rfl⟩ := List.cons.inj hl
      cases op with
      | create n now clock =>
          obtain ⟨-, maxScore, testsTotal, rfl⟩ := hins
          cases hterm
      | _ => exact hins.elim
  | @update op r' u us hu hstep ih =>
      obtain ⟨rfl, rfl⟩ := List.cons.inj hl
      have hbefore : Timely (u :: us) := (List.pairwise_cons.mp htime).2
      have hwf := hu.wellFormed (List.mem_cons_self ..)
      cases hstep with
      | claim | requeue | rejudge | rejudgeProblem => cases hterm
      | renew hlease =>
          simp only [holdsLease, decide_eq_true_eq] at hlease
          have hrun : u.row.state.terminal = false := by rw [hlease.2.2.1]; rfl
          exact absurd hterm (by simp [renewUpdate, hrun])
      | review =>
          have hfinal : isFinal u := hterm
          exact (ih hfinal rfl hbefore).review hfinal hterm rfl rfl
      | @complete j workerId now clock _ _ hlease =>
          simp only [holdsLease, decide_eq_true_eq] at hlease
          have hrun := hlease.2.2.1
          obtain ⟨t, ht⟩ := Option.isSome_iff_exists.mp (hwf.running hrun).2.1
          obtain ⟨hfinal, hearlier⟩ :=
            split_versions us (not_terminal_of_active (Submission.active_iff.mpr (Or.inr hrun))) hterm
          refine .attempted t ?_ ?_
          · rw [hfinal]
            have hle := (shows_before (v := ⟨.complete j workerId now clock, _⟩) hu htime rfl
              (List.mem_cons_self ..) (Or.inl ht)).1
            simpa [completeUpdate, ht] using hle
          · rw [hearlier]
            exact upTo_of_running hu hbefore hrun ht
      | fail hexp => exact .of_givenUp hu htime (active_of_expired hexp) rfl rfl
      | cancel hactive => exact .of_givenUp hu htime hactive rfl rfl
      | unstick _ hactive => exact .of_givenUp hu htime hactive rfl rfl

/-! ## What the server says of a submission -/

/-- The message is about one of the versions `vs` of the row. -/
def Says (id : Uuid) (vs : List Version) (m : StatusResponse) : Prop := ∃ v ∈ vs, Emitted id v m

lemma says_split {m : StatusResponse} (h : Says id vs m) :
    Says id (finalVersions vs) m ∨ Says id (earlierVersions vs) m := by
  obtain ⟨v, hv, hm⟩ := h
  have hsplit : finalVersions vs ++ earlierVersions vs = vs := List.takeWhile_append_dropWhile
  rw [← hsplit, List.mem_append] at hv
  exact hv.imp (fun hv => ⟨v, hv, hm⟩) fun hv => ⟨v, hv, hm⟩

lemma mem_of_final (hv : v ∈ finalVersions vs) : v ∈ vs ∧ isFinal v :=
  ⟨(List.takeWhile_prefix isFinal).subset hv, List.mem_takeWhile_imp hv⟩

/-- What is said of the final state has over what is said of the earlier ones. -/
theorem Settled.supersedes (hvs : Versions id vs) (h : Settled vs) :
    Supersedes (Says id (finalVersions vs)) (Says id (earlierVersions vs)) := by
  have earlier : ∀ v ∈ earlierVersions vs, v ∈ vs :=
    fun v hv => (List.dropWhile_suffix isFinal).subset hv
  cases h with
  | attempted t hF hE =>
      refine .attempted t ?_ ?_
      · rintro m ⟨v, hv, hm⟩
        have hreport := hm.reports hvs (mem_of_final hv).1
        obtain ⟨hclaimed, f, hf, hle⟩ := hF v hv
        obtain ⟨f', hf', hff', -⟩ := hreport.finished f hf
        exact ⟨hreport.terminal.trans (mem_of_final hv).2, hreport.attempt.trans hclaimed, f', hf',
          hle.trans (dateParse_mono hff')⟩
      · rintro m ⟨v, hv, hm⟩
        have hreport := hm.reports hvs (earlier v hv)
        rcases hE v hv with hold | ⟨hsame, hrun⟩
        · refine Or.inl ⟨fun t₀ ht₀ => hold t₀ (Or.inl (hreport.attempt.symm.trans ht₀)), ?_⟩
          intro hnone f₀ hf₀
          cases hfin : v.row.finishedAt with
          | none =>
              rw [hreport.unfinished hfin] at hf₀
              cases hf₀
          | some f =>
              obtain ⟨f', hf', -, heq⟩ := hreport.finished f hfin
              obtain rfl := Option.some.inj (hf'.symm.trans hf₀)
              rw [heq (hreport.attempt.symm.trans hnone)]
              exact hold f (Or.inr hfin)
        · exact Or.inr ⟨hreport.attempt.trans hsame, hreport.terminal.trans hrun⟩
  | givenUp f hF hE =>
      refine .givenUp f ?_ ?_
      · rintro m ⟨v, hv, hm⟩
        have hreport := hm.reports hvs (mem_of_final hv).1
        obtain ⟨hclaimed, hf⟩ := hF v hv
        obtain ⟨f', hf', -, heq⟩ := hreport.finished f hf
        rw [heq hclaimed] at hf'
        exact ⟨hreport.terminal.trans (mem_of_final hv).2, hreport.attempt.trans hclaimed, hf'⟩
      · rintro m ⟨v, hv, hm⟩ t₀ ht₀
        have hreport := hm.reports hvs (earlier v hv)
        exact hE v hv t₀ (hreport.attempt.symm.trans ht₀)

/-! ## The client -/

/-- With the first message of the final state that arrives the client holds that state, and keeps it
whatever arrives later. -/
def ProgressConverges (id : Uuid) (F : StatusResponse → Prop) (ms : List StatusResponse) : Prop :=
  ∀ pre m post, ms = pre ++ m :: post → m.submissionId = id → F m →
    ∃ h, F h ∧ (receive .empty (pre ++ [m])).held id = some h ∧
      (receive .empty ms).held id = some h

/-- When a message arrives that the submission was given up, no earlier result is held. -/
def NoResultHeld (id : Uuid) (F : StatusResponse → Prop) (ms : List StatusResponse) : Prop :=
  ∀ pre m post, ms = pre ++ m :: post → m.submissionId = id → F m → m.attemptStartedAt = none →
    ∀ h, (receive .empty pre).held id = some h → h.status.terminal → F h

/-- What is true at each place of a filtered list. -/
lemma forall_split_filter {α : Type} {p : α → Bool} {l : List α} {P : List α → α → Prop} :
    (∀ pre m post, l = pre ++ m :: post → p m → P (pre.filter p) m) ↔
      ∀ pre m post, l.filter p = pre ++ m :: post → P pre m := by
  constructor
  · intro h pre m post hl
    obtain ⟨l₁, l₂, rfl, rfl, hl₂⟩ := List.filter_eq_append_iff.mp hl
    obtain ⟨l₃, l₄, rfl, hl₃, hm, -⟩ := List.filter_eq_cons_iff.mp hl₂
    have hsplit := h (l₁ ++ l₃) m l₄ (by simp) hm
    rwa [List.filter_append, List.filter_eq_nil_iff.mpr hl₃, List.append_nil] at hsplit
  · rintro h pre m post rfl hm
    exact h (pre.filter p) m (post.filter p) (by rw [List.filter_append, List.filter_cons_of_pos hm])

/-- The submissions that the messages are about. -/
def submissionsOf (ms : List StatusResponse) : List Uuid :=
  (ms.map StatusResponse.submissionId).dedup

lemma held_eq {ms pre : List StatusResponse} (hfew : (submissionsOf ms).length ≤ 256)
    (hpre : pre ⊆ ms) (id : Uuid) :
    (receive .empty pre).held id
      = (pre.filter fun m => m.submissionId = id).foldl keep none := by
  have hempty : State.empty.HoldsOf (submissionsOf ms) := ⟨List.nodup_nil, List.nil_subset _⟩
  refine held_receive hfew (fun m hm => ?_) hempty id
  exact List.mem_dedup.mpr (List.mem_map_of_mem (hpre hm))

/-- On the messages of one submission, among those of at most 256. -/
lemma progressConverges_iff {ms : List StatusResponse} {F : StatusResponse → Prop}
    (hfew : (submissionsOf ms).length ≤ 256) :
    ProgressConverges id F ms ↔ Converges F (ms.filter fun m => m.submissionId = id) := by
  have hall := held_eq hfew (List.Subset.refl ms) id
  refine Iff.trans ?_ (forall_split_filter (P := fun pre m => F m → ∃ h, F h ∧
    (pre ++ [m]).foldl keep none = some h ∧
      (ms.filter fun m => m.submissionId = id).foldl keep none = some h))
  refine forall_congr' fun pre => forall_congr' fun m => forall_congr' fun post =>
    forall_congr' fun hms => ?_
  have hsub : pre ++ [m] ⊆ ms := by
    rw [hms]
    simp [List.subset_def]
    tauto
  rw [held_eq hfew hsub, hall, List.filter_append]
  constructor
  · intro h hid
    simpa [hid] using h (of_decide_eq_true hid)
  · intro h hid
    simpa [hid] using h (decide_eq_true hid)

lemma noResultHeld_iff {ms : List StatusResponse} {F : StatusResponse → Prop}
    (hfew : (submissionsOf ms).length ≤ 256) :
    NoResultHeld id F ms ↔ Unpinned F (ms.filter fun m => m.submissionId = id) := by
  refine Iff.trans ?_ (forall_split_filter (P := fun pre m => F m → m.attemptStartedAt = none →
    ∀ h, pre.foldl keep none = some h → h.status.terminal → F h))
  refine forall_congr' fun pre => forall_congr' fun m => forall_congr' fun post =>
    forall_congr' fun hms => ?_
  have hsub : pre ⊆ ms := by
    rw [hms]
    exact List.subset_append_left _ _
  rw [held_eq hfew hsub]
  exact ⟨fun h hid => h (of_decide_eq_true hid), fun h hid => h (decide_eq_true hid)⟩

/-- **The portal converges.**  A submission has come to a final state in some run of the judge, and
the client receives messages about its versions, in any order and more than once, among those of at
most 256 submissions.  If the clocks behind the versions went forward, and no earlier result was held
when a message arrived that the submission had been given up, then with the first message of the final
state the client holds that state, and nothing that arrives later changes what it holds.  If an
earlier result was held, it does not. -/
theorem progress_converges {hash : Hash} {s : Judge.State} (hs : Judge.Reachable hash s)
    (hr : s.db.submission id = some r) (hfinal : r.state.terminal) {ms : List StatusResponse}
    (hms : ∀ m ∈ ms, m.submissionId = id → Says id (versionsIn id s.log) m)
    (hfew : (submissionsOf ms).length ≤ 256) :
    (Timely (versionsIn id s.log) →
      NoResultHeld id (Says id (finalVersions (versionsIn id s.log))) ms →
      ProgressConverges id (Says id (finalVersions (versionsIn id s.log))) ms) ∧
    (ProgressConverges id (Says id (finalVersions (versionsIn id s.log))) ms →
      NoResultHeld id (Says id (finalVersions (versionsIn id s.log))) ms) := by
  have hhistory := Judge.versions_of_log hs id
  rw [hr] at hhistory
  obtain ⟨op, older, hvs, hversions⟩ := hhistory
  refine ⟨fun htime hheld => ?_, fun hconv => ?_⟩
  · have hsettled : Settled (versionsIn id s.log) := by
      rw [hvs] at hversions htime ⊢
      exact settled hversions htime hfinal
    rw [progressConverges_iff hfew]
    refine converges_of_unpinned (hsettled.supersedes hversions) (fun m hm => ?_)
      ((noResultHeld_iff hfew).mp hheld)
    obtain ⟨hm, hid⟩ := List.mem_filter.mp hm
    exact says_split (hms m hm (of_decide_eq_true hid))
  · exact (noResultHeld_iff hfew).mpr (unpinned_of_converges ((progressConverges_iff hfew).mp hconv))

/-! ## A result that sticks -/

/-- The status of each version, newest first. -/
def statusesOf (id : Uuid) (vs : List Version) : List StatusResponse :=
  vs.map fun v => statusOf id v.row none []

lemma says_of_mem_statusesOf {m : StatusResponse} (hm : m ∈ statusesOf id vs) :
    Says id vs m := by
  obtain ⟨v, hv, rfl⟩ := List.mem_map.mp hm
  exact ⟨v, hv, .status v none []⟩

/-- A submission is claimed and judged. -/
def judgedRun : Judge.State :=
  Judge.sampleRun [.create (Judge.sampleSubmission 11 1) 0 5, .claim "w1" 10000 10000 fun _ => 0,
    .complete (Judge.sampleJudged 11 1) "w1" 20000 20000]

/-- It is sent back for a rejudge, and cancelled while it waits. -/
def cancelledRun : Judge.State :=
  Judge.sampleRun [.create (Judge.sampleSubmission 11 1) 0 5, .claim "w1" 10000 10000 fun _ => 0,
    .complete (Judge.sampleJudged 11 1) "w1" 20000 20000, .rejudge 11, .cancel 11 30000]

/-- The messages of the final state show the attempt of its versions. -/
lemma attempt_of_says {s : Judge.State} (hs : Judge.Reachable Judge.sampleHash s)
    (hr : s.db.submission id = some r) {m : StatusResponse}
    (h : Says id (finalVersions (versionsIn id s.log)) m) :
    ∃ v ∈ finalVersions (versionsIn id s.log), m.attemptStartedAt = v.row.claimedAt := by
  obtain ⟨v, hv, hm⟩ := h
  have hversions := Judge.versions_of_log hs id
  rw [hr] at hversions
  obtain ⟨-, -, -, hversions⟩ := hversions
  exact ⟨v, hv, (hm.reports hversions (mem_of_final hv).1).attempt⟩

/-- All the statuses arrive, newest first, and then once more. -/
theorem progress_converges_sample :
    ∃ s : Judge.State, Judge.Reachable Judge.sampleHash s ∧ ∃ ms : List StatusResponse,
      (receive .empty ms).held 11 ≠ none ∧
      ProgressConverges 11 (Says 11 (finalVersions (versionsIn 11 s.log))) ms := by
  have hs : Judge.Reachable Judge.sampleHash judgedRun := Judge.sampleRun_reachable _
  obtain ⟨r, hr⟩ : ∃ r, judgedRun.db.submission 11 = some r :=
    Option.isSome_iff_exists.mp (by decide +kernel)
  have hfinal : (judgedRun.db.submission 11).all fun r => r.state.terminal := by decide +kernel
  rw [hr] at hfinal
  let ms := statusesOf 11 (versionsIn 11 judgedRun.log) ++ statusesOf 11 (versionsIn 11 judgedRun.log)
  have hms : ∀ m ∈ ms, m.submissionId = 11 → Says 11 (versionsIn 11 judgedRun.log) m :=
    fun m hm _ => says_of_mem_statusesOf ((List.mem_append.mp hm).elim id id)
  refine ⟨judgedRun, hs, ms, by decide +kernel, ?_⟩
  refine (progress_converges hs hr hfinal hms (by decide +kernel)).1 (by decide +kernel) ?_
  -- the final state has an attempt
  intro pre m post _ _ hm hattempt
  have hclaimed : ∀ v ∈ finalVersions (versionsIn 11 judgedRun.log), v.row.claimedAt.isSome := by
    decide +kernel
  obtain ⟨v, hv, hreport⟩ := attempt_of_says hs hr hm
  have hsome := hclaimed v hv
  rw [← hreport, hattempt] at hsome
  cases hsome

/-- Every status arrives, in order, and the client holds on to the result that the rejudge has
withdrawn. -/
theorem progress_sticks :
    ∃ s : Judge.State, Judge.Reachable Judge.sampleHash s ∧
      Timely (versionsIn 11 s.log) ∧
      (∃ r, s.db.submission 11 = some r ∧ r.state = .failed ∧ r.verdict = some .IE) ∧
      ((receive .empty (statusesOf 11 (versionsIn 11 s.log)).reverse).held 11).any
        (fun m => m.status = .passed ∧ m.attemptStartedAt = some 10000) ∧
      ¬ ProgressConverges 11 (Says 11 (finalVersions (versionsIn 11 s.log)))
        (statusesOf 11 (versionsIn 11 s.log)).reverse := by
  have hs : Judge.Reachable Judge.sampleHash cancelledRun := Judge.sampleRun_reachable _
  obtain ⟨r, hr⟩ : ∃ r, cancelledRun.db.submission 11 = some r :=
    Option.isSome_iff_exists.mp (by decide +kernel)
  have hrow : (cancelledRun.db.submission 11).all fun r => r.state = .failed ∧ r.verdict = some .IE := by
    decide +kernel
  rw [hr, Option.all_some, decide_eq_true_eq] at hrow
  have hheld : ((receive .empty (statusesOf 11 (versionsIn 11 cancelledRun.log)).reverse).held 11).any
      (fun m => m.status = .passed ∧ m.attemptStartedAt = some 10000) := by decide +kernel
  refine ⟨cancelledRun, hs, by decide +kernel, ⟨r, hr, hrow⟩, hheld, fun hconv => ?_⟩
  -- the last status is that of the cancelled submission
  have hversions := Judge.versions_of_log hs 11
  rw [hr] at hversions
  obtain ⟨op, older, hvs, -⟩ := hversions
  have hlast : (statusesOf 11 (versionsIn 11 cancelledRun.log)).reverse
      = (statusesOf 11 older).reverse ++ [statusOf 11 r none []] := by
    rw [hvs]
    simp [statusesOf]
  have hfinal : isFinal ⟨op, r⟩ := by
    rw [isFinal, hrow.1]
    rfl
  have hsays : Says 11 (finalVersions (versionsIn 11 cancelledRun.log)) (statusOf 11 r none []) := by
    refine ⟨⟨op, r⟩, ?_, .status _ none []⟩
    rw [hvs, finalVersions, List.takeWhile_cons_of_pos hfinal]
    exact List.mem_cons_self ..
  obtain ⟨h, hh, -, hend⟩ := hconv _ _ [] hlast rfl hsays
  rw [hend, Option.any_some, decide_eq_true_eq] at hheld
  have hgivenUp : ∀ v ∈ finalVersions (versionsIn 11 cancelledRun.log), v.row.claimedAt = none := by
    decide +kernel
  obtain ⟨v, hv, hreport⟩ := attempt_of_says hs hr hh
  rw [hgivenUp v hv, hheld.2] at hreport
  cases hreport

end Portal

end Labyrithm
