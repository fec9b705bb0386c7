import Labyrithm.Clock.Saving
import Labyrithm.Go.Runs

/-!
# Two operations at once

Two calls of operations in `backend/internal/contest/manager.go`, on one manager or on the managers of
two processes, over one table.  A call decides on the snapshot of its manager, saves its updates one by
one, reads the rows again, and stores what it has read as the snapshot; nothing keeps the other call from
doing the same meanwhile.  The refreshers of the managers read and store too.

* `Shared.step` — the steps of the two calls and of the refreshers.
* `Orderly` — what makes a run as good as one of the two calls after the other.
* **`operations_serializable`** — a run whose steps are orderly ends with what the two make one after
  the other.
* `extension_lost` — two extensions by ten minutes, of which one counts.
-/

namespace Labyrithm

namespace Clock

open Go

/-- A call of an operation on a manager, at an instant. -/
structure Call where
  manager : ℕ
  now : ℤ
  op : Op

/-- The two calls. -/
inductive Side
  | left
  | right
  deriving DecidableEq, Repr

def Side.other : Side → Side
  | left => right
  | right => left

lemma Side.other_ne (c : Side) : c.other ≠ c := by
  cases c <;> decide

lemma Side.eq_other {c first : Side} (h : c ≠ first) : c = first.other := by
  cases c <;> cases first <;> first | rfl | exact absurd rfl h

/-- Where a call is. -/
inductive Phase
  /-- about to read the snapshot -/
  | start
  /-- with these updates still to be saved -/
  | saving (updates : List Setting)
  /-- about to store what it has read -/
  | storing (snap : Snapshot)
  | done

/-- The rows, the snapshots of the managers, what their refreshers have read, and the two calls; and,
as history, what each call has saved. -/
structure Shared where
  stored : Settings
  snapshots : ℕ → Snapshot
  refreshing : ℕ → Option Snapshot
  phase : Side → Phase
  saved : Side → List Setting

inductive Action
  /-- the call reads the snapshot and decides; its map will be visited in this order -/
  | decide (c : Side) (visit : MapOrder)
  /-- the next statement of `SaveSettings` -/
  | save (c : Side)
  /-- `GetSettings` of the call -/
  | load (c : Side)
  /-- the snapshot is stored, and the call returns -/
  | store (c : Side)
  /-- `GetSettings` of a refresher -/
  | refresh (i : ℕ)
  | publish (i : ℕ)

namespace Shared

/-- Nothing has been done yet; the snapshots may be of any age. -/
def new (σ : Settings) (snapshots : ℕ → Snapshot) : Shared :=
  ⟨σ, snapshots, fun _ => none, fun _ => .start, fun _ => []⟩

def setPhase (c : Side) (phase : Phase) (s : Shared) : Shared :=
  { s with phase := Function.update s.phase c phase }

def setSnapshot (i : ℕ) (snap : Snapshot) (s : Shared) : Shared :=
  { s with snapshots := Function.update s.snapshots i snap }

/-- What a call makes of the snapshot it finds. -/
def decision (call : Call) (s : Shared) : Except Error (List Setting) :=
  (s.snapshots call.manager).updates call.now call.op

def step (calls : Side → Call) : Action → Shared → Option Shared
  | .decide c visit, s =>
      match s.phase c with
      | .start =>
          match s.decision (calls c) with
          | .error _ => some (s.setPhase c .done)
          | .ok [] => some (s.setPhase c .done)
          | .ok (u :: updates) => some (s.setPhase c (.saving (visit.order (u :: updates))))
      | _ => none
  | .save c, s =>
      match s.phase c with
      | .saving (u :: updates) => some { s.setPhase c (.saving updates) with
          stored := s.stored.save u
          saved := Function.update s.saved c (s.saved c ++ [u]) }
      | _ => none
  | .load c, s =>
      match s.phase c with
      | .saving [] => some (s.setPhase c (.storing (parseSnapshot s.stored)))
      | _ => none
  | .store c, s =>
      match s.phase c with
      | .storing snap => some ((s.setPhase c .done).setSnapshot (calls c).manager snap)
      | _ => none
  | .refresh i, s =>
      some { s with refreshing := Function.update s.refreshing i (some (parseSnapshot s.stored)) }
  | .publish i, s => (s.refreshing i).map fun snap =>
      { s.setSnapshot i snap with refreshing := Function.update s.refreshing i none }

end Shared

/-- The operation of a call, done on the rows at once. -/
def Call.perform (call : Call) (σ : Settings) : Settings :=
  ((Manager.load σ).step call.now call.op).stored

/-- The rows that a call finds when its turn comes, where the call `first` comes first. -/
def turn (σ : Settings) (calls : Side → Call) (first c : Side) : Settings :=
  if c = first then σ else (calls first).perform σ

/-- What a call makes of them. -/
def expected (σ : Settings) (calls : Side → Call) (first c : Side) : Except Error (List Setting) :=
  (parseSnapshot (turn σ calls first c)).updates (calls c).now (calls c).op

/-- Each call decides as it would in its turn, and the first does not overwrite what the second has
saved. -/
def Orderly (σ : Settings) (calls : Side → Call) (first : Side) : Action → Shared → Prop
  | .decide c _, s => s.decision (calls c) = expected σ calls first c
  | .save c, s =>
      match s.phase c with
      | .saving (u :: _) => c = first → ∀ v ∈ s.saved first.other, v.key = u.key → v = u
      | _ => True
  | _, _ => True

instance (σ : Settings) (calls : Side → Call) (first : Side) (a : Action) (s : Shared) :
    Decidable (Orderly σ calls first a s) := by
  cases a with
  | save c =>
      simp only [Orderly]
      cases s.phase c with
      | saving updates => cases updates <;> infer_instance
      | start | storing snap | done => exact .isTrue trivial
  | decide c visit => exact inferInstanceAs (Decidable (_ = _))
  | load c | store c | refresh i | publish i => exact .isTrue trivial

/-! ## The invariant -/

/-- How far a call has come with the updates it is to make. -/
def Written (updates : Except Error (List Setting)) : Phase → List Setting → Prop
  | .start, saved => saved = []
  | .saving rest, saved => ∃ us, updates = .ok us ∧ (saved ++ rest).Perm us
  | _, saved => saved.Perm (updates.toOption.getD [])

/-- The rows are what the first call has saved so far and the second after it, and each saves what it
would in its turn. -/
structure Serial (σ : Settings) (calls : Side → Call) (first : Side) (s : Shared) : Prop where
  stored : s.stored = settings.saves (settings.saves σ (s.saved first)) (s.saved first.other)
  written : ∀ c, Written (expected σ calls first c) (s.phase c) (s.saved c)

variable {σ : Settings} {calls : Side → Call} {first c : Side} {s s' : Shared} {snapshots : ℕ → Snapshot}

lemma serial_new : Serial σ calls first (.new σ snapshots) := ⟨rfl, fun _ => rfl⟩

/-- A call goes on, without saving anything. -/
lemma Serial.setPhase (h : Serial σ calls first s) {phase : Phase}
    (hphase : Written (expected σ calls first c) phase (s.saved c)) :
    Serial σ calls first (s.setPhase c phase) := by
  refine ⟨h.stored, fun c' => ?_⟩
  by_cases hc : c' = c
  · subst hc
    simpa [Shared.setPhase] using hphase
  · simpa [Shared.setPhase, hc] using h.written c'

/-- A call saves its next update. -/
lemma Serial.save (h : Serial σ calls first s) {u : Setting} {updates : List Setting}
    (hphase : s.phase c = .saving (u :: updates))
    (hfirst : c = first → ∀ v ∈ s.saved first.other, v.key = u.key → v = u) :
    Serial σ calls first { s.setPhase c (.saving updates) with
      stored := s.stored.save u
      saved := Function.update s.saved c (s.saved c ++ [u]) } := by
  constructor
  · show settings.save s.stored u = _
    rw [h.stored]
    by_cases hc : c = first
    · subst hc
      -- the second has not written the row, or has written the same
      have hother : c.other ≠ c := c.other_ne
      rw [Sql.Upsert.save_comm_saves (hfirst rfl)]
      simp [hother, Sql.Upsert.saves]
    · obtain rfl := Side.eq_other hc
      simp [Ne.symm hc, Sql.Upsert.saves]
  · intro c'
    by_cases hc : c' = c
    · subst hc
      obtain ⟨us, hus, hperm⟩ : Written _ (.saving (u :: updates)) _ := hphase ▸ h.written c'
      simpa [Shared.setPhase, Written] using ⟨us, hus, hperm⟩
    · simpa [Shared.setPhase, hc] using h.written c'

/-- **Every orderly step keeps it.** -/
lemma Serial.step {a : Action} (h : Serial σ calls first s) (hok : Orderly σ calls first a s)
    (hstep : Shared.step calls a s = some s') : Serial σ calls first s' := by
  cases a with
  | decide c visit =>
      have hwritten := h.written c
      simp only [Shared.step] at hstep
      split at hstep
      case h_2 => cases hstep
      case h_1 hphase =>
        rw [hphase] at hwritten
        have hsaved : s.saved c = [] := hwritten
        have hdecision : s.decision (calls c) = expected σ calls first c := hok
        split at hstep
        case h_1 err herr =>
          obtain rfl := Option.some.inj hstep
          refine h.setPhase ?_
          rw [← hdecision, herr, hsaved]
          exact .refl _
        case h_2 hnone =>
          obtain rfl := Option.some.inj hstep
          refine h.setPhase ?_
          rw [← hdecision, hnone, hsaved]
          exact .refl _
        case h_3 u updates hupdates =>
          obtain rfl := Option.some.inj hstep
          refine h.setPhase ⟨u :: updates, hdecision ▸ hupdates, ?_⟩
          rw [hsaved]
          exact visit.perm _
  | save c =>
      simp only [Shared.step] at hstep
      split at hstep
      case h_2 => cases hstep
      case h_1 u updates hphase =>
        obtain rfl := Option.some.inj hstep
        refine h.save hphase ?_
        simpa [Orderly, hphase] using hok
  | load c =>
      have hwritten := h.written c
      simp only [Shared.step] at hstep
      split at hstep
      case h_2 => cases hstep
      case h_1 hphase =>
        obtain rfl := Option.some.inj hstep
        rw [hphase] at hwritten
        obtain ⟨us, hus, hperm⟩ := hwritten
        refine h.setPhase ?_
        show (s.saved c).Perm ((expected σ calls first c).toOption.getD [])
        rw [hus]
        rw [List.append_nil] at hperm
        exact hperm
  | store c =>
      have hwritten := h.written c
      simp only [Shared.step] at hstep
      split at hstep
      case h_2 => cases hstep
      case h_1 snap hphase =>
        obtain rfl := Option.some.inj hstep
        rw [hphase] at hwritten
        have hdone : Serial σ calls first (s.setPhase c .done) := h.setPhase hwritten
        exact ⟨hdone.stored, hdone.written⟩
  | refresh i =>
      obtain rfl := Option.some.inj hstep
      exact ⟨h.stored, h.written⟩
  | publish i =>
      obtain ⟨snap, -, rfl⟩ := Option.map_eq_some_iff.mp hstep
      exact ⟨h.stored, h.written⟩

/-! ## The end -/

/-- An operation on rows that were just read saves its updates. -/
lemma perform_eq (call : Call) (σ : Settings) :
    call.perform σ =
      settings.saves σ (((parseSnapshot σ).updates call.now call.op).toOption.getD []) := by
  have happly := apply_eq_commit (Manager.load σ) call.now call.op
  rw [Call.perform, Manager.step, happly]
  show _ = settings.saves σ (((Manager.load σ).snapshot.updates call.now call.op).toOption.getD [])
  cases (Manager.load σ).snapshot.updates call.now call.op with
  | error err => rfl
  | ok updates =>
      by_cases hnil : updates = []
      · subst hnil
        rfl
      · show ((Manager.load σ).commit updates).stored = _
        rw [commit_of_ne_nil hnil]
        rfl

/-- A call that has saved all of its updates has done its operation. -/
lemma saves_saved {τ : Settings} {call : Call} {saved : List Setting}
    (h : saved.Perm (((parseSnapshot τ).updates call.now call.op).toOption.getD [])) :
    settings.saves τ saved = call.perform τ := by
  rw [perform_eq]
  refine (settings.saves_perm ?_ h.symm τ).symm
  cases hupdates : (parseSnapshot τ).updates call.now call.op with
  | error err => exact List.nodup_nil
  | ok updates => exact nodup_updates hupdates

/-- A manager whose snapshot is that of the rows keeps it so. -/
lemma load_step (call : Call) (σ : Settings) :
    (Manager.load σ).step call.now call.op = Manager.load (call.perform σ) := by
  have happly := apply_eq_commit (Manager.load σ) call.now call.op
  rw [Call.perform, Manager.step, happly]
  cases (Manager.load σ).snapshot.updates call.now call.op with
  | error err => rfl
  | ok updates =>
      by_cases hnil : updates = []
      · subst hnil
        rfl
      · show (Manager.load σ).commit updates = Manager.load ((Manager.load σ).commit updates).stored
        rw [commit_of_ne_nil hnil]
        rfl

/-- The rows that the operations of two calls leave, one after the other. -/
def serial (σ : Settings) (first second : Call) : Settings :=
  ((Manager.load σ).run [(first.now, first.op), (second.now, second.op)]).stored

lemma serial_eq (σ : Settings) (first second : Call) :
    serial σ first second = second.perform (first.perform σ) := by
  show (((Manager.load σ).step first.now first.op).step second.now second.op).stored = _
  rw [load_step, load_step]
  rfl

/-- **A run whose steps are orderly ends with what the two operations make one after the other.** -/
theorem operations_serializable
    (h : ReachIf (Shared.step calls) (Orderly σ calls first) (.new σ snapshots) s)
    (hdone : ∀ c, s.phase c = .done) :
    s.stored = serial σ (calls first) (calls first.other) := by
  have hserial : Serial σ calls first s :=
    h.invariant serial_new fun a _ _ hs hok hstep => hs.step hok hstep
  have hsaved (c : Side) : (s.saved c).Perm ((expected σ calls first c).toOption.getD []) := by
    have hwritten := hserial.written c
    rwa [hdone c] at hwritten
  have hfirst : settings.saves σ (s.saved first) = (calls first).perform σ :=
    saves_saved (by simpa [expected, turn] using hsaved first)
  have hsecond : settings.saves ((calls first).perform σ) (s.saved first.other) =
      (calls first.other).perform ((calls first).perform σ) :=
    saves_saved (by simpa [expected, turn, Side.other_ne] using hsaved first.other)
  calc s.stored
      = settings.saves (settings.saves σ (s.saved first)) (s.saved first.other) := hserial.stored
    _ = settings.saves ((calls first).perform σ) (s.saved first.other) := by rw [hfirst]
    _ = (calls first.other).perform ((calls first).perform σ) := hsecond
    _ = serial σ (calls first) (calls first.other) := (serial_eq _ _ _).symm

/-! ## Two calls at once -/

/-- Ten minutes more, and a freeze, on the managers of two processes. -/
def sampleCalls : Side → Call
  | .left => ⟨0, 60, .extend 10⟩
  | .right => ⟨1, 61, .freeze⟩

/-- Both decide before either of them saves. -/
def sampleRun : List Action :=
  [.decide .left .written, .decide .right .written, .save .right, .save .left, .save .right, .refresh 0,
    .save .right, .load .left, .load .right, .store .right, .store .left, .publish 0]

/-- What a run leads to from the rows of a new contest, with fresh snapshots. -/
def sampleEnd (calls : Side → Call) (first : Side) (actions : List Action) : Shared :=
  (runIf (Shared.step calls) (Orderly .migrated calls first) actions
    (.new .migrated fun _ => parseSnapshot .migrated)).getD
      (.new .migrated fun _ => parseSnapshot .migrated)

theorem operations_serializable_sample :
    (sampleEnd sampleCalls .left sampleRun).stored =
        serial .migrated ⟨0, 60, .extend 10⟩ ⟨1, 61, .freeze⟩ ∧
      (sampleEnd sampleCalls .left sampleRun).stored.durationSeconds = some 7800 ∧
      (sampleEnd sampleCalls .left sampleRun).stored.isFrozen = some true :=
  ⟨operations_serializable (ReachIf.runIf_getD sampleRun) fun c => by cases c <;> rfl,
    by decide +kernel, by decide +kernel⟩

/-- Ten minutes more, twice, on one manager. -/
def extendTwice (_ : Side) : Call := ⟨0, 60, .extend 10⟩

/-- Where both have read the snapshot before either saves, ten minutes are lost, whichever of the two is
taken to be first. -/
theorem extension_lost :
    ∃ s, Reach (Shared.step extendTwice) (.new .migrated fun _ => parseSnapshot .migrated) s ∧
      (∀ c, s.phase c = .done) ∧ s.stored.durationSeconds = some 7800 ∧
      ∀ first : Side, s.stored ≠ serial .migrated (extendTwice first) (extendTwice first.other) := by
  refine ⟨_, Reach.run_getD [.decide .left .written, .decide .right .written, .save .left, .load .left,
    .store .left, .save .right, .load .right, .store .right], fun c => ?_, ?_, fun first => ?_⟩
  · cases c <;> rfl
  · decide +kernel
  · cases first <;> decide +kernel

end Clock

end Labyrithm
