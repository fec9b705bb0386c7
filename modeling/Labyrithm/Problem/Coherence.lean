import Labyrithm.Problem.Announcements
import Labyrithm.Sql.Uuid
import Labyrithm.TestCache.Coherence

/-!
# The test cache and the database

The admin API writes the store, publishes invalidations, and a judge reads the store through its test
cache.  Requests, commits, deliveries and the calls of the judge interleave; an invalidation is
delivered at any time after it was published, in any order, and the judge's own are among them.

PostgreSQL reads the id in a path however it is spelled, and the handlers publish the text as it came;
the judge knows its problems by the text that the server writes.

* `Sent` — a request with the text of the id in its path.
* `World.step` — one step of the whole.
* `Coherent` — what the cache holds of a problem is what is stored, or an invalidation of the problem is
  still to come; `coherent_step` that it stays so.
* **`acquire_coherent`** — if all changes of points are announced, under the server's spelling of the id,
  a call of `acquire` that begins when nothing is under way gets what is stored.
* `acquire_stale` — a new score has the points split anew, and the judge keeps the old ones.
-/

namespace Labyrithm

namespace Problem

open TestCache (TestCase System Reads Event)

/-! ## Requests as they are sent -/

/-- The id in the path of a request; `createProblem` has none. -/
def Request.pathID : Request → Option String
  | .createProblem .. => none
  | .replaceTestCases id .. | .getAdminProblemTests id | .addSingleTestCase id ..
  | .updateSingleTestCase id .. | .deleteSingleTestCase id .. | .updateTestPoints id _
  | .updateProblem id .. | .setProblemPublished id _ | .deleteProblem id => some id

/-- A request with the text in its path, in which PostgreSQL reads the id; where it reads none, nothing is
written or published. -/
structure Sent where
  request : Request
  path : Option String
  read : path.map Sql.uuid = request.pathID.map some

/-- `InvalidateTests` gets the text in the path, or the id of the new problem. -/
def Effect.spelled (path : Option String) : Effect → Effect
  | .invalidate id => .invalidate (path.getD id)
  | .commit id call => .commit id call

/-- A request that publishes spells the id as the server does. -/
def Sent.Plain (s : Sent) : Prop :=
  s.request.published ≠ [] → ∀ text ∈ s.path, Sql.uuid text = some text

instance (s : Sent) : Decidable s.Plain := inferInstanceAs (Decidable (_ → ∀ text ∈ _, _))

lemma mem_published {r : Request} {q id : String} (hq : q ∈ r.published) (hid : r.pathID = some id) :
    q = id := by
  cases r with
  | updateProblem id' ids req =>
      obtain rfl := Option.some.inj hid
      have hmem := (List.mem_ite_nil_right.mp hq).2
      exact List.mem_singleton.mp hmem
  | _ => simp_all [Request.published, Request.pathID]

lemma Sent.path_eq {s : Sent} {text : String} (hpath : s.path = some text)
    (hplain : Sql.uuid text = some text) : s.request.pathID = some text := by
  have hread := s.read
  rw [hpath, Option.map_some, hplain] at hread
  obtain ⟨id, hid, heq⟩ := Option.map_eq_some_iff.mp hread.symm
  exact hid.trans heq

/-- What such a request publishes is the id of the problem. -/
lemma Sent.Plain.spelled {s : Sent} (h : s.Plain) (sha : List UInt8 → String) (σ : Store) :
    (s.request.handle sha σ).2.map (Effect.spelled s.path) = (s.request.handle sha σ).2 := by
  refine (List.map_congr_left fun e he => ?_).trans (List.map_id _)
  cases e with
  | commit id call => rfl
  | invalidate q =>
      have hq : q ∈ s.request.published := handle_published s.request q he
      cases hpath : s.path with
      | none => rfl
      | some text =>
          have hplain := h (List.ne_nil_of_mem hq) text hpath
          obtain rfl := mem_published hq (s.path_eq hpath hplain)
          rfl

/-- The same request in the server's spelling. -/
def Sent.respelled (s : Sent) : Sent where
  request := s.request
  path := s.request.pathID
  read := by
    have hread := s.read
    cases hid : s.request.pathID with
    | none => rfl
    | some id =>
        rw [hid, Option.map_some] at hread
        obtain ⟨text, -, htext⟩ := Option.map_eq_some_iff.mp hread
        exact congrArg some (Sql.uuid_uuid htext)

/-! ## The whole -/

/-- `GetProblemTests`. -/
def getProblemTests (id : String) (σ : Store) : Except Go.Err (List TestCase) :=
  if σ.suite id = [] then .error (.text "problem has no test cases configured")
  else .ok (σ.suite id)

/-- The admin API, the invalidations that were published and not delivered yet, and the judge with what
it has read so far. -/
structure World where
  admin : Admin
  inFlight : List String
  judge : System
  reads : Reads

inductive Move
  | request (s : Sent)
  | proceed
  | deliver (k : ℕ)
  | read (i : ℕ)
  | answer (i : ℕ)
  | fail (i : ℕ) (err : Go.Err)
  | judge (a : TestCache.Action)

/-- What the API publishes with its next step. -/
def Admin.publishes : Admin → List String
  | ⟨_, .invalidate id :: _⟩ => [id]
  | _ => []

def isLoading : TestCache.PC → Bool
  | .loading _ => true
  | _ => false

def isAnswer : TestCache.Action → Bool
  | .advance _ (.answer _) => true
  | _ => false

def World.judged (a : TestCache.Action) (w : World) : Option World :=
  (TestCache.step a w.judge).map fun s => { w with judge := s, reads := w.reads.afterAction a }

/-- One step.  A load reads the store once, and answers with what it has read, or fails. -/
def World.step (sha : List UInt8 → String) : Move → World → Option World
  | .request s, w =>
      (Admin.step sha (.request s.request) w.admin).map fun admin =>
        { w with admin := ⟨admin.store, admin.todo.map (Effect.spelled s.path)⟩ }
  | .proceed, w =>
      (Admin.step sha .proceed w.admin).map fun admin =>
        { w with admin := admin, inFlight := w.inFlight ++ w.admin.publishes }
  | .deliver k, w =>
      w.inFlight[k]?.bind fun id =>
        World.judged (.invalidate id) { w with inFlight := w.inFlight.eraseIdx k }
  | .read i, w =>
      w.judge.callers[i]?.bind fun caller =>
        if isLoading caller.pc ∧ (w.reads i).isNone then
          some { w with
            reads := Function.update w.reads i
              (some (getProblemTests caller.problemID w.admin.store)) }
        else none
  | .answer i, w => (w.reads i).bind fun result => w.judged (.advance i (.answer result))
  | .fail i err, w => w.judged (.advance i (.answer (.error err)))
  | .judge a, w => if isAnswer a then none else w.judged a

def World.new (maxBytes : ℤ) : World := ⟨Admin.new, [], System.new maxBytes, fun _ => none⟩

/-- No request is under way, and no invalidation. -/
def World.Settled (w : World) : Prop := w.admin.todo = [] ∧ w.inFlight = []

/-- A request that is taken up announces the changes it makes, under the server's spelling of the id. -/
def Announcing (sha : List UInt8 → String) : Move → World → Prop
  | .request s, w => s.request.Announces sha w.admin.store ∧ s.Plain
  | _, _ => True

instance (sha : List UInt8 → String) : (a : Move) → (w : World) → Decidable (Announcing sha a w)
  | .request s, w => inferInstanceAs (Decidable (s.request.Announces sha w.admin.store ∧ s.Plain))
  | .proceed, _ | .deliver _, _ | .read _, _ | .answer _, _ | .fail .., _ | .judge _, _ => .isTrue trivial

/-- Anything but a request. -/
def NoRequest : Move → World → Prop
  | .request _, _ => False
  | _, _ => True

instance : (a : Move) → (w : World) → Decidable (NoRequest a w)
  | .request _, _ => .isFalse id
  | .proceed, _ | .deliver _, _ | .read _, _ | .answer _, _ | .fail .., _ | .judge _, _ => .isTrue trivial

/-! ## The invariant -/

/-- A suite is the one that is stored, or an invalidation of the problem is still to come. -/
def World.Current (w : World) (p : String) (tests : List TestCase) : Prop :=
  tests = w.admin.store.suite p ∨ p ∈ w.inFlight ∨ .invalidate p ∈ w.admin.todo

structure Coherent (sha : List UInt8 → String) (maxBytes : ℤ) (w : World) : Prop where
  numbered : w.admin.store.Numbered
  announced : Announced sha w.admin.store w.admin.todo
  judge : TestCache.Reachable maxBytes w.judge
  carries : TestCache.Carries w.Current w.reads w.judge

variable {sha : List UInt8 → String} {maxBytes : ℤ} {w w' : World}

lemma coherent_new (sha : List UInt8 → String) (maxBytes : ℤ) :
    Coherent sha maxBytes (World.new maxBytes) where
  numbered id p hp := by simp [World.new, Admin.new] at hp
  announced := trivial
  judge := Go.Reach.start
  carries := TestCache.Carries.new _ maxBytes

lemma judged_eq_some {a : TestCache.Action} (h : w.judged a = some w') :
    ∃ s, TestCache.step a w.judge = some s ∧
      w' = { w with judge := s, reads := w.reads.afterAction a } := by
  obtain ⟨s, hs, rfl⟩ := Option.map_eq_some_iff.mp h
  exact ⟨s, hs, rfl⟩

/-- What a load reads is what is stored. -/
lemma getProblemTests_eq_ok {id : String} {σ : Store} {tests : List TestCase}
    (h : getProblemTests id σ = .ok tests) : tests = σ.suite id := by
  unfold getProblemTests at h
  split_ifs at h
  exact (Except.ok.inj h).symm

/-- A step of the API. -/
lemma Coherent.admin (h : Coherent sha maxBytes w) {admin : Admin} {inFlight : List String}
    (hnumbered : admin.store.Numbered) (hannounced : Announced sha admin.store admin.todo)
    (hcur : ∀ p tests, w.Current p tests →
      World.Current { w with admin := admin, inFlight := inFlight } p tests) :
    Coherent sha maxBytes { w with admin := admin, inFlight := inFlight } :=
  ⟨hnumbered, hannounced, h.judge, h.carries.mono hcur⟩

lemma Coherent.request (h : Coherent sha maxBytes w) {s : Sent} {admin : Admin}
    (hr : s.request.Announces sha w.admin.store) (hplain : s.Plain)
    (hs : Admin.step sha (.request s.request) w.admin = some admin) :
    Coherent sha maxBytes { w with
      admin := ⟨admin.store, admin.todo.map (Effect.spelled s.path)⟩ } := by
  obtain ⟨⟨σ, todo⟩, inFlight, judge, reads⟩ := w
  cases todo with
  | cons e todo => cases hs
  | nil =>
      obtain rfl := Option.some.inj hs
      rw [hplain.spelled]
      refine h.admin h.numbered (handle_announced h.numbered hr) fun p tests hcur => ?_
      simp only [World.Current, List.not_mem_nil, or_false] at hcur
      exact hcur.imp_right .inl

lemma Coherent.proceed (h : Coherent sha maxBytes w) {admin : Admin}
    (hs : Admin.step sha .proceed w.admin = some admin) :
    Coherent sha maxBytes { w with admin := admin, inFlight := w.inFlight ++ w.admin.publishes } := by
  obtain ⟨⟨σ, todo⟩, inFlight, judge, reads⟩ := w
  cases todo with
  | nil => cases hs
  | cons e todo =>
      cases e with
      | invalidate id =>
          obtain rfl := Option.some.inj hs
          refine h.admin h.numbered h.announced fun p tests hcur => ?_
          rcases hcur with hsame | hflight | htodo
          · exact .inl hsame
          · exact .inr (.inl (List.mem_append_left _ hflight))
          · rcases List.mem_cons.mp htodo with heq | htodo
            · obtain rfl := Effect.invalidate.inj heq
              exact .inr (.inl (List.mem_append_right _ List.mem_cons_self))
            · exact .inr (.inr htodo)
      | commit id call =>
          simp only [Admin.step] at hs
          split at hs
          · next σ' hcall =>
            obtain rfl := Option.some.inj hs
            obtain ⟨hsuites, hannounced⟩ := h.announced σ' hcall
            refine h.admin (h.numbered.after hcall) hannounced fun p tests hcur => ?_
            rcases hcur with hsame | hflight | htodo
            · -- the suite was changed, and that is announced, or it is the same
              rcases hsuites p with hkeep | htodo
              · exact .inl (hsame.trans hkeep.symm)
              · exact .inr (.inr htodo)
            · exact .inr (.inl (List.mem_append_left _ hflight))
            · rcases List.mem_cons.mp htodo with heq | htodo
              · cases heq
              · exact .inr (.inr htodo)
          · cases hs

/-- An invalidation is delivered: what was to come for the problem has come, and nothing is held. -/
lemma Coherent.deliver (h : Coherent sha maxBytes w) {k : ℕ} {id : String} (hk : w.inFlight[k]? = some id)
    (hs : World.judged (.invalidate id) { w with inFlight := w.inFlight.eraseIdx k } = some w') :
    Coherent sha maxBytes w' := by
  obtain ⟨s, hstep, rfl⟩ := judged_eq_some hs
  refine ⟨h.numbered, h.announced, h.judge.step _ hstep, ?_⟩
  obtain rfl := Option.some.inj hstep
  refine h.carries.invalidate id fun q tests hq hcur => ?_
  rcases hcur with hsame | hflight | htodo
  · exact .inl hsame
  · refine .inr (.inl (List.mem_eraseIdx_iff_getElem?.mpr ?_))
    obtain ⟨j, hj⟩ := List.mem_iff_getElem?.mp hflight
    refine ⟨j, ?_, hj⟩
    rintro rfl
    exact hq (Option.some.inj (hj.symm.trans hk))
  · exact .inr (.inr htodo)

/-- A step of the judge, where the source answers with what it has read. -/
lemma Coherent.judged (h : Coherent sha maxBytes w) {a : TestCache.Action}
    (ha : ∀ i tests, a = .advance i (.answer (.ok tests)) → w.reads i = some (.ok tests))
    (hs : w.judged a = some w') : Coherent sha maxBytes w' := by
  obtain ⟨s, hstep, rfl⟩ := judged_eq_some hs
  refine ⟨h.numbered, h.announced, h.judge.step _ hstep, ?_⟩
  have hinv := TestCache.inv_reachable h.judge
  refine h.carries.step hinv (fun i l caller tests hact hi hpc hp => ?_) hstep
  exact h.carries.read i caller l tests hi hp hpc (ha i tests hact)

lemma coherent_step (a : Move) (w w' : World) (h : Coherent sha maxBytes w)
    (ha : Announcing sha a w) (hs : World.step sha a w = some w') : Coherent sha maxBytes w' := by
  cases a with
  | request s =>
      obtain ⟨admin, hadmin, rfl⟩ := Option.map_eq_some_iff.mp hs
      exact h.request ha.1 ha.2 hadmin
  | proceed =>
      obtain ⟨admin, hadmin, rfl⟩ := Option.map_eq_some_iff.mp hs
      exact h.proceed hadmin
  | deliver k =>
      obtain ⟨id, hk, hs⟩ := Option.bind_eq_some_iff.mp hs
      exact h.deliver hk hs
  | read i =>
      obtain ⟨caller, hi, hs⟩ := Option.bind_eq_some_iff.mp hs
      obtain ⟨⟨hloading, -⟩, hw⟩ := Option.ite_none_right_eq_some.mp hs
      obtain rfl := Option.some.inj hw
      cases hpc : caller.pc <;> simp only [hpc, isLoading, Bool.false_eq_true] at hloading
      refine ⟨h.numbered, h.announced, h.judge, ?_⟩
      exact h.carries.readAt hi hpc fun tests htests => .inl (getProblemTests_eq_ok htests)
  | answer i =>
      obtain ⟨result, hread, hs⟩ := Option.bind_eq_some_iff.mp hs
      refine h.judged (fun j tests hact => ?_) hs
      cases hact
      exact hread
  | fail i err => exact h.judged (by simp) hs
  | judge a =>
      obtain ⟨hact, hs⟩ := Option.ite_none_left_eq_some.mp hs
      refine h.judged (fun i tests ha => ?_) hs
      rw [ha] at hact
      exact absurd rfl hact

/-! ## What a call gets -/

/-- The calls from the `n`th on, while no request is made. -/
structure Quiet (sha : List UInt8 → String) (maxBytes : ℤ) (admin : Admin) (n : ℕ) (w : World) :
    Prop where
  coherent : Coherent sha maxBytes w
  same : w.admin = admin
  settled : w.Settled
  serves : TestCache.Serves (fun p tests => tests = admin.store.suite p) n w.judge

lemma Quiet.judged {admin : Admin} {n : ℕ} (h : Quiet sha maxBytes admin n w)
    {a : TestCache.Action} (hcoherent : Coherent sha maxBytes w') (hs : w.judged a = some w') :
    Quiet sha maxBytes admin n w' := by
  have hcarries : TestCache.Carries (fun p tests => tests = admin.store.suite p) w.reads w.judge := by
    refine h.coherent.carries.mono fun p tests hcur => ?_
    obtain ⟨htodo, hflight⟩ := h.settled
    rw [World.Current, htodo, hflight, h.same] at hcur
    simpa using hcur
  obtain ⟨s, hstep, rfl⟩ := judged_eq_some hs
  exact ⟨hcoherent, h.same, h.settled, h.serves.step (TestCache.inv_reachable h.coherent.judge)
    (TestCache.told_reachable h.coherent.judge) hcarries hstep⟩

lemma quiet_step {admin : Admin} {n : ℕ} (a : Move) (w w' : World)
    (h : Quiet sha maxBytes admin n w) (ha : NoRequest a w) (hs : World.step sha a w = some w') :
    Quiet sha maxBytes admin n w' := by
  have hcoherent : Coherent sha maxBytes w' := by
    refine coherent_step a w w' h.coherent ?_ hs
    cases a with
    | request s => exact ha.elim
    | _ => trivial
  obtain ⟨htodo, hflight⟩ := h.settled
  cases a with
  | request s => exact ha.elim
  | proceed =>
      obtain ⟨⟨σ, todo⟩, inFlight, judge, reads⟩ := w
      obtain rfl := htodo
      cases hs
  | deliver k =>
      obtain ⟨id, hk, -⟩ := Option.bind_eq_some_iff.mp hs
      simp [hflight] at hk
  | read i =>
      obtain ⟨caller, hi, hread⟩ := Option.bind_eq_some_iff.mp hs
      obtain ⟨-, hw⟩ := Option.ite_none_right_eq_some.mp hread
      obtain rfl := Option.some.inj hw
      exact ⟨hcoherent, h.same, h.settled, h.serves⟩
  | answer i =>
      obtain ⟨result, -, hs⟩ := Option.bind_eq_some_iff.mp hs
      exact h.judged hcoherent hs
  | fail i err => exact h.judged hcoherent hs
  | judge a =>
      obtain ⟨-, hs⟩ := Option.ite_none_left_eq_some.mp hs
      exact h.judged hcoherent hs

/-- After a run in which all changes are announced, once no request is under way and every invalidation
is delivered, a call of `acquire` that begins returns no suite but the one that is stored. -/
theorem acquire_coherent (sha : List UInt8 → String) (maxBytes : ℤ) (w w' : World)
    (h : Go.ReachIf (World.step sha) (Announcing sha) (World.new maxBytes) w) (hsettled : w.Settled)
    (h' : Go.ReachIf (World.step sha) NoRequest w w') :
    ∀ i p tests, w.judge.callers.length ≤ i → Event.began i p ∈ w'.judge.history →
      Event.returned i tests ∈ w'.judge.history → tests = w'.admin.store.suite p := by
  have hcoherent : Coherent sha maxBytes w := h.invariant (coherent_new sha maxBytes) coherent_step
  have hstart : Quiet sha maxBytes w.admin w.judge.callers.length w :=
    ⟨hcoherent, rfl, hsettled,
      TestCache.Serves.of_told (TestCache.told_reachable hcoherent.judge) _⟩
  have hquiet : Quiet sha maxBytes w.admin w.judge.callers.length w' := h'.invariant hstart quiet_step
  intro i p tests hi hbegan hreturned
  rw [hquiet.same]
  exact hquiet.serves.returned i tests p hi hreturned hbegan

/-! ## Two sample runs -/

def sampleId : String := "a0eebc99-9c0b-4ef8-bb6d-6bb9bd380a11"

/-- A call loads the suite of the sample, and returns it. -/
def sampleAcquire (i : ℕ) : List Move :=
  .judge (.begin sampleId) :: List.replicate 3 (.judge (.advance i (.go 0))) ++ [.read i, .answer i] ++
    List.replicate 2 (.judge (.advance i (.go 0)))

/-- The sample is created, and a call loads it. -/
def sampleLoaded : List Move :=
  .request ⟨.createProblem sampleId Nat.repr sampleProblem, none, rfl⟩ :: List.replicate 3 .proceed ++
    [.deliver 0] ++ sampleAcquire 0

/-- A request that spells the id in capital letters. -/
def sampleCapitals : Sent where
  request := .updateTestPoints sampleId samplePoints
  path := some "A0EEBC99-9C0B-4EF8-BB6D-6BB9BD380A11"
  read := by decide +kernel

/-- Then its points are updated. -/
def sampleUpdated : World :=
  (Go.runIf (World.step sampleSha) (Announcing sampleSha)
    (sampleLoaded ++ [.request sampleCapitals.respelled, .proceed, .proceed, .deliver 0])
    (World.new 1000)).getD (World.new 1000)

/-- And another call loads it. -/
def sampleReloaded : World :=
  (Go.runIf (World.step sampleSha) NoRequest (sampleAcquire 1) sampleUpdated).getD sampleUpdated

theorem acquire_coherent_sample :
    (sampleReloaded.admin.store.suite sampleId).map (·.points) = [60, 40] ∧
      Event.returned 1 (sampleReloaded.admin.store.suite sampleId) ∈ sampleReloaded.judge.history ∧
      ∀ i p tests, sampleUpdated.judge.callers.length ≤ i →
        Event.began i p ∈ sampleReloaded.judge.history →
        Event.returned i tests ∈ sampleReloaded.judge.history →
        tests = sampleReloaded.admin.store.suite p :=
  ⟨by decide +kernel, by decide +kernel,
    acquire_coherent sampleSha 1000 sampleUpdated sampleReloaded (Go.ReachIf.runIf_getD _)
      ⟨by decide +kernel, by decide +kernel⟩ (Go.ReachIf.runIf_getD _)⟩

/-- The score of the sample is lowered. -/
def sampleRescored : World :=
  (Go.run (World.step sampleSha)
    (sampleLoaded ++
      [.request ⟨.updateProblem sampleId Nat.repr
          { sampleProblem with maxScore := 50, tests := none, maxScore_fits := by decide },
          some sampleId, by decide +kernel⟩,
        .proceed])
    (World.new 1000)).getD (World.new 1000)

/-- A call that uses what the first has loaded. -/
def sampleSecond : List Move :=
  .judge (.begin sampleId) :: List.replicate 3 (.judge (.advance 1 (.go 0)))

def sampleStale : World :=
  (Go.runIf (World.step sampleSha) NoRequest sampleSecond sampleRescored).getD sampleRescored

/-- The points are split anew without an invalidation, and the call returns the old ones. -/
theorem acquire_stale : ∃ w w', Go.Reach (World.step sampleSha) (World.new 1000) w ∧ w.Settled ∧
    Go.ReachIf (World.step sampleSha) NoRequest w w' ∧
    ∃ i p tests, w.judge.callers.length ≤ i ∧ Event.began i p ∈ w'.judge.history ∧
      Event.returned i tests ∈ w'.judge.history ∧ tests ≠ w'.admin.store.suite p :=
  ⟨sampleRescored, sampleStale, Go.Reach.run_getD _, ⟨by decide +kernel, by decide +kernel⟩,
    Go.ReachIf.runIf_getD _, 1, sampleId,
    [⟨"0", 1, [49], [50], 50⟩, ⟨"1", 2, [51], [52], 50⟩], by decide +kernel⟩

/-- An update under another spelling is published under that, and the call returns the old points. -/
example :
    ((Go.run (World.step sampleSha)
      (sampleLoaded ++ [.request sampleCapitals, .proceed, .proceed, .deliver 0] ++ sampleSecond)
      (World.new 1000)).map fun w =>
        (w.judge.history.getLast?, (w.admin.store.suite sampleId).map (·.points))) =
    some (some (.returned 1 [⟨"0", 1, [49], [50], 50⟩, ⟨"1", 2, [51], [52], 50⟩]), [60, 40]) := by
  decide +kernel

end Problem

end Labyrithm
