import Labyrithm.Problem.Judgeable

/-!
# Requests of several transactions

`createProblem` and `updateProblem` write a problem and then its tests, in transactions of their own, and
`updateProblem` may have given the tests their points before, by reading them.  A request that is
answered with an error has made all, some or none of these.

* `Tables` — the problems with their texts, which the handlers pass on.
* `CreatesHalf`, `HaltsAtTests`, `HaltsAtUpdate` — the requests that stop after a transaction that has
  changed something.
* **`createProblemIn_unchanged_iff`**, **`updateProblemIn_unchanged_iff`** — a reply with an error leaves
  everything as it was in all other cases, and only in these.
-/

namespace Labyrithm

namespace Problem

/-- The texts of a problem. -/
structure Texts where
  title : String
  difficulty : String
  statement : String
  constraints : String
  deriving DecidableEq, Repr

/-- What a row of `problems` has besides. -/
structure Head where
  texts : Texts
  createdAt : ℤ
  updatedAt : ℤ
  deriving DecidableEq, Repr

/-- The tables of the problems. -/
structure Tables where
  store : Store
  heads : Sql.Table String Head
  numbered : store.Numbered

/-- They hold what they held. -/
def Tables.Same (t' t : Tables) : Prop :=
  (∀ id, t'.store.lookup id = t.store.lookup id) ∧ ∀ id, t'.heads.lookup id = t.heads.lookup id

def Reply.isError : Reply → Bool
  | error .. => true
  | _ => false

/-- What an effect does to the texts, where the request has these and comes at this time. -/
def applyHead (texts : Texts) (now : ℤ) (heads : Sql.Table String Head) : Effect → Sql.Table String Head
  | .commit id (.create _) => heads.insert id ⟨texts, now, now⟩
  | .commit id (.update _) =>
      match heads.lookup id with
      | some head => heads.insert id { head with texts := texts, updatedAt := now }
      | none => heads
  | _ => heads

/-- The tables after a request. -/
def Tables.after (sha : List UInt8 → String) (texts : Texts) (now : ℤ) (t : Tables) (o : Outcome) :
    Tables where
  store := t.store.after sha o
  heads := o.2.foldl (applyHead texts now) t.heads
  numbered := numbered_after t.numbered o

/-! ## Requests that stop half-way -/

/-- The row of the problem has these values. -/
def ProblemRow.Has (input : CreateProblemInput) (p : ProblemRow) : Prop :=
  (p.timeLimitMs, p.memoryLimitMb, p.maxScore) =
      clampLimits input.timeLimitMs input.memoryLimitMb input.maxScore ∧
    p.published = input.published ∧ p.samples = numberSamples input.samples

/-- A test without points is given some when the suite is read. -/
def ProblemRow.GainsPoints (down : Outage) (p : ProblemRow) : Prop :=
  p.Unscored ∧ down.fails .readMaxScore = false ∧
    ∃ (i : ℕ) (h : i < p.tests.length), down.fails (.givePoints p.tests[i].ordinal) = false ∧
      p.tests[i].points ≠ share p.maxScore p.tests.length i

section Halts

variable (down : Outage) (sha : List UInt8 → String) (texts : Texts) (now : ℤ) (id : String)
  (req : ProblemPayload) (t : Tables)

/-- `updateProblem` writes the problem, and stops before the tests of the payload are saved. -/
def HaltsAtTests : Prop :=
  ∃ tests ∈ req.tests, UpdatesHalf down sha req tests ∧ ∃ p ∈ t.store.lookup id,
    ¬ (p.Has req.toInput ∧ ∀ head ∈ t.heads.lookup id, head.texts = texts ∧ head.updatedAt = now)

/-- `updateProblem` reads the tests of the problem, which gives them points, and stops before the problem
is written. -/
def HaltsAtUpdate : Prop :=
  ¬ (req.trimmedSlug ≠ [] ∧ !validateSlug req.trimmedSlug) ∧ req.tests = none ∧ req.published ∧
    down.fails .getTestMetadata = false ∧ ∃ p ∈ t.store.lookup id, p.GainsPoints down ∧
      (p.tests.length < minEvaluationTestCases ∨ down.fails .update = true)

end Halts

/-! ## What is changed -/

namespace ProblemRow

variable {p : ProblemRow} {down : Outage}

lemma revised_eq_self_iff {input : CreateProblemInput} : p.revised input = p ↔ p.Has input := by
  cases p
  simp [revised, Has, newScore, Prod.ext_iff, eq_comm, and_assoc]

/-- An update changes nothing only where the row has the values already. -/
lemma update_eq_self_iff {input : CreateProblemInput} : p.update input = p ↔ p.Has input := by
  rw [update_eq]
  split_ifs with hrescored
  · refine iff_of_false ?_ ?_
    · intro h
      have hscore : p.maxScore = newScore input := by
        rw [← maxScore_update input p, update_eq, if_pos hrescored, h]
      exact hrescored.1 hscore
    · intro h
      exact hrescored.1 (congrArg (·.2.2) h.1)
  · exact revised_eq_self_iff

lemma given_pointsGiven (h : p.Numbered) (hscored : p.Unscored) (hread : down.fails .readMaxScore = false)
    {i : ℕ} (hi : i < p.tests.length) :
    given (p.pointsGiven down) p.tests[i].ordinal =
      if down.fails (.givePoints p.tests[i].ordinal) then none
      else some (share p.maxScore p.tests.length i) := by
  have hgiven : p.pointsGiven down =
      (p.tests.mapIdx fun i t => (t.ordinal, share p.maxScore p.tests.length i)).filter fun e =>
        !down.fails (.givePoints e.1) := if_pos ⟨hscored, by simp [hread]⟩
  have hnodup := pointsGiven_nodup h down
  split_ifs with hfails
  · refine Option.eq_none_iff_forall_ne_some.mpr ?_
    intro n hn
    have hmem := (given_eq_some_iff hnodup).mp hn
    rw [hgiven, List.mem_filter] at hmem
    simp [hfails] at hmem
  · rw [given_eq_some_iff hnodup, hgiven, List.mem_filter]
    exact ⟨List.mem_mapIdx.mpr ⟨i, hi, rfl⟩, by simpa using hfails⟩

lemma withPoints_eq_self {points : List (ℤ × ℤ)} :
    p.withPoints points = p ↔
      ∀ (i : ℕ) (hi : i < p.tests.length),
        (given points p.tests[i].ordinal).getD p.tests[i].points = p.tests[i].points := by
  constructor
  · intro h i hi
    have htests : (p.withPoints points).tests[i]? = p.tests[i]? := by rw [h]
    rw [withPoints, List.getElem?_map, List.getElem?_eq_getElem hi] at htests
    exact congrArg TestRow.points (Option.some.inj htests)
  · intro h
    have htests : (p.tests.map fun t => { t with points := (given points t.ordinal).getD t.points }) =
        p.tests := by
      refine List.ext_getElem (by simp) fun i hi _ => ?_
      rw [List.getElem_map, h i (by simpa using hi)]
    rw [withPoints, htests]

/-- Reading the metadata changes a suite only where it is given points. -/
lemma withPoints_eq_self_iff (h : p.Numbered) :
    p.withPoints (p.pointsGiven down) = p ↔ ¬ p.GainsPoints down := by
  by_cases hgives : p.Unscored ∧ down.fails .readMaxScore = false
  · obtain ⟨hscored, hread⟩ := hgives
    rw [withPoints_eq_self]
    have hgains : p.GainsPoints down ↔ ∃ (i : ℕ) (h : i < p.tests.length),
        down.fails (.givePoints p.tests[i].ordinal) = false ∧
          p.tests[i].points ≠ share p.maxScore p.tests.length i := by
      simp [GainsPoints, hscored, hread]
    rw [hgains]
    simp only [not_exists, not_and, not_not]
    refine forall_congr' fun i => forall_congr' fun hi => ?_
    rw [given_pointsGiven h hscored hread hi]
    split_ifs with hfails
    · simp [hfails]
    · simp [hfails, eq_comm]
  · refine iff_of_true ?_ fun hgains => hgives ⟨hgains.1, hgains.2.1⟩
    have hnone : p.pointsGiven down = [] := if_neg (by simpa using hgives)
    rw [hnone]
    simp [withPoints, given]

end ProblemRow

/-! ## The handlers -/

section Handlers

variable {down : Outage} {sha : List UInt8 → String} {id : String} {ids : ℕ → String}
  {req : ProblemPayload} {tests : List TestCaseDTO} {σ σ' : Store} {call : Call} {p : ProblemRow}
  {next : Store → Outcome} {onError : Failure → Reply} {o : Outcome}

/-- Where the reply is an error, nothing has been done. -/
def Untouched (o : Outcome) : Prop := o.1.isError = true → o.2 = []

lemma untouched_refuse (reply : Reply) : Untouched (refuse reply) := fun _ => rfl

lemma check_none (o : Outcome) : check none o = o := rfl

lemma untouched_check (text : Option String) (h : text = none → Untouched o) : Untouched (check text o) := by
  cases text with
  | some text => exact untouched_refuse _
  | none => exact h rfl

lemma attemptIn_ok (hup : down.fails call.op = false) (hcall : σ.call sha id call = .ok σ') :
    attemptIn down sha id call onError σ next =
      ((next σ').1, .commit id call :: (next σ').2) := by
  have hnone : down call.op = none := by simpa [Outage.fails] using hup
  simp [attemptIn, hnone, attempt, hcall]

/-- A call that is not made leads to an error. -/
lemma attemptIn_refuse (onError : Failure → Reply) (next : Store → Outcome)
    (h : down.fails call.op = true ∨ ∃ err, σ.call sha id call = .error err) :
    ∃ failure, attemptIn down sha id call onError σ next = refuse (onError failure) := by
  cases hdown : down call.op with
  | some text => exact ⟨.down text, by simp [attemptIn, hdown]⟩
  | none =>
      have hup : ¬ down.fails call.op = true := by simp [Outage.fails, hdown]
      obtain ⟨err, herr⟩ := h.resolve_left hup
      exact ⟨.err err, by simp [attemptIn, hdown, attempt, herr]⟩

lemma attemptIn_isError (honError : ∀ failure, (onError failure).isError = true)
    (hcall : σ.call sha id call = .ok σ') :
    (attemptIn down sha id call onError σ next).1.isError =
      (down.fails call.op || (next σ').1.isError) := by
  cases hup : down.fails call.op with
  | true =>
      obtain ⟨failure, hrefuse⟩ := attemptIn_refuse onError next (σ := σ) (.inl hup)
      rw [hrefuse]
      exact honError failure
  | false => rw [attemptIn_ok hup hcall, Bool.false_or]

/-- Nothing is done before a call, and what comes after it decides. -/
lemma untouched_attemptIn
    (h : ∀ σ', down.fails call.op = false → σ.call sha id call = .ok σ' → (next σ').1.isError = false) :
    Untouched (attemptIn down sha id call onError σ next) := by
  intro herror
  cases hup : down.fails call.op with
  | true =>
      obtain ⟨failure, hrefuse⟩ := attemptIn_refuse onError next (σ := σ) (.inl hup)
      rw [hrefuse]
      rfl
  | false =>
      cases hcall : σ.call sha id call with
      | error err =>
          obtain ⟨failure, hrefuse⟩ := attemptIn_refuse onError next (.inr ⟨err, hcall⟩)
          rw [hrefuse]
          rfl
      | ok σ' =>
          rw [attemptIn_ok hup hcall, h σ' hup hcall] at herror
          cases herror

/-- Tests that are not saved are an error. -/
lemma saveTestsIn_unsaved (hp : σ.lookup id = some p)
    (hscore : p.maxScore = ProblemRow.newScore req.toInput) (h : Unsaved down sha req tests)
    (ids : ℕ → String) (done : Outcome) :
    ∃ reply : Reply, reply.isError = true ∧ saveTestsIn down sha id ids tests σ done = refuse reply := by
  have hfails : down.fails (Call.op (.edit (.replaceTests ids (numberTests tests)))) = true ∨
      ∃ err, σ.call sha id (.edit (.replaceTests ids (numberTests tests))) = .error err := by
    refine h.imp_right fun hrefused => ?_
    rw [← hscore] at hrefused
    exact call_replaceTests_error hp hrefused ids
  unfold saveTestsIn
  obtain ⟨failure, hrefuse⟩ := attemptIn_refuse _ _ hfails
  rw [hrefuse]
  refine ⟨_, ?_, rfl⟩
  split_ifs <;> rfl

lemma saveTestsIn_saved (hp : σ.lookup id = some p)
    (hscore : p.maxScore = ProblemRow.newScore req.toInput) (h : ¬ Unsaved down sha req tests) (done : Outcome) :
    (saveTestsIn down sha id ids tests σ done).1 = done.1 := by
  obtain ⟨hup, haccepted⟩ := not_or.mp h
  rw [not_not, ← hscore] at haccepted
  obtain ⟨p', -, hcall⟩ := call_replaceTests hp haccepted ids
  have hup : down.fails (Call.op (.edit (.replaceTests ids (numberTests tests)))) = false :=
    Bool.eq_false_iff.mpr hup
  rw [saveTestsIn, attemptIn_ok hup hcall]
  rfl

/-- `createProblem` stops after the problem has been created. -/
lemma createProblemIn_half (h : CreatesHalf down sha id req σ) (ids : ℕ → String) :
    ∃ reply : Reply, reply.isError = true ∧
      createProblemIn down sha id ids req σ = (reply, [.commit id (.create req.toInput)]) := by
  obtain ⟨hslug, hshort, hsample, hup, hfree, hnew, hne, hunsaved⟩ := h
  have hcall : σ.call sha id (.create req.toInput) = .ok (σ.put id (some (.create req.toInput))) :=
    call_create_iff.mpr ⟨hfree, hnew, rfl⟩
  have hrow : (σ.put id (some (.create req.toInput))).lookup id = some (.create req.toInput) := by
    rw [lookup_put, if_pos rfl]
  obtain ⟨reply, herror, hrefuse⟩ :=
    saveTestsIn_unsaved hrow rfl hunsaved ids (refuse (.problem 201 id))
  refine ⟨reply, herror, ?_⟩
  unfold createProblemIn
  dsimp only
  rw [if_neg (by simp [hslug]), if_neg hshort, hsample, check_none]
  refine (attemptIn_ok hup hcall).trans ?_
  rw [if_neg hne, hrefuse]
  rfl

/-- Or it leaves nothing behind. -/
lemma createProblemIn_whole (h : ¬ CreatesHalf down sha id req σ) :
    Untouched (createProblemIn down sha id ids req σ) := by
  unfold createProblemIn
  dsimp only
  split_ifs with hslug hshort hnil
  · exact untouched_refuse _
  · exact untouched_refuse _
  · exact untouched_check _ fun _ => untouched_attemptIn fun _ _ _ => rfl
  · refine untouched_check _ fun hsample => untouched_attemptIn fun σ' hup hcall => ?_
    obtain ⟨hfree, hnew, rfl⟩ := call_create_iff.mp hcall
    have hsaved : ¬ Unsaved down sha req (req.tests.getD []) := fun hunsaved =>
      h ⟨by simpa using hslug, hshort, hsample, hup, hfree, hnew, hnil, hunsaved⟩
    rw [saveTestsIn_saved (by rw [lookup_put, if_pos rfl]) rfl hsaved]
    rfl

/-- The end of `updateProblem` stops after the problem has been written. -/
lemma saveProblemIn_half (htests : req.tests = some tests) (hp : σ.lookup id = some p)
    (hup : down.fails .update = false) (h : Unsaved down sha req tests) (ids : ℕ → String) :
    ∃ reply : Reply, reply.isError = true ∧
      saveProblemIn down sha id ids req σ = (reply, [.commit id (.update req.toInput)]) := by
  have hcall : σ.call sha id (.update req.toInput) = .ok (σ.put id (some (p.update req.toInput))) :=
    call_update_iff.mpr ⟨p, hp, rfl⟩
  have hrow : (σ.put id (some (p.update req.toInput))).lookup id = some (p.update req.toInput) := by
    rw [lookup_put, if_pos rfl]
  obtain ⟨reply, herror, hrefuse⟩ :=
    saveTestsIn_unsaved hrow (maxScore_update _ _) h ids (refuse (.problem 200 id))
  refine ⟨reply, herror, ?_⟩
  unfold saveProblemIn
  refine (attemptIn_ok hup hcall).trans ?_
  rw [htests]
  dsimp only
  rw [hrefuse]
  rfl

/-- Or it leaves nothing behind. -/
lemma saveProblemIn_whole
    (h : ∀ tests ∈ req.tests, ∀ p ∈ σ.lookup id, down.fails .update = false →
      ¬ Unsaved down sha req tests) :
    Untouched (saveProblemIn down sha id ids req σ) := by
  refine untouched_attemptIn fun σ' hup hcall => ?_
  obtain ⟨p, hp, rfl⟩ := call_update_iff.mp hcall
  cases htests : req.tests with
  | none => rfl
  | some tests =>
      dsimp only
      rw [saveTestsIn_saved (by rw [lookup_put, if_pos rfl]) (maxScore_update _ _) (h tests htests p hp hup)]
      rfl

/-- Without tests there is nothing to stop between. -/
lemma saveProblemIn_whole_of_none (htests : req.tests = none) :
    Untouched (saveProblemIn down sha id ids req σ) := by
  refine saveProblemIn_whole ?_
  intro tests hsome
  rw [htests] at hsome
  cases hsome

/-- Without tests in the payload, a problem that is there is written, or there is an error. -/
lemma saveProblemIn_isError (htests : req.tests = none) (hp : σ.lookup id = some p) :
    (saveProblemIn down sha id ids req σ).1.isError = down.fails .update := by
  have hcall : σ.call sha id (.update req.toInput) = .ok (σ.put id (some (p.update req.toInput))) :=
    call_update_iff.mpr ⟨p, hp, rfl⟩
  rw [saveProblemIn, attemptIn_isError ?_ hcall, htests]
  · exact Bool.or_false _
  · intro failure
    split_ifs <;> rfl

/-- `GetTestMetadata` is committed before the handler goes on. -/
lemma readMetadata_ok (hnumbered : σ.Numbered) (hup : down.fails .getTestMetadata = false) (onError : Outcome)
    (next : List TestCaseMetadata → Store → Outcome) :
    readMetadata down sha id σ onError next =
      ((next (σ.metadataRead down id) (σ.scoredIn down id)).1,
        .commit id (metadataCall down (σ.lookup id)) ::
          (next (σ.metadataRead down id) (σ.scoredIn down id)).2) := by
  unfold readMetadata
  rw [if_neg (by simp [hup]), attempt, call_metadataCall hnumbered]

end Handlers

/-! ## The tables after a request -/

section After

variable {down : Outage} {sha : List UInt8 → String} {texts : Texts} {now : ℤ} {id : String}
  {ids : ℕ → String} {req : ProblemPayload} {t : Tables} {p : ProblemRow} {o : Outcome}

lemma same_of_untouched (h : Untouched o) (herror : o.1.isError = true) :
    (t.after sha texts now o).Same t := by
  obtain ⟨reply, effects⟩ := o
  obtain rfl : effects = [] := h herror
  exact ⟨fun _ => rfl, fun _ => rfl⟩

/-- An update leaves everything as it was only where it was as the update makes it. -/
lemma update_same_iff (hp : t.store.lookup id = some p) (reply : Reply) (input : CreateProblemInput) :
    (t.after sha texts now (reply, [.commit id (.update input)])).Same t ↔
      p.Has input ∧ ∀ head ∈ t.heads.lookup id, head.texts = texts ∧ head.updatedAt = now := by
  have hcall : t.store.call sha id (.update input) = .ok (t.store.put id (some (p.update input))) :=
    call_update_iff.mpr ⟨p, hp, rfl⟩
  have hstore : (t.after sha texts now (reply, [.commit id (.update input)])).store =
      t.store.put id (some (p.update input)) := by
    simp [Tables.after, Store.after, Store.apply, hcall]
  have hheads : (t.after sha texts now (reply, [.commit id (.update input)])).heads =
      applyHead texts now t.heads (.commit id (.update input)) := rfl
  rw [Tables.Same, hstore, hheads]
  refine and_congr ?_ ?_
  · refine Sql.Table.insert_same_iff.trans ?_
    rw [← ProblemRow.update_eq_self_iff, hp, Option.some.injEq, eq_comm]
  · simp only [applyHead]
    cases hhead : t.heads.lookup id with
    | none => simp
    | some head =>
        refine Sql.Table.insert_same_iff.trans ?_
        rw [hhead]
        obtain ⟨texts', createdAt, updatedAt⟩ := head
        simp

/-- Reading the tests leaves everything as it was unless they are given points. -/
lemma metadata_same_iff (reply : Reply) :
    (t.after sha texts now (reply, [.commit id (metadataCall down (t.store.lookup id))])).Same t ↔
      ∀ p ∈ t.store.lookup id, ¬ p.GainsPoints down := by
  have hstore : (t.after sha texts now
      (reply, [.commit id (metadataCall down (t.store.lookup id))])).store = t.store.scoredIn down id := by
    simp [Tables.after, Store.after, Store.apply, call_metadataCall t.numbered]
  have hheads : (t.after sha texts now
      (reply, [.commit id (metadataCall down (t.store.lookup id))])).heads = t.heads := by
    show applyHead texts now t.heads (.commit id (metadataCall down (t.store.lookup id))) = _
    unfold metadataCall
    split_ifs <;> rfl
  rw [Tables.Same, hstore, hheads, Store.scoredIn]
  cases hp : t.store.lookup id with
  | none =>
      refine iff_of_true ⟨fun q => ?_, fun _ => rfl⟩ (by simp)
      rw [lookup_put]
      split_ifs with hq
      · rw [← hq, hp]
        rfl
      · rfl
  | some p =>
      rw [and_iff_left fun _ => rfl]
      refine Sql.Table.insert_same_iff.trans ?_
      rw [hp, Option.some.injEq, eq_comm, ProblemRow.withPoints_eq_self_iff (t.numbered id p hp)]
      simp

/-- **Creating a problem.** -/
theorem createProblemIn_unchanged_iff :
    ((createProblemIn down sha id ids req t.store).1.isError →
        (t.after sha texts now (createProblemIn down sha id ids req t.store)).Same t) ↔
      ¬ CreatesHalf down sha id req t.store := by
  by_cases h : CreatesHalf down sha id req t.store
  · obtain ⟨reply, herror, houtcome⟩ := createProblemIn_half h ids
    have hfree := h.2.2.2.2.1
    have hnew := h.2.2.2.2.2.1
    have hcall : t.store.call sha id (.create req.toInput) =
        .ok (t.store.put id (some (.create req.toInput))) := call_create_iff.mpr ⟨hfree, hnew, rfl⟩
    refine iff_of_false ?_ (not_not.mpr h)
    rw [houtcome]
    intro himp
    have hrow := (himp herror).1 id
    simp [Tables.after, Store.after, Store.apply, hcall, lookup_put, hnew] at hrow
  · exact iff_of_true (same_of_untouched (createProblemIn_whole h)) h

/-- The update of a problem with tests. -/
lemma saveProblemIn_unchanged_iff {tests : List TestCaseDTO} (htests : req.tests = some tests) :
    ((saveProblemIn down sha id ids req t.store).1.isError →
        (t.after sha texts now (saveProblemIn down sha id ids req t.store)).Same t) ↔
      ¬ (down.fails .update = false ∧ Unsaved down sha req tests ∧ ∃ p ∈ t.store.lookup id,
        ¬ (p.Has req.toInput ∧ ∀ head ∈ t.heads.lookup id, head.texts = texts ∧ head.updatedAt = now)) := by
  by_cases h : down.fails .update = false ∧ Unsaved down sha req tests ∧ ∃ p, t.store.lookup id = some p
  · obtain ⟨hup, hunsaved, p, hp⟩ := h
    obtain ⟨reply, herror, houtcome⟩ := saveProblemIn_half htests hp hup hunsaved ids
    rw [houtcome]
    simp [herror, hup, hunsaved, hp, update_same_iff hp]
  · refine iff_of_true (same_of_untouched (saveProblemIn_whole ?_)) ?_
    · intro tests' htests' p hp hup hunsaved
      obtain rfl : tests = tests' := Option.some.inj (htests.symm.trans htests')
      exact h ⟨hup, hunsaved, p, hp⟩
    · rintro ⟨hup, hunsaved, p, hp, -⟩
      exact h ⟨hup, hunsaved, p, hp⟩

/-- The update of a problem whose tests are read before. -/
lemma readProblemIn_unchanged_iff (htests : req.tests = none)
    (hmetadata : down.fails .getTestMetadata = false) {o : Outcome}
    (ho : o = readMetadata down sha id t.store (refuse (badRequest tooFewTests)) fun metadata σ =>
      if metadata.length < minEvaluationTestCases then refuse (badRequest tooFewTests)
      else saveProblemIn down sha id ids req σ) :
    (o.1.isError → (t.after sha texts now o).Same t) ↔
      ¬ ∃ p ∈ t.store.lookup id, p.GainsPoints down ∧
        (p.tests.length < minEvaluationTestCases ∨ down.fails .update = true) := by
  rw [readMetadata_ok t.numbered hmetadata, length_metadataRead] at ho
  set rest : Outcome := if (t.store.tests id).length < minEvaluationTestCases then
      refuse (badRequest tooFewTests)
    else saveProblemIn down sha id ids req (t.store.scoredIn down id) with hrest
  subst ho
  -- an error leaves the read alone
  have huntouched : Untouched rest := by
    rw [hrest]
    split_ifs
    · exact untouched_refuse _
    · exact saveProblemIn_whole_of_none htests
  have hsame (herror : rest.1.isError = true) :
      (t.after sha texts now
        (rest.1, .commit id (metadataCall down (t.store.lookup id)) :: rest.2)).Same t ↔
          ∀ p ∈ t.store.lookup id, ¬ p.GainsPoints down := by
    rw [huntouched herror]
    exact metadata_same_iff _
  cases hp : t.store.lookup id with
  | none =>
      rw [hp] at hsame
      exact iff_of_true (fun herror => (hsame herror).mpr (by simp)) (by simp)
  | some p =>
      have htail : rest.1.isError = true ↔
          p.tests.length < minEvaluationTestCases ∨ down.fails .update = true := by
        have hscored : (t.store.scoredIn down id).lookup id =
            some (p.withPoints (p.pointsGiven down)) := by
          rw [Store.scoredIn, lookup_put, if_pos rfl, hp]
          rfl
        have hlen : (t.store.tests id).length = p.tests.length := by
          rw [Store.tests, hp]
          rfl
        rw [hrest, hlen]
        split_ifs with hfew
        · exact iff_of_true rfl (.inl hfew)
        · rw [saveProblemIn_isError htests hscored]
          simp [hfew]
      rw [hp] at hsame
      rw [imp_congr_right hsame, htail]
      simp only [Option.mem_def, Option.some.injEq, forall_eq', exists_eq_left', not_and']

/-- **Updating a problem.** -/
theorem updateProblemIn_unchanged_iff :
    ((updateProblemIn down sha id ids req t.store).1.isError →
        (t.after sha texts now (updateProblemIn down sha id ids req t.store)).Same t) ↔
      ¬ (HaltsAtTests down sha texts now id req t ∨ HaltsAtUpdate down id req t) := by
  unfold updateProblemIn
  by_cases hslug : req.trimmedSlug ≠ [] ∧ !validateSlug req.trimmedSlug
  · rw [if_pos hslug]
    refine iff_of_true (same_of_untouched (untouched_refuse _)) ?_
    rintro (⟨tests, -, hhalf, -⟩ | hhalt)
    · exact hhalf.1 hslug
    · exact hhalt.1 hslug
  rw [if_neg hslug]
  cases htests : req.tests with
  | some tests =>
      have hupdate : ¬ HaltsAtUpdate down id req t := by
        intro h
        rw [h.2.1] at htests
        cases htests
      have hhalts : HaltsAtTests down sha texts now id req t ↔ UpdatesHalf down sha req tests ∧
          ∃ p ∈ t.store.lookup id, ¬ (p.Has req.toInput ∧
            ∀ head ∈ t.heads.lookup id, head.texts = texts ∧ head.updatedAt = now) := by
        simp [HaltsAtTests, htests]
      simp only [hupdate, or_false, hhalts]
      by_cases hshort : req.published ∧ tests.length < minEvaluationTestCases
      · rw [if_pos hshort]
        exact iff_of_true (same_of_untouched (untouched_refuse _)) fun h => h.1.2.1 hshort
      rw [if_neg hshort]
      cases hsample : validateTestsAgainstSamples req.samples tests with
      | some text =>
          refine iff_of_true (same_of_untouched (untouched_refuse _)) fun h => ?_
          have hnone := h.1.2.2.1
          rw [hsample] at hnone
          cases hnone
      | none =>
          rw [check_none, saveProblemIn_unchanged_iff htests]
          simp only [UpdatesHalf, hslug, hshort, hsample, not_false_eq_true, true_and, and_assoc]
  | none =>
      have hhalts : ¬ HaltsAtTests down sha texts now id req t := by
        rintro ⟨tests, hsome, -⟩
        rw [htests] at hsome
        cases hsome
      simp only [hhalts, false_or]
      by_cases hpub : req.published = true
      swap
      · rw [if_neg hpub]
        exact iff_of_true (same_of_untouched (saveProblemIn_whole_of_none htests))
          fun h => hpub h.2.2.1
      rw [if_pos hpub]
      cases hmetadata : down.fails .getTestMetadata with
      | true =>
          rw [readMetadata, if_pos hmetadata]
          refine iff_of_true (same_of_untouched (untouched_refuse _)) fun h => ?_
          rw [h.2.2.2.1] at hmetadata
          cases hmetadata
      | false =>
          refine (readProblemIn_unchanged_iff htests hmetadata rfl).trans (not_congr ?_)
          exact ⟨fun h => ⟨hslug, htests, hpub, hmetadata, h⟩, fun h => h.2.2.2.2⟩

end After

end Problem

end Labyrithm
