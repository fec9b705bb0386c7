import Labyrithm.TestCache.Accounting

/-!
# The test cache is fresh

What a caller of `acquire` gets, in terms of what has happened.  A suite was `Loaded` when the source
was asked for it at one position of the history and answered at a later one.  `Stocked` says this of
the entries in the map, with no invalidation of the problem since the question was asked; a call that
takes an entry from the map is `Supplied` with such a load, and stays so.

* `Suites` — what a section does to the suites: it changes none that is loaded, and takes from the map
  what it uses.
* `traced_step`, `stocked_step`, `honest_step` — the calls, the map and the answers, over one step.
* **`freshness`** — every suite returned, every load attached to the map, every error returned.
-/

namespace Labyrithm

namespace TestCache

open Go

/-- The invalidations that concern a problem. -/
def Event.Invalidates (p : String) : Event → Prop
  | .invalidated q => q = p
  | .cleared => True
  | _ => False

/-- A load of a problem's suite into an entry: asked for at `k`, answered at `m`. -/
def Loaded (h : List Event) (p : String) (l : ℕ) (tests : List TestCase) (k m : ℕ) : Prop :=
  k < m ∧ ∃ j, At h k (.loadStarted j l p) ∧ At h m (.loadEnded j l (.ok tests))

/-- The call `i` has a suite that was asked for after every invalidation before the call began, and
that no invalidation overtook. -/
def Supplied (h : List Event) (i : ℕ) (p : String) (tests : List TestCase) : Prop :=
  ∃ b l k m, At h b (.began i p) ∧ Loaded h p l tests k m ∧
    ∀ q e, At h q e → e.Invalidates p → q < k ∨ b < q ∧ m < q

variable {h es : List Event} {c c' : Cache} {p : String} {l i : ℕ} {tests : List TestCase}

lemma Loaded.append {k m : ℕ} (hl : Loaded h p l tests k m) (es : List Event) :
    Loaded (h ++ es) p l tests k m := by
  obtain ⟨hkm, j, hk, hm⟩ := hl
  exact ⟨hkm, j, hk.append es, hm.append es⟩

/-- What happens later overtakes nothing. -/
lemma Supplied.append (hs : Supplied h i p tests) (es : List Event) :
    Supplied (h ++ es) i p tests := by
  obtain ⟨b, l, k, m, hb, hl, hinv⟩ := hs
  obtain ⟨-, j, -, hm⟩ := id hl
  refine ⟨b, l, k, m, hb.append es, hl.append es, fun q e hq he => ?_⟩
  rcases at_append hq with hold | ⟨hlate, -⟩
  · exact hinv q e hold he
  · exact .inr ⟨hb.lt.trans_le hlate, hm.lt.trans_le hlate⟩

/-! ## The invariants -/

/-- The entries in the map and the loads they come from. -/
structure Stocked (h : List Event) (c : Cache) : Prop where
  known : ∀ k j l p, At h k (.loadStarted j l p) → l < c.next
  /-- since the source was asked, the problem was not invalidated -/
  current : ∀ p l, c.byID.get? p = some l → ∀ k j q, At h k (.loadStarted j l q) →
    ∀ n e, At h n e → e.Invalidates p → n < k
  stored : ∀ p l, c.byID.get? p = some l → (c.entry l).ready = false →
    ∃ k m, Loaded h p l (c.entry l).tests k m

/-- What a call has behind it. -/
structure Caller.Traced (h : List Event) (c : Cache) (i : ℕ) (caller : Caller) : Prop where
  began : ∃ b, At h b (.began i caller.problemID)
  cancelled : ∀ err, caller.ctxErr = some err → ∃ n, At h n (.cancelled i)
  started : ∀ l, caller.pc = .loading l → ∃ k, At h k (.loadStarted i l caller.problemID)
  ended : ∀ l result, caller.pc = .loaded l result → ∃ k m, k < m ∧
    At h k (.loadStarted i l caller.problemID) ∧ At h m (.loadEnded i l result)
  supplied : ∀ l, caller.pc = .inUse l → Supplied h i caller.problemID (c.entry l).tests

/-- What the calls have answered. -/
structure Honest (h : List Event) : Prop where
  once : ∀ i b b' p p', At h b (.began i p) → At h b' (.began i p') → b = b' ∧ p = p'
  returned : ∀ n i tests, At h n (.returned i tests) → ∃ p, Supplied (h.take n) i p tests
  failed : ∀ n i err, At h n (.failed i err) → err.isCancellation = true →
    (∃ m < n, At h m (.cancelled i)) ∨ ∃ m < n, ∃ l, At h m (.loadEnded i l (.error err))

/-! ## What a section does to the suites -/

/-- What one step of a call does to the suites. -/
structure Suites (problemID : String) (pc : PC) (c c' : Cache) (pc' : PC) : Prop where
  next : c.next ≤ c'.next
  same : ∀ l, (c.entry l).ready = false → (c'.entry l).tests = (c.entry l).tests
  published : ∀ q l, c'.byID.get? q = some l → (c'.entry l).ready = false →
    (c.entry l).ready = false ∨ q = problemID ∧ pc = .loaded l (.ok (c'.entry l).tests)
  acquired : ∀ l, pc' = .inUse l → c.byID.get? problemID = some l ∧
    ((c.entry l).ready = false ∨ pc = .loaded l (.ok (c'.entry l).tests))

lemma suites_quiet {pc pc' : PC} (hpc : ∀ l, pc' ≠ .inUse l) : Suites p pc c c pc' where
  next := le_rfl
  same _ _ := rfl
  published _ _ _ hr := .inl hr
  acquired l hl := absurd hl (hpc l)

/-- Eviction takes entries away and changes none. -/
lemma Suites.evict {d : Cache} {pc pc' : PC} (hb : Books d) (hr : Ranks d)
    (hs : Suites p pc c d pc') : Suites p pc c d.evict pc' := by
  obtain ⟨hentry, hnext, -, hmap⟩ := hb.evicts hr
  refine ⟨hnext ▸ hs.next, by rw [hentry]; exact hs.same, ?_, by rw [hentry]; exact hs.acquired⟩
  rw [hentry]
  exact fun q l hq => hs.published q l (hmap q l hq)

lemma suites_release {ptr : ℕ} (hc : Sound c) :
    Suites p (.holding ptr) c (c.release ptr) .released := by
  refine Suites.evict (hc.toBooks.set ptr rfl rfl id) (hc.toRanks.set ptr rfl rfl)
    ⟨le_rfl, fun l _ => ?_, fun q l _ hl => .inl ?_, by simp⟩
  · rw [set_entry_apply]
    split_ifs with h
    · rw [h]
    · rfl
  · rw [set_entry_apply] at hl
    split_ifs at hl with h
    · rw [h]
      exact hl
    · exact hl

lemma touch_tests (ptr l : ℕ) (c : Cache) :
    ((c.touch ptr).entry l).tests = (c.entry l).tests ∧
      ((c.touch ptr).entry l).ready = (c.entry l).ready := by
  simp only [Cache.touch, set_entry_apply]
  split_ifs with h
  · rw [h]
    exact ⟨rfl, rfl⟩
  · exact ⟨rfl, rfl⟩

lemma suites_use {ptr : ℕ} (hc : Sound c) (hp : c.byID.get? p = some ptr)
    (hready : (c.entry ptr).ready = false) : Suites p .locking c (c.use ptr) (.inUse ptr) := by
  refine Suites.evict (hc.toBooks.touch ptr) (hc.toRanks.touch rfl rfl fun _ _ => rfl)
    ⟨le_rfl, fun l _ => (touch_tests ptr l c).1, fun q l _ hl => .inl ?_, fun l hl => ?_⟩
  · rwa [(touch_tests ptr l c).2] at hl
  · cases hl
    exact ⟨hp, .inl hready⟩

lemma Suites.of_expire {pc pc' : PC} (now : ℤ) (hs : Suites p pc (c.expire p now) c' pc') :
    Suites p pc c c' pc' := by
  obtain ⟨hentry, hnext, -, hmap⟩ := expire_frame p now c
  refine ⟨hnext ▸ hs.next, hentry ▸ hs.same, hentry ▸ hs.published, fun l hl => ?_⟩
  have := hs.acquired l hl
  rw [hentry] at this
  exact ⟨hmap p l this.1, this.2⟩

lemma suites_create (hfresh : ∀ m, c.next ≤ m → c.entry m = .fresh) :
    Suites p .locking c (c.create p) (.starting c.next) := by
  have hentry := create_entry (p := p) (hfresh _ le_rfl)
  refine ⟨Nat.le_succ _, fun l _ => by rw [hentry], fun q l _ hl => .inl ?_, by simp⟩
  rwa [hentry] at hl

lemma suites_lookUp (hc : Sound c) (hfresh : ∀ m, c.next ≤ m → c.entry m = .fresh) (p : String)
    (now : ℤ) : Suites p .locking c (c.lookUp p now).1 (c.lookUp p now).2 := by
  have hx := hc.expire p now
  obtain ⟨hentry, hnext, -, -⟩ := expire_frame p now c
  apply Suites.of_expire now
  cases hl : (c.expire p now).byID.get? p with
  | none =>
      simp only [Cache.lookUp, hl]
      exact suites_create (by rw [hentry, hnext]; exact hfresh)
  | some l =>
      simp only [Cache.lookUp, hl]
      split_ifs with hready
      · exact suites_quiet (by simp)
      · exact suites_use hx hl (by simpa using hready)

lemma suites_finish {ptr : ℕ} (hc : Sound c) (hload : (c.entry ptr).ready = true)
    (hmine : ∀ q, c.byID.get? q = some ptr → q = p) (result : Except Err (List TestCase))
    (now : ℤ) :
    Suites p (.loaded ptr result) c (c.finish p ptr result now).1
      (c.finish p ptr result now).2 := by
  have hother {l : ℕ} (hl : (c.entry l).ready = false) : l ≠ ptr := by
    rintro rfl
    simp [hload] at hl
  unfold Cache.finish
  split_ifs with hp
  · refine ⟨le_rfl, fun l hl => ?_, fun q l hq hl => ?_, by simp⟩
    · simp [hother hl]
    · -- the entry is not in the map, under its own problem or another
      have hne : l ≠ ptr := by
        rintro rfl
        exact hp (hmine q hq ▸ hq)
      rw [set_entry_apply, if_neg hne] at hl
      exact .inl hl
  · have hp : c.byID.get? p = some ptr := not_not.mp hp
    cases result with
    | error err =>
        refine ⟨le_rfl, fun l hl => ?_, fun q l hq hl => ?_, by simp⟩
        · simp [hother hl]
        · obtain ⟨hqp, hres⟩ := Map.get?_erase_eq_some.mp hq
          have hne : l ≠ ptr := by
            rintro rfl
            exact hqp (hmine q hres)
          simp only [set_entry_apply, if_neg hne] at hl
          exact .inl hl
    | ok tests =>
        have hentry (l : ℕ) (hl : l ≠ ptr) : (c.publish ptr tests now).entry l = c.entry l := by
          simp [Cache.publish, hl]
        have htests : ((c.publish ptr tests now).entry ptr).tests = tests := by
          simp [Cache.publish]
        refine Suites.evict ((hc.toBooks.publish hp hload tests now).touch ptr)
          (hc.toRanks.touch rfl rfl hentry) ⟨le_rfl, fun l hl => ?_, fun q l hq hl => ?_, fun l hl => ?_⟩
        · rw [(touch_tests ptr l _).1, hentry l (hother hl)]
        · by_cases hlp : l = ptr
          · subst hlp
            rw [(touch_tests l l _).1, htests]
            exact .inr ⟨hmine q hq, rfl⟩
          · rw [(touch_tests ptr l _).2, hentry l hlp] at hl
            exact .inl hl
        · cases hl
          rw [(touch_tests ptr ptr _).1, htests]
          exact ⟨hp, .inr rfl⟩

/-- What a step does to the suites, whichever step it is. -/
lemma suites_moves {maxBytes : ℤ} {s : System} (hinv : Inv maxBytes s) {caller : Caller}
    {choice : Choice} {pc' : PC} (hi : s.callers[i]? = some caller)
    (hm : caller.Moves i s.cache choice c' pc' es) :
    Suites caller.problemID caller.pc s.cache c' pc' := by
  cases hm with
  | refused | alive | abandoned | again | shared | started | answered | returned =>
      exact suites_quiet (by simp)
  | lookUp now hpc =>
      rw [hpc]
      exact suites_lookUp hinv.sound hinv.held.fresh _ now
  | @finish ptr result now hpc =>
      have hl : caller.pc.loads = some ptr := by rw [hpc]; rfl
      have hload := (hinv.held.pending_of_loads hi hl).2
      have hmine := hinv.held.mine caller (List.mem_of_getElem? hi) ptr hl
      rw [hpc]
      exact suites_finish hinv.sound hload hmine result now
  | released hpc =>
      rw [hpc]
      exact suites_release hinv.sound

/-! ## One step of a call -/

/-- A call invalidates nothing, and asks the source about the entry it has made. -/
lemma moves_event {caller : Caller} {choice : Choice} {pc' : PC}
    (hm : caller.Moves i c choice c' pc' es) {e : Event} (he : e ∈ es) :
    (∀ p, ¬ e.Invalidates p) ∧ (∀ b q, e ≠ .began b q) ∧
      ∀ j l q, e = .loadStarted j l q → caller.pc = .starting l := by
  cases hm with
  | alive | lookUp | again | released => cases he
  | refused | abandoned | shared | answered | returned =>
      obtain rfl := List.mem_singleton.mp he
      simp [Event.Invalidates]
  | started hpc =>
      obtain rfl := List.mem_singleton.mp he
      simp [Event.Invalidates, hpc]
  | finish now hpc =>
      unfold PC.report at he
      split at he
      · obtain rfl := List.mem_singleton.mp he
        simp [Event.Invalidates]
      · cases he

/-- The source is asked and answers in steps of their own: no section leads there. -/
lemma lookUp_pc (p : String) (now : ℤ) (c : Cache) (l : ℕ) (result : Except Err (List TestCase)) :
    (c.lookUp p now).2 ≠ .loading l ∧ (c.lookUp p now).2 ≠ .loaded l result := by
  cases hp : (c.expire p now).byID.get? p with
  | none => simp [Cache.lookUp, hp]
  | some ptr =>
      simp only [Cache.lookUp, hp]
      split_ifs <;> simp

lemma finish_pc (p : String) (ptr : ℕ) (r : Except Err (List TestCase)) (now : ℤ) (c : Cache) (l : ℕ)
    (result : Except Err (List TestCase)) :
    (c.finish p ptr r now).2 ≠ .loading l ∧ (c.finish p ptr r now).2 ≠ .loaded l result := by
  unfold Cache.finish
  split_ifs
  · simp
  · cases r <;> simp

lemma moves_loading {caller : Caller} {choice : Choice} {pc' : PC}
    (hm : caller.Moves i c choice c' pc' es) (hpc : pc' = .loading l) :
    es = [.loadStarted i l caller.problemID] := by
  cases hm with
  | lookUp now => exact absurd hpc (lookUp_pc _ now c l (.ok [])).1
  | finish now => exact absurd hpc (finish_pc _ _ _ now c l (.ok [])).1
  | started =>
      cases hpc
      rfl
  | _ => cases hpc

lemma moves_loaded {caller : Caller} {choice : Choice} {pc' : PC}
    {result : Except Err (List TestCase)} (hm : caller.Moves i c choice c' pc' es)
    (hpc : pc' = .loaded l result) : caller.pc = .loading l ∧ es = [.loadEnded i l result] := by
  cases hm with
  | lookUp now => exact absurd hpc (lookUp_pc _ now c l result).2
  | finish now => exact absurd hpc (finish_pc _ _ _ now c l result).2
  | answered hold =>
      cases hpc
      exact ⟨hold, rfl⟩
  | _ => cases hpc

/-- The map stays stocked when a call takes a step. -/
lemma Stocked.advance {maxBytes : ℤ} {s : System} (hinv : Inv maxBytes s)
    (hs : Stocked s.history s.cache) {caller : Caller} {choice : Choice} {pc' : PC}
    (hi : s.callers[i]? = some caller) (ht : caller.Traced s.history s.cache i)
    (hm : caller.Moves i s.cache choice c' pc' es) : Stocked (s.history ++ es) c' := by
  have hsuites := suites_moves hinv hi hm
  have hsection := (hinv.advance hi hm).2
  have hstarting (l : ℕ) (hl : caller.pc = .starting l) : l < s.cache.next :=
    (hinv.held.pending_of_loads hi (by rw [hl]; rfl)).1
  have hknown (k j l : ℕ) (q : String) (hk : At (s.history ++ es) k (.loadStarted j l q)) :
      l < s.cache.next := by
    rcases at_append hk with hk | ⟨-, hk⟩
    · exact hs.known k j l q hk
    · exact hstarting l ((moves_event hm hk).2.2 j l q rfl)
  constructor
  · exact fun k j l q hk => (hknown k j l q hk).trans_le hsuites.next
  · intro p l hp k j q hk n e hn he
    have hn : At s.history n e := by
      rcases at_append hn with hn | ⟨-, hn⟩
      · exact hn
      · exact absurd he ((moves_event hm hn).1 p)
    rcases hsection.map p l hp with hold | ⟨hnew, -⟩
    · rcases at_append hk with hk | ⟨hlate, -⟩
      · exact hs.current p l hold k j q hk n e hn he
      · exact hn.lt.trans_le hlate
    · exact absurd (hknown k j l q hk) (not_lt.mpr hnew)
  · intro p l hp hready
    rcases hsuites.published p l hp hready with hloaded | ⟨rfl, hpc⟩
    · have hold : s.cache.byID.get? p = some l := by
        rcases hsection.map p l hp with hold | ⟨hnew, -⟩
        · exact hold
        · rw [hinv.held.fresh l hnew] at hloaded
          cases hloaded
      obtain ⟨k, m, hl⟩ := hs.stored p l hold hloaded
      exact ⟨k, m, hsuites.same l hloaded ▸ hl.append es⟩
    · obtain ⟨k, m, hkm, hk, hm⟩ := ht.ended l _ hpc
      exact ⟨k, m, hkm, i, hk.append es, hm.append es⟩

/-- The other calls keep what they have behind them. -/
lemma Caller.Traced.frame {caller : Caller} (ht : caller.Traced h c i)
    (htests : ∀ l, caller.pc = .inUse l → (c'.entry l).tests = (c.entry l).tests)
    (es : List Event) : caller.Traced (h ++ es) c' i where
  began := ht.began.imp fun _ hb => hb.append es
  cancelled err herr := (ht.cancelled err herr).imp fun _ hn => hn.append es
  started l hl := (ht.started l hl).imp fun _ hk => hk.append es
  ended l result hl := by
    obtain ⟨k, m, hkm, hk, hm⟩ := ht.ended l result hl
    exact ⟨k, m, hkm, hk.append es, hm.append es⟩
  supplied l hl := by
    rw [htests l hl]
    exact (ht.supplied l hl).append es

/-- The call that takes the step has what it needs behind it. -/
lemma Caller.Traced.advance {maxBytes : ℤ} {s : System} (hinv : Inv maxBytes s)
    (hs : Stocked s.history s.cache) {caller : Caller} {choice : Choice} {pc' : PC}
    (hi : s.callers[i]? = some caller) (ht : caller.Traced s.history s.cache i)
    (hm : caller.Moves i s.cache choice c' pc' es) :
    Caller.Traced (s.history ++ es) c' i { caller with pc := pc' } where
  began := ht.began.imp fun _ hb => hb.append es
  cancelled err herr := (ht.cancelled err herr).imp fun _ hn => hn.append es
  started l hl := by
    obtain rfl := moves_loading hm hl
    exact ⟨_, at_last _ _⟩
  ended l result hl := by
    obtain ⟨hpc, rfl⟩ := moves_loaded hm hl
    obtain ⟨k, hk⟩ := ht.started l hpc
    exact ⟨k, s.history.length, hk.lt, hk.append _, at_last _ _⟩
  supplied l hl := by
    have hsuites := suites_moves hinv hi hm
    obtain ⟨hp, hload⟩ := hsuites.acquired l hl
    obtain ⟨b, hb⟩ := ht.began
    have hloaded : ∃ k m, Loaded s.history caller.problemID l (c'.entry l).tests k m := by
      rcases hload with hready | hpc
      · rw [hsuites.same l hready]
        exact hs.stored _ l hp hready
      · obtain ⟨k, m, hkm, hk, hm⟩ := ht.ended l _ hpc
        exact ⟨k, m, hkm, i, hk, hm⟩
    obtain ⟨k, m, hl⟩ := hloaded
    obtain ⟨-, j, hk, -⟩ := id hl
    refine Supplied.append ⟨b, l, k, m, hb, hl, fun q e hq he => .inl ?_⟩ es
    exact hs.current _ l hp k j _ hk q e hq he

/-- A call returns what its entry holds. -/
lemma moves_returned {caller : Caller} {choice : Choice} {pc' : PC} {j : ℕ}
    (hm : caller.Moves i c choice c' pc' es) (he : Event.returned j tests ∈ es) :
    j = i ∧ ∃ l, caller.pc = .inUse l ∧ (c.entry l).tests = tests := by
  cases hm with
  | alive | lookUp | again | released => cases he
  | refused | abandoned | shared | answered | started => simp at he
  | @returned _ l hpc =>
      obtain ⟨rfl, rfl⟩ := Event.returned.inj (List.mem_singleton.mp he)
      exact ⟨rfl, l, hpc, rfl⟩
  | finish now hpc =>
      unfold PC.report at he
      split at he <;> simp at he

lemma finish_failed {ptr : ℕ} {r : Except Err (List TestCase)} {now : ℤ} {err : Err}
    (h : (c.finish p ptr r now).2 = .failed err) : r = .error err := by
  unfold Cache.finish at h
  split_ifs at h
  cases r with
  | error err' =>
      cases h
      rfl
  | ok tests => cases h

/-- A call fails with what its own context ended with, with what the source told it, or with an error
that is no cancellation. -/
lemma moves_failed {caller : Caller} {choice : Choice} {pc' : PC} {j : ℕ} {err : Err}
    (hm : caller.Moves i c choice c' pc' es) (he : Event.failed j err ∈ es) :
    j = i ∧ (caller.ctxErr = some err ∨ err.isCancellation = false ∨
      ∃ l, caller.pc = .loaded l (.error err)) := by
  cases hm with
  | alive | lookUp | again | released => cases he
  | answered | started | returned => simp at he
  | refused _ hctx | abandoned _ hctx =>
      obtain ⟨rfl, rfl⟩ := Event.failed.inj (List.mem_singleton.mp he)
      exact ⟨rfl, .inl hctx⟩
  | shared _ hcancel =>
      obtain ⟨rfl, rfl⟩ := Event.failed.inj (List.mem_singleton.mp he)
      exact ⟨rfl, .inr (.inl hcancel)⟩
  | @finish ptr result now hpc =>
      unfold PC.report at he
      split at he
      · next err' hfail =>
        obtain ⟨rfl, rfl⟩ := Event.failed.inj (List.mem_singleton.mp he)
        exact ⟨rfl, .inr (.inr ⟨ptr, finish_failed hfail ▸ hpc⟩)⟩
      · cases he

/-- What was true of the answers stays true of them. -/
lemma Honest.append_returned (hh : Honest h) {n j : ℕ} (hn : At h n (.returned j tests))
    (es : List Event) : ∃ p, Supplied ((h ++ es).take n) j p tests := by
  rw [List.take_append_of_le_length hn.lt.le]
  exact hh.returned n j tests hn

/-- The answers stay honest when a call takes a step. -/
lemma Honest.advance {s : System} (hh : Honest s.history) {caller : Caller} {choice : Choice}
    {pc' : PC} (ht : caller.Traced s.history s.cache i)
    (hm : caller.Moves i s.cache choice c' pc' es) : Honest (s.history ++ es) where
  once j b b' p p' hb hb' := by
    rcases at_append hb with hb | ⟨-, hb⟩
    · rcases at_append hb' with hb' | ⟨-, hb'⟩
      · exact hh.once j b b' p p' hb hb'
      · exact absurd rfl ((moves_event hm hb').2.1 _ _)
    · exact absurd rfl ((moves_event hm hb).2.1 _ _)
  returned n j tests hn := by
    rcases at_append hn with hn | ⟨hlate, hn⟩
    · exact hh.append_returned hn es
    · obtain ⟨rfl, l, hpc, rfl⟩ := moves_returned hm hn
      refine ⟨caller.problemID, ?_⟩
      rw [List.take_append, List.take_of_length_le hlate]
      exact (ht.supplied l hpc).append _
  failed n j err hn hcancel := by
    rcases at_append hn with hn | ⟨hlate, hn⟩
    · exact (hh.failed n j err hn hcancel).imp
        (fun ⟨m, hm, hc⟩ => ⟨m, hm, hc.append es⟩) fun ⟨m, hm, l, hl⟩ => ⟨m, hm, l, hl.append es⟩
    · obtain ⟨rfl, hctx | hno | ⟨l, hpc⟩⟩ := moves_failed hm hn
      · obtain ⟨m, hc⟩ := ht.cancelled err hctx
        exact .inl ⟨m, hc.lt.trans_le hlate, hc.append es⟩
      · simp [hno] at hcancel
      · obtain ⟨-, m, -, -, hl⟩ := ht.ended l _ hpc
        exact .inr ⟨m, hl.lt.trans_le hlate, l, hl.append es⟩

/-! ## Every run -/

/-- The calls, the map and the answers, as the history tells them. -/
structure Told (s : System) : Prop where
  traced : ∀ i (caller : Caller), s.callers[i]? = some caller → caller.Traced s.history s.cache i
  stocked : Stocked s.history s.cache
  honest : Honest s.history
  numbered : ∀ i b p, At s.history b (.began i p) → i < s.callers.length

lemma told_new (maxBytes : ℤ) : Told (System.new maxBytes) where
  traced := by simp [System.new]
  stocked := ⟨by simp [System.new], by simp [System.new], by simp [System.new, newTestCache]⟩
  honest := ⟨by simp [System.new], by simp [System.new], by simp [System.new]⟩
  numbered := by simp [System.new]

/-- An event that is neither an answer nor the beginning of a call known already. -/
lemma Honest.concat (hh : Honest h) {e : Event} (hreturned : ∀ i tests, e ≠ .returned i tests)
    (hfailed : ∀ i err, e ≠ .failed i err)
    (hbegan : ∀ i p, e = .began i p → ∀ b q, ¬ At h b (.began i q)) : Honest (h ++ [e]) where
  once j b b' p p' hb hb' := by
    rcases at_concat.mp hb with hb | ⟨rfl, he⟩ <;> rcases at_concat.mp hb' with hb' | ⟨rfl, he'⟩
    · exact hh.once j b b' p p' hb hb'
    · exact absurd hb (hbegan j p' he'.symm b p)
    · exact absurd hb' (hbegan j p he.symm b' p')
    · exact ⟨rfl, (Event.began.inj (he.trans he'.symm)).2⟩
  returned n j tests hn := by
    rcases at_concat.mp hn with hn | ⟨-, he⟩
    · exact hh.append_returned hn [e]
    · exact absurd he.symm (hreturned j tests)
  failed n j err hn hcancel := by
    rcases at_concat.mp hn with hn | ⟨-, he⟩
    · exact (hh.failed n j err hn hcancel).imp
        (fun ⟨m, hm, hc⟩ => ⟨m, hm, hc.append _⟩) fun ⟨m, hm, l, hl⟩ => ⟨m, hm, l, hl.append _⟩
    · exact absurd he.symm (hfailed j err)

/-- An event that asks the source nothing, and a map that lost what it invalidates. -/
lemma Stocked.concat (hs : Stocked h c) {e : Event} (hstart : ∀ j l p, e ≠ .loadStarted j l p)
    (hentry : c'.entry = c.entry) (hnext : c'.next = c.next)
    (hmap : ∀ p l, c'.byID.get? p = some l → c.byID.get? p = some l ∧ ¬ e.Invalidates p) :
    Stocked (h ++ [e]) c' where
  known k j l p hk := by
    rcases at_concat.mp hk with hk | ⟨-, he⟩
    · rw [hnext]
      exact hs.known k j l p hk
    · exact absurd he.symm (hstart j l p)
  current p l hp k j q hk n e' hn he' := by
    obtain ⟨hold, hkeep⟩ := hmap p l hp
    rcases at_concat.mp hk with hk | ⟨-, he⟩
    · rcases at_concat.mp hn with hn | ⟨-, rfl⟩
      · exact hs.current p l hold k j q hk n e' hn he'
      · exact absurd he' hkeep
    · exact absurd he.symm (hstart j l q)
  stored p l hp hready := by
    rw [hentry] at hready ⊢
    obtain ⟨k, m, hl⟩ := hs.stored p l (hmap p l hp).1 hready
    exact ⟨k, m, hl.append _⟩

/-- The calls are numbered as they begin. -/
lemma Told.numbered_append {s : System} (h : Told s) {callers : List Caller}
    (hlen : callers.length = s.callers.length) (hes : ∀ e ∈ es, ∀ i p, e ≠ .began i p) {b : ℕ}
    (hb : At (s.history ++ es) b (.began i p)) : i < callers.length := by
  rcases at_append hb with hb | ⟨-, hb⟩
  · exact hlen ▸ h.numbered i b p hb
  · exact absurd rfl (hes _ hb i p)

lemma Told.begin {s : System} (h : Told s) (p : String) :
    Told { s with
      callers := s.callers ++ [⟨p, none, .top⟩]
      history := s.history ++ [.began s.callers.length p] } where
  traced i caller hi := by
    rw [List.getElem?_append] at hi
    split_ifs at hi with hlt
    · exact (h.traced i caller hi).frame (fun _ _ => rfl) _
    · obtain rfl : i = s.callers.length := by
        have := (List.getElem?_eq_some_iff.mp hi).1
        simp only [List.length_singleton] at this
        omega
      obtain rfl : caller = ⟨p, none, .top⟩ := by simpa [eq_comm] using hi
      exact ⟨⟨_, at_last _ _⟩, by simp, by simp, by simp, by simp⟩
  stocked := h.stocked.concat (by simp) rfl rfl fun q l hq => ⟨hq, by simp [Event.Invalidates]⟩
  honest := by
    refine h.honest.concat (by simp) (by simp) fun i q he b r hb => ?_
    have := h.numbered i b r hb
    cases he
    exact lt_irrefl _ this
  numbered i b q hb := by
    rw [List.length_append, List.length_singleton]
    rcases at_concat.mp hb with hb | ⟨-, he⟩
    · exact (h.numbered i b q hb).trans (Nat.lt_succ_self _)
    · cases he
      exact Nat.lt_succ_self _

lemma Told.cancel {s : System} (h : Told s) {caller : Caller} (hi : s.callers[i]? = some caller)
    (deadline : Bool) :
    Told { s with
      callers := s.callers.set i (caller.cancel deadline)
      history := s.history ++ [.cancelled i] } where
  traced j other hj := by
    rw [List.getElem?_set] at hj
    split_ifs at hj with hij
    · obtain rfl := Option.some.inj hj
      have ht : caller.Traced (s.history ++ [.cancelled i]) s.cache i :=
        (h.traced i caller hi).frame (fun _ _ => rfl) _
      exact hij ▸ ⟨ht.began, fun _ _ => ⟨_, at_last _ _⟩, ht.started, ht.ended, ht.supplied⟩
    · exact (h.traced j other hj).frame (fun _ _ => rfl) _
  stocked := h.stocked.concat (by simp) rfl rfl fun q l hq => ⟨hq, by simp [Event.Invalidates]⟩
  honest := h.honest.concat (by simp) (by simp) (by simp)
  numbered j b q hb := h.numbered_append (List.length_set ..) (by simp) hb

lemma Told.advance {maxBytes : ℤ} {s : System} (hinv : Inv maxBytes s) (h : Told s)
    {caller : Caller} {choice : Choice} {pc' : PC} (hi : s.callers[i]? = some caller)
    (hm : caller.Moves i s.cache choice c' pc' es) :
    Told ⟨c', s.callers.set i { caller with pc := pc' }, s.history ++ es⟩ where
  traced j other hj := by
    have ht := h.traced i caller hi
    rw [List.getElem?_set] at hj
    split_ifs at hj with hij
    · obtain rfl := Option.some.inj hj
      exact hij ▸ ht.advance hinv h.stocked hi hm
    · refine (h.traced j other hj).frame (fun l hl => (suites_moves hinv hi hm).same l ?_) es
      exact hinv.held.loaded other (List.mem_of_getElem? hj) l (by rw [hl]; rfl)
  stocked := h.stocked.advance hinv hi (h.traced i caller hi) hm
  honest := h.honest.advance (h.traced i caller hi) hm
  numbered j b q hb :=
    h.numbered_append (List.length_set ..) (fun _ he _ _ => (moves_event hm he).2.1 _ _) hb

/-- An invalidation takes from the map what it concerns. -/
lemma Told.drop {s : System} (h : Told s) {e : Event} (hstart : ∀ j l p, e ≠ .loadStarted j l p)
    (hreturned : ∀ i tests, e ≠ .returned i tests) (hfailed : ∀ i err, e ≠ .failed i err)
    (hbegan : ∀ i p, e ≠ .began i p) (hentry : c'.entry = s.cache.entry)
    (hnext : c'.next = s.cache.next)
    (hmap : ∀ p l, c'.byID.get? p = some l →
      s.cache.byID.get? p = some l ∧ ¬ e.Invalidates p) :
    Told ⟨c', s.callers, s.history ++ [e]⟩ where
  traced i caller hi := (h.traced i caller hi).frame (fun _ _ => by rw [hentry]) _
  stocked := h.stocked.concat hstart hentry hnext hmap
  honest := h.honest.concat hreturned hfailed fun i p he => absurd he (hbegan i p)
  numbered i b p hb := h.numbered_append rfl (by simpa using hbegan) hb

lemma told_step {maxBytes : ℤ} (a : Action) (s s' : System) (hinv : Inv maxBytes s) (h : Told s)
    (hs : step a s = some s') : Told s' := by
  cases a with
  | begin p =>
      cases hs
      exact h.begin p
  | cancel i deadline =>
      obtain ⟨caller, hi, rfl⟩ := Option.map_eq_some_iff.mp hs
      exact h.cancel hi deadline
  | advance i choice =>
      obtain ⟨caller, hi, hs⟩ := Option.bind_eq_some_iff.mp hs
      obtain ⟨⟨c', pc', events⟩, hadv, rfl⟩ := Option.map_eq_some_iff.mp hs
      exact h.advance hinv hi (Caller.advance_moves hadv)
  | invalidate p =>
      cases hs
      obtain ⟨hentry, hnext, -, hmap⟩ := invalidate_frame p s.cache
      refine h.drop (by simp) (by simp) (by simp) (by simp) hentry hnext fun q l hq => ?_
      obtain ⟨hne, hq⟩ := (hmap q l).mp hq
      exact ⟨hq, fun heq => hne heq.symm⟩
  | clear =>
      cases hs
      refine h.drop (by simp) (by simp) (by simp) (by simp) rfl rfl fun q l hq => ?_
      simp [Cache.clear] at hq

theorem told_reachable {maxBytes : ℤ} {s : System} (h : Reachable maxBytes s) : Told s :=
  Reach.invariant_of (fun _ => inv_reachable) (told_new maxBytes) told_step h

/-- A suite that a call has returned: asked for after every invalidation of its problem that came
before the call began, and overtaken by none. -/
def Fresh (h : List Event) (n i : ℕ) (tests : List TestCase) : Prop :=
  ∃ p b j l k m,
    (At h b (.began i p) ∧ ∀ b' p', At h b' (.began i p') → b' = b) ∧
    At h k (.loadStarted j l p) ∧ At h m (.loadEnded j l (.ok tests)) ∧
    b < n ∧ k < m ∧ m < n ∧
    ∀ q e, At h q e → e.Invalidates p → (q < b → q < k) ∧ ¬ (k < q ∧ q < m)

lemma Supplied.fresh {n : ℕ} (hh : Honest h) (hn : n ≤ h.length)
    (hs : Supplied (h.take n) i p tests) : Fresh h n i tests := by
  obtain ⟨b, l, k, m, hb, ⟨hkm, j, hk, hm⟩, hinv⟩ := hs
  have hlen : (h.take n).length = n := List.length_take_of_le hn
  have htake {r : ℕ} {e : Event} (he : At (h.take n) r e) : At h r e := by
    have := he.append (h.drop n)
    rwa [List.take_append_drop] at this
  refine ⟨p, b, j, l, k, m, ⟨htake hb, fun b' p' hb' => (hh.once i b' b p' p hb' (htake hb)).1⟩,
    htake hk, htake hm, hlen ▸ hb.lt, hkm, hlen ▸ hm.lt, fun q e hq he => ?_⟩
  rw [← List.take_append_drop n h] at hq
  rcases at_append hq with hq | ⟨hlate, -⟩
  · have := hinv q e hq he
    omega
  · have := hb.lt
    have := hm.lt
    omega

/-- The call `i` is loading the entry that the map holds for a problem. -/
def Attached (s : System) (p : String) (i : ℕ) : Prop :=
  ∃ (caller : Caller) (l : ℕ), s.callers[i]? = some caller ∧ caller.pc.loads = some l ∧
    s.cache.byID.get? p = some l

/-- In every interleaving: what a call returns is fresh; a problem has at most one load in flight that
is attached to the map; and a call fails with a cancellation only if its own context has ended or the
source told its own load so. -/
theorem freshness (maxBytes : ℤ) (s : System) (h : Reachable maxBytes s) :
    (∀ n i tests, At s.history n (.returned i tests) → Fresh s.history n i tests) ∧
    (∀ p i j, Attached s p i → Attached s p j → i = j) ∧
    (∀ n i err, At s.history n (.failed i err) → err.isCancellation = true →
      (∃ m < n, At s.history m (.cancelled i)) ∨
        ∃ m < n, ∃ l, At s.history m (.loadEnded i l (.error err))) := by
  have hinv := inv_reachable h
  have htold := told_reachable h
  refine ⟨fun n i tests hn => ?_, ?_, htold.honest.failed⟩
  · obtain ⟨p, hp⟩ := htold.honest.returned n i tests hn
    exact hp.fresh htold.honest hn.lt.le
  · rintro p i j ⟨caller, l, hi, hl, hp⟩ ⟨other, l', hj, hl', hp'⟩
    obtain rfl := Option.some.inj (hp.symm.trans hp')
    exact hinv.held.loader_unique hi hj hl hl'

/-! ## An invalidation during a load -/

/-- The suite is edited while the first call loads it: the call drops what it gets, asks again, and
returns the new suite. -/
def sampleEdit : System :=
  (run step
    (sampleLoad 0 "a" ++ [.invalidate "a"] ++ List.replicate 4 (.advance 0 (.go 0)) ++
      [.advance 0 (.answer (.ok (sampleSuite "a'")))] ++ List.replicate 2 (.advance 0 (.go 0)))
    (System.new 64)).getD (System.new 64)

theorem freshness_sample : Fresh sampleEdit.history 6 0 (sampleSuite "a'") :=
  (freshness 64 sampleEdit (Reach.run_getD _)).1 6 0 (sampleSuite "a'") (by decide +kernel)

end TestCache

end Labyrithm
