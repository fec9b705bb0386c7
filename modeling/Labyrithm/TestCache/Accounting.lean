import Labyrithm.TestCache.Calls

/-!
# The test cache keeps its accounts

Entries leave the map by an invalidation, by a clearing, when their time is up, when their load has
failed (`Removes`), or because room is needed (`Victim`).  In none of these is anything subtracted
twice, although users may hold an entry that has left and release it later.

* `step_gone` — every departure is of one of these kinds.
* **`accounting`** — the books in every reachable state, and what may leave the map in every step.
-/

namespace Labyrithm

namespace TestCache

open Go

variable {c : Cache} {p : String} {ptr l : ℕ}

/-! ## What leaves the map -/

/-- What a step takes out of the map whether or not there is room: an invalidation, a clearing, an entry
whose time is up, and one whose load has failed. -/
def Removes (s : System) : Action → String → ℕ → Prop
  | .invalidate p, q, _ => q = p
  | .clear, _, _ => True
  | .advance i choice, q, l => ∃ caller, s.callers[i]? = some caller ∧ q = caller.problemID ∧
      ((∃ now, caller.pc = .locking ∧ choice = .go now ∧ (s.cache.entry l).ready = false ∧
          (s.cache.entry l).expires < now) ∨
        ∃ err, caller.pc = .loaded l (.error err))
  | _, _, _ => False

/-- An entry that had to make room: idle, and used less recently than every idle entry that stays. -/
def Victim (c' : Cache) (l : ℕ) : Prop :=
  (c'.entry l).idle ∧ ∀ r n, c'.byID.get? r = some n → (c'.entry n).idle →
    (c'.entry l).lastUsed < (c'.entry n).lastUsed

lemma Evicted.victim {c' : Cache} (h : Evicted c c') (hp : c.byID.get? p = some l)
    (hgone : c'.byID.get? p ≠ some l) : Victim c' l := by
  obtain ⟨hidle, -, hlru⟩ := h.gone p l hp hgone
  rw [Victim, h.entry]
  exact ⟨hidle, hlru⟩

lemma release_gone (h : Sound c) (hp : c.byID.get? p = some l)
    (hgone : (c.release ptr).byID.get? p ≠ some l) : Victim (c.release ptr) l :=
  (evict_evicted (h.toBooks.set ptr (e := { c.entry ptr with users := (c.entry ptr).users - 1 })
    rfl rfl id) (h.toRanks.set ptr rfl rfl)).victim hp hgone

lemma use_gone (h : Sound c) (hp : c.byID.get? p = some l)
    (hgone : (c.use ptr).byID.get? p ≠ some l) : Victim (c.use ptr) l :=
  (evict_evicted (h.toBooks.touch ptr) (h.toRanks.touch rfl rfl fun _ _ => rfl)).victim hp hgone

/-- Only an entry whose time is up expires. -/
lemma expire_gone {q : String} {now : ℤ} (hq : c.byID.get? q = some l)
    (hgone : (c.expire p now).byID.get? q ≠ some l) :
    q = p ∧ (c.entry l).ready = false ∧ (c.entry l).expires < now := by
  cases hp : c.byID.get? p with
  | none =>
      simp only [Cache.expire, hp] at hgone
      exact absurd hq hgone
  | some m =>
      simp only [Cache.expire, hp] at hgone
      split_ifs at hgone with hexp
      · have hqp : q = p := by
          by_contra hne
          exact hgone (Map.get?_erase_eq_some.mpr ⟨hne, hq⟩)
        obtain rfl : m = l := Option.some.inj (hp.symm.trans (hqp ▸ hq))
        exact ⟨hqp, by simpa using hexp.1, hexp.2⟩
      · exact absurd hq hgone

lemma lookUp_gone (h : Sound c) {q : String} {now : ℤ} (hq : c.byID.get? q = some l)
    (hgone : (c.lookUp p now).1.byID.get? q ≠ some l) :
    (q = p ∧ (c.entry l).ready = false ∧ (c.entry l).expires < now) ∨
      Victim (c.lookUp p now).1 l := by
  by_cases hx : (c.expire p now).byID.get? q = some l
  · cases hp : (c.expire p now).byID.get? p with
    | none =>
        simp only [Cache.lookUp, hp] at hgone
        refine absurd (Map.get?_insert_eq_some.mpr (.inr ⟨?_, hx⟩)) hgone
        rintro rfl
        simp [hp] at hx
    | some m =>
        simp only [Cache.lookUp, hp] at hgone ⊢
        split_ifs at hgone ⊢
        · exact absurd hx hgone
        · exact .inr (use_gone (h.expire p now) hx hgone)
  · exact .inl (expire_gone hq hx)

lemma finish_gone (h : Sound c) (hload : (c.entry ptr).ready = true) {q : String}
    {result : Except Err (List TestCase)} {now : ℤ} (hq : c.byID.get? q = some l)
    (hgone : (c.finish p ptr result now).1.byID.get? q ≠ some l) :
    (q = p ∧ l = ptr ∧ ∃ err, result = .error err) ∨ Victim (c.finish p ptr result now).1 l := by
  unfold Cache.finish at hgone ⊢
  split_ifs at hgone ⊢ with hp
  · exact absurd hq hgone
  · have hp : c.byID.get? p = some ptr := not_not.mp hp
    cases result with
    | error err =>
        have hqp : q = p := by
          by_contra hne
          exact hgone (Map.get?_erase_eq_some.mpr ⟨hne, hq⟩)
        exact .inl ⟨hqp, Option.some.inj ((hqp ▸ hq).symm.trans hp), err, rfl⟩
    | ok tests =>
        have he := evict_evicted ((h.toBooks.publish hp hload tests now).touch ptr)
          (h.toRanks.touch rfl rfl fun m hm => by simp [Cache.publish, hm])
        exact .inr (he.victim hq hgone)

/-- A step takes entries out of the map as `Removes` says, or to make room. -/
lemma step_gone {maxBytes : ℤ} {s s' : System} (h : Inv maxBytes s) {a : Action}
    (hs : step a s = some s') {q : String} (hq : s.cache.byID.get? q = some l)
    (hgone : s'.cache.byID.get? q ≠ some l) : Removes s a q l ∨ Victim s'.cache l := by
  cases a with
  | begin p =>
      cases hs
      exact absurd hq hgone
  | cancel i deadline =>
      obtain ⟨caller, -, rfl⟩ := Option.map_eq_some_iff.mp hs
      exact absurd hq hgone
  | advance i choice =>
      obtain ⟨caller, hi, hs⟩ := Option.bind_eq_some_iff.mp hs
      obtain ⟨⟨c', pc', events⟩, hadv, rfl⟩ := Option.map_eq_some_iff.mp hs
      cases Caller.advance_moves hadv with
      | refused | alive | abandoned | again | shared | started | answered | returned =>
          exact absurd hq hgone
      | lookUp now hpc =>
          rcases lookUp_gone h.sound hq hgone with ⟨rfl, hready, hexp⟩ | hv
          · exact .inl ⟨caller, hi, rfl, .inl ⟨now, hpc, rfl, hready, hexp⟩⟩
          · exact .inr hv
      | @finish ptr result now hpc =>
          have hl : caller.pc.loads = some ptr := by rw [hpc]; rfl
          have hload := (h.held.pending_of_loads hi hl).2
          rcases finish_gone h.sound hload hq hgone with ⟨rfl, rfl, err, rfl⟩ | hv
          · exact .inl ⟨caller, hi, rfl, .inr ⟨err, hpc⟩⟩
          · exact .inr hv
      | released => exact .inr (release_gone h.sound hq hgone)
  | invalidate p =>
      cases hs
      have hiff := (invalidate_frame p s.cache).2.2.2 q l
      by_cases hqp : q = p
      · exact .inl hqp
      · exact absurd (hiff.mpr ⟨hqp, hq⟩) hgone
  | clear => exact .inl trivial

/-- The accounts of the cache after every section of every interleaving: the total is the size of the
suites in the map, no count of users is negative, beyond the limit nothing idle is kept, and whatever a
step takes out of the map to make room is idle and the least recently used. -/
theorem accounting (maxBytes : ℤ) (s : System) (h : Reachable maxBytes s) :
    s.cache.bytes = (s.cache.byID.sum fun _ l => suiteBytes (s.cache.entry l).tests) ∧
    (∀ l, 0 ≤ (s.cache.entry l).users) ∧
    (maxBytes < s.cache.bytes → ∀ p l, s.cache.byID.get? p = some l → (s.cache.entry l).idle = false) ∧
    ∀ a s', step a s = some s' → ∀ p l, s.cache.byID.get? p = some l →
      s'.cache.byID.get? p ≠ some l → Removes s a p l ∨ Victim s'.cache l := by
  have hinv := inv_reachable h
  refine ⟨?_, fun l => ?_, ?_, fun a s' hs p l hp hgone => step_gone hinv hs hp hgone⟩
  · exact hinv.sound.total.trans (Map.sum_congr fun _ l _ => hinv.sound.size l)
  · rw [hinv.held.users l]
    exact Int.natCast_nonneg _
  · rw [← hinv.limit]
    exact hinv.sound.tidy

/-! ## Two suites and room for one -/

def sampleSuite (id : String) : List TestCase := [⟨id, 1, [0x31, 0x0a], [0x32], 100⟩]

/-- The steps of a call that loads its suite, up to the section that puts it into the map. -/
def sampleLoad (i : ℕ) (id : String) : List Action :=
  [.begin id, .advance i (.go 0), .advance i (.go 0), .advance i (.go 0),
    .advance i (.answer (.ok (sampleSuite id)))]

/-- The first call has loaded, returned and released its suite, the second has just loaded another. -/
def sampleState : System :=
  (run step (sampleLoad 0 "a" ++ List.replicate 3 (.advance 0 (.go 0)) ++ sampleLoad 1 "b")
    (System.new 4)).getD (System.new 4)

/-- The suite of the second call is put into the map. -/
def sampleNext : System := (step (.advance 1 (.go 0)) sampleState).get (by decide +kernel)

/-- The first suite is idle there, and has to make room for the second. -/
theorem accounting_sample :
    sampleState.cache.bytes =
      (sampleState.cache.byID.sum fun _ l => suiteBytes (sampleState.cache.entry l).tests) ∧
    (Removes sampleState (.advance 1 (.go 0)) "a" 0 ∨ Victim sampleNext.cache 0) :=
  have h := accounting 4 sampleState (Reach.run_getD _)
  ⟨h.1, h.2.2.2 (.advance 1 (.go 0)) sampleNext (Option.some_get _).symm "a" 0 (by decide +kernel)
    (by decide +kernel)⟩

end TestCache

end Labyrithm
