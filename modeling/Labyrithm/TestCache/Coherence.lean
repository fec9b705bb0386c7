import Labyrithm.TestCache.Freshness

/-!
# What the test cache hands out

Whatever is true of the answers of the source, and not made false by what happens before the next
invalidation, is true of the suites that the cache holds and of those that it hands out.  The property
is a parameter, `cur`, that may change as time goes on; where `cur` says that a suite is the one that is
stored, or that an invalidation of the problem is still to come, this is coherence.

A load reads the source at one point between the question and the answer, so what it has read is kept
apart (`Reads`).

* `Carries` — the entries in the map, and the loads attached to it, have the property.
* `Carries.step` — it stays so in every step; `Carries.invalidate` — the property of the problem that is
  invalidated may be lost.
* `Serves` — the calls from a certain one on get nothing else; `Serves.step` that it stays so.
-/

namespace Labyrithm

namespace TestCache

open Go

/-- What the source has read for the calls that wait for its answer. -/
abbrev Reads := ℕ → Option (Except Err (List TestCase))

/-- With the answer, what was read for it is gone. -/
def Reads.after (reads : Reads) (i : ℕ) : Choice → Reads
  | .answer _ => Function.update reads i none
  | _ => reads

/-- What is in the map, or about to be, has the property. -/
structure Carries (cur : String → List TestCase → Prop) (reads : Reads) (s : System) : Prop where
  entries : ∀ p l, s.cache.byID.get? p = some l → (s.cache.entry l).ready = false →
    cur p (s.cache.entry l).tests
  loaded : ∀ (i : ℕ) (caller : Caller) l tests, s.callers[i]? = some caller →
    s.cache.byID.get? caller.problemID = some l → caller.pc = .loaded l (.ok tests) →
    cur caller.problemID tests
  read : ∀ (i : ℕ) (caller : Caller) l tests, s.callers[i]? = some caller →
    s.cache.byID.get? caller.problemID = some l → caller.pc = .loading l →
    reads i = some (.ok tests) → cur caller.problemID tests
  reading : ∀ i, (reads i).isSome → ∃ (caller : Caller) (l : ℕ), s.callers[i]? = some caller ∧
    caller.pc = .loading l

variable {cur cur' : String → List TestCase → Prop} {reads : Reads} {s s' : System} {maxBytes : ℤ}
  {i n : ℕ} {caller : Caller} {choice : Choice} {c' : Cache} {pc' : PC} {es : List Event}

lemma Reads.after_of_ne (reads : Reads) (choice : Choice) {j : ℕ} (hj : j ≠ i) :
    reads.after i choice j = reads j := by
  cases choice with
  | answer result => exact Function.update_of_ne hj none reads
  | _ => rfl

lemma Carries.new (cur : String → List TestCase → Prop) (maxBytes : ℤ) :
    Carries cur (fun _ => none) (System.new maxBytes) where
  entries := by simp [System.new, newTestCache]
  loaded := by simp [System.new]
  read := by simp [System.new]
  reading := by simp

/-- The property may get weaker. -/
lemma Carries.mono (h : Carries cur reads s) (hcur : ∀ p tests, cur p tests → cur' p tests) :
    Carries cur' reads s where
  entries p l hp hready := hcur _ _ (h.entries p l hp hready)
  loaded i caller l tests hi hp hpc := hcur _ _ (h.loaded i caller l tests hi hp hpc)
  read i caller l tests hi hp hpc hr := hcur _ _ (h.read i caller l tests hi hp hpc hr)
  reading := h.reading

/-- A load of the source reads what has the property. -/
lemma Carries.readAt (h : Carries cur reads s) (hi : s.callers[i]? = some caller) {l : ℕ}
    (hpc : caller.pc = .loading l) {result : Except Err (List TestCase)}
    (hresult : ∀ tests, result = .ok tests → cur caller.problemID tests) :
    Carries cur (Function.update reads i (some result)) s where
  entries := h.entries
  loaded := h.loaded
  read j other m tests hj hp hpc' hr := by
    by_cases hij : j = i
    · subst hij
      obtain rfl := Option.some.inj (hi.symm.trans hj)
      rw [Function.update_self] at hr
      exact hresult tests (Option.some.inj hr)
    · rw [Function.update_of_ne hij] at hr
      exact h.read j other m tests hj hp hpc' hr
  reading j hj := by
    by_cases hij : j = i
    · exact ⟨caller, l, hij ▸ hi, hpc⟩
    · rw [Function.update_of_ne hij] at hj
      exact h.reading j hj

/-! ## The steps -/

/-- A load goes on with the next step only when its answer is there. -/
lemma moves_from_loading {c : Cache} {l : ℕ} (hm : caller.Moves i c choice c' pc' es)
    (hpc : caller.pc = .loading l) : ∃ result, choice = .answer result := by
  cases hm with
  | answered => exact ⟨_, rfl⟩
  | refused h | alive h | lookUp _ h | abandoned h | again h | shared h | started h | finish _ h
    | returned h | released h => rw [hpc] at h; cases h

lemma moves_to_loading {c : Cache} {l : ℕ} (hm : caller.Moves i c choice c' pc' es)
    (hpc : pc' = .loading l) : caller.pc = .starting l := by
  cases hm with
  | lookUp now => exact absurd hpc (lookUp_pc _ now c l (.ok [])).1
  | finish now => exact absurd hpc (finish_pc _ _ _ now c l (.ok [])).1
  | started h =>
      cases hpc
      exact h
  | _ => cases hpc

lemma moves_to_loaded {c : Cache} {l : ℕ} {result : Except Err (List TestCase)}
    (hm : caller.Moves i c choice c' pc' es) (hpc : pc' = .loaded l result) :
    caller.pc = .loading l ∧ choice = .answer result ∧ c' = c := by
  cases hm with
  | lookUp now => exact absurd hpc (lookUp_pc _ now c l result).2
  | finish now => exact absurd hpc (finish_pc _ _ _ now c l result).2
  | answered h =>
      cases hpc
      exact ⟨h, rfl, rfl⟩
  | _ => cases hpc

/-- A pointer that was known before a step and is in the map after it was in the map. -/
lemma Section.map_old {c : Cache} {p q : String} {pc : PC} {l : ℕ} (h : Section p pc c c' pc')
    (hl : l < c.next) (hq : c'.byID.get? q = some l) : c.byID.get? q = some l := by
  rcases h.map q l hq with hold | ⟨hnew, -⟩
  · exact hold
  · exact absurd hl (not_lt.mpr hnew)

/-- A step of a call, where an answer of the source has the property. -/
lemma Carries.advance (hinv : Inv maxBytes s) (h : Carries cur reads s)
    (hi : s.callers[i]? = some caller) (hm : caller.Moves i s.cache choice c' pc' es)
    (hanswer : ∀ l tests, choice = .answer (.ok tests) → caller.pc = .loading l →
      s.cache.byID.get? caller.problemID = some l → cur caller.problemID tests) :
    Carries cur (reads.after i choice)
      ⟨c', s.callers.set i { caller with pc := pc' }, s.history ++ es⟩ where
  entries p l hp hready := by
    have hsuites := suites_moves hinv hi hm
    have hsection := (hinv.advance hi hm).2
    rcases hsuites.published p l hp hready with hold | ⟨rfl, hpc⟩
    · have hlt : l < s.cache.next := by
        by_contra hge
        rw [hinv.held.fresh l (not_lt.mp hge)] at hold
        cases hold
      rw [hsuites.same l hold]
      exact h.entries p l (hsection.map_old hlt hp) hold
    · have hlt := (hinv.held.pending_of_loads hi (l := l) (by rw [hpc]; rfl)).1
      exact h.loaded i caller l _ hi (hsection.map_old hlt hp) hpc
  loaded j other l tests hj hp hpc := by
    have hsection := (hinv.advance hi hm).2
    rw [List.getElem?_set] at hj
    split_ifs at hj with hij
    · obtain rfl := Option.some.inj hj
      obtain ⟨hold, hchoice, rfl⟩ := moves_to_loaded hm hpc
      exact hanswer l tests hchoice hold hp
    · have hlt := (hinv.held.pending_of_loads hj (l := l) (by rw [hpc]; rfl)).1
      exact h.loaded j other l tests hj (hsection.map_old hlt hp) hpc
  read j other l tests hj hp hpc hr := by
    have hsection := (hinv.advance hi hm).2
    rw [List.getElem?_set] at hj
    split_ifs at hj with hij
    · -- the load has only been started
      obtain rfl := Option.some.inj hj
      subst hij
      have hstart := moves_to_loading hm hpc
      have hnone : reads i = none := by
        by_contra hne
        obtain ⟨other, m, hother, hload⟩ := h.reading i (Option.isSome_iff_ne_none.mpr hne)
        obtain rfl := Option.some.inj (hi.symm.trans hother)
        rw [hstart] at hload
        cases hload
      cases choice <;> simp [Reads.after, hnone] at hr
    · rw [reads.after_of_ne choice (Ne.symm hij)] at hr
      have hlt := (hinv.held.pending_of_loads hj (l := l) (by rw [hpc]; rfl)).1
      exact h.read j other l tests hj (hsection.map_old hlt hp) hpc hr
  reading j hj := by
    by_cases hij : j = i
    · subst hij
      have hold : (reads j).isSome := by
        cases choice with
        | answer result => simp [Reads.after] at hj
        | _ => exact hj
      obtain ⟨other, l, hother, hload⟩ := h.reading j hold
      obtain rfl := Option.some.inj (hi.symm.trans hother)
      obtain ⟨result, rfl⟩ := moves_from_loading hm hload
      simp [Reads.after] at hj
    · rw [reads.after_of_ne choice hij] at hj
      obtain ⟨other, l, hother, hload⟩ := h.reading j hj
      exact ⟨other, l, by rw [List.getElem?_set_ne (Ne.symm hij)]; exact hother, hload⟩

/-- A step that takes entries out of the map, and leaves the property to the others. -/
lemma Carries.drop (h : Carries cur reads s) {e : Event} (hentry : c'.entry = s.cache.entry)
    (hmap : ∀ p l, c'.byID.get? p = some l → s.cache.byID.get? p = some l ∧
      ∀ tests, cur p tests → cur' p tests) :
    Carries cur' reads ⟨c', s.callers, s.history ++ [e]⟩ where
  entries p l hp hready := by
    rw [hentry] at hready ⊢
    exact (hmap p l hp).2 _ (h.entries p l (hmap p l hp).1 hready)
  loaded i caller l tests hi hp hpc := by
    exact (hmap _ l hp).2 _ (h.loaded i caller l tests hi (hmap _ l hp).1 hpc)
  read i caller l tests hi hp hpc hr := by
    exact (hmap _ l hp).2 _ (h.read i caller l tests hi (hmap _ l hp).1 hpc hr)
  reading := h.reading

lemma Carries.invalidate (h : Carries cur reads s) (p : String)
    (hcur : ∀ q tests, q ≠ p → cur q tests → cur' q tests) :
    Carries cur' reads ⟨s.cache.invalidate p, s.callers, s.history ++ [.invalidated p]⟩ := by
  obtain ⟨hentry, -, -, hmap⟩ := invalidate_frame p s.cache
  refine h.drop hentry fun q l hq => ?_
  obtain ⟨hne, hq⟩ := (hmap q l).mp hq
  exact ⟨hq, fun tests => hcur q tests hne⟩

/-- The calls of the second list are those of the first where they were, and new ones. -/
def Stay (before after : List Caller) : Prop :=
  ∀ (j : ℕ) (other : Caller), after[j]? = some other → other.pc = .top ∨
    ∃ old : Caller, before[j]? = some old ∧ other.problemID = old.problemID ∧ other.pc = old.pc

lemma Stay.refl (callers : List Caller) : Stay callers callers :=
  fun _ other hj => .inr ⟨other, hj, rfl, rfl⟩

/-- A call begins. -/
lemma Stay.begin (callers : List Caller) {new : Caller} (hnew : new.pc = .top) :
    Stay callers (callers ++ [new]) := by
  intro j other hj
  rw [List.getElem?_append] at hj
  split_ifs at hj
  · exact .inr ⟨other, hj, rfl, rfl⟩
  · obtain rfl := List.mem_singleton.mp (List.mem_of_getElem? hj)
    exact .inl hnew

/-- A context ends. -/
lemma Stay.cancel {callers : List Caller} {i : ℕ} {caller : Caller} (deadline : Bool)
    (hi : callers[i]? = some caller) : Stay callers (callers.set i (caller.cancel deadline)) := by
  intro j other hj
  rw [List.getElem?_set] at hj
  split_ifs at hj with hij
  · obtain rfl := Option.some.inj hj
    exact .inr ⟨caller, hij ▸ hi, rfl, rfl⟩
  · exact .inr ⟨other, hj, rfl, rfl⟩

/-- A call begins, or a context ends: the calls that were there are where they were. -/
lemma Carries.callers (h : Carries cur reads s) {callers : List Caller}
    (hnew : Stay s.callers callers)
    (hold : ∀ (j : ℕ) (old : Caller), s.callers[j]? = some old →
      ∃ other : Caller, callers[j]? = some other ∧ other.pc = old.pc) :
    Carries cur reads ⟨s.cache, callers, s.history ++ es⟩ where
  entries := h.entries
  loaded j other l tests hj hp hpc := by
    rcases hnew j other hj with htop | ⟨old, hold, hid, hsame⟩
    · rw [htop] at hpc
      cases hpc
    · rw [hid] at hp ⊢
      exact h.loaded j old l tests hold hp (hsame ▸ hpc)
  read j other l tests hj hp hpc hr := by
    rcases hnew j other hj with htop | ⟨old, hold, hid, hsame⟩
    · rw [htop] at hpc
      cases hpc
    · rw [hid] at hp ⊢
      exact h.read j old l tests hold hp (hsame ▸ hpc) hr
  reading j hj := by
    obtain ⟨old, l, hi, hpc⟩ := h.reading j hj
    obtain ⟨other, hother, hsame⟩ := hold j old hi
    exact ⟨other, l, hother, hsame.trans hpc⟩

/-- What was read for the calls, after an action. -/
def Reads.afterAction (reads : Reads) : Action → Reads
  | .advance i choice => reads.after i choice
  | _ => reads

/-- Any step, where an answer of the source has the property. -/
lemma Carries.step (hinv : Inv maxBytes s) (h : Carries cur reads s) {a : Action}
    (hanswer : ∀ (i l : ℕ) (caller : Caller) tests, a = .advance i (.answer (.ok tests)) →
      s.callers[i]? = some caller → caller.pc = .loading l →
      s.cache.byID.get? caller.problemID = some l → cur caller.problemID tests)
    (hs : TestCache.step a s = some s') : Carries cur (reads.afterAction a) s' := by
  cases a with
  | begin p =>
      cases hs
      refine h.callers (.begin s.callers rfl) fun j old hj => ⟨old, ?_, rfl⟩
      rw [List.getElem?_append_left (List.getElem?_eq_some_iff.mp hj).1]
      exact hj
  | cancel i deadline =>
      obtain ⟨caller, hi, rfl⟩ := Option.map_eq_some_iff.mp hs
      refine h.callers (.cancel deadline hi) ?_
      intro j old hj
      by_cases hij : i = j
      · subst hij
        obtain rfl := Option.some.inj (hi.symm.trans hj)
        have hlt := (List.getElem?_eq_some_iff.mp hi).1
        exact ⟨caller.cancel deadline, by simp [hlt], rfl⟩
      · exact ⟨old, by rw [List.getElem?_set_ne hij]; exact hj, rfl⟩
  | advance i choice =>
      obtain ⟨caller, hi, hs⟩ := Option.bind_eq_some_iff.mp hs
      obtain ⟨⟨c', pc', events⟩, hadv, rfl⟩ := Option.map_eq_some_iff.mp hs
      refine h.advance hinv hi (Caller.advance_moves hadv) fun l tests hchoice hpc hp => ?_
      exact hanswer i l caller tests (by rw [hchoice]) hi hpc hp
  | invalidate p =>
      cases hs
      exact h.invalidate p fun _ _ _ hcur => hcur
  | clear =>
      cases hs
      exact h.drop rfl fun q l hq => by simp [Cache.clear] at hq

/-! ## What the calls get -/

/-- The calls from the `n`th on have suites with the property, and have returned no others. -/
structure Serves (cur : String → List TestCase → Prop) (n : ℕ) (s : System) : Prop where
  inUse : ∀ (i : ℕ) (caller : Caller) l, n ≤ i → s.callers[i]? = some caller →
    caller.pc = .inUse l → cur caller.problemID (s.cache.entry l).tests
  returned : ∀ i tests p, n ≤ i → Event.returned i tests ∈ s.history →
    Event.began i p ∈ s.history → cur p tests

lemma at_of_mem {h : List Event} {e : Event} (he : e ∈ h) : ∃ k, At h k e :=
  List.mem_iff_getElem?.mp he

/-- Calls that have not begun have returned nothing. -/
lemma Serves.of_told (h : Told s) (cur : String → List TestCase → Prop) :
    Serves cur s.callers.length s where
  inUse i caller l hn hi _ := by
    have hlt := (List.getElem?_eq_some_iff.mp hi).1
    omega
  returned i tests p hn _ hb := by
    obtain ⟨b, hb⟩ := at_of_mem hb
    have hlt := h.numbered i b p hb
    omega

/-- The problem of a call is the one it began with. -/
lemma Told.problemID_eq (h : Told s) (hi : s.callers[i]? = some caller) {p : String}
    (hb : Event.began i p ∈ s.history) : p = caller.problemID := by
  obtain ⟨b, hb⟩ := at_of_mem hb
  obtain ⟨b', hb'⟩ := (h.traced i caller hi).began
  exact (h.honest.once i b b' p caller.problemID hb hb').2

/-- Calls come and go, and the suites stay. -/
lemma Serves.frame (h : Serves cur n s) {callers : List Caller} {e : Event}
    (hentry : c'.entry = s.cache.entry)
    (hcallers : Stay s.callers callers)
    (hreturned : ∀ i tests, e ≠ .returned i tests)
    (hbegan : ∀ i p, e = .began i p → ∀ tests, Event.returned i tests ∉ s.history) :
    Serves cur n ⟨c', callers, s.history ++ [e]⟩ where
  inUse i caller l hn hi hpc := by
    rcases hcallers i caller hi with htop | ⟨old, hold, hid, hsame⟩
    · rw [htop] at hpc
      cases hpc
    · rw [hentry, hid]
      exact h.inUse i old l hn hold (hsame ▸ hpc)
  returned i tests p hn hr hb := by
    rcases List.mem_append.mp hr with hr | hr
    · rcases List.mem_append.mp hb with hb | hb
      · exact h.returned i tests p hn hr hb
      · exact absurd hr (hbegan i p (List.mem_singleton.mp hb).symm tests)
    · exact absurd (List.mem_singleton.mp hr).symm (hreturned i tests)

lemma Serves.advance (hinv : Inv maxBytes s) (htold : Told s) (hcarries : Carries cur reads s)
    (h : Serves cur n s) (hi : s.callers[i]? = some caller)
    (hm : caller.Moves i s.cache choice c' pc' es) :
    Serves cur n ⟨c', s.callers.set i { caller with pc := pc' }, s.history ++ es⟩ where
  inUse j other l hn hj hpc := by
    have hsuites := suites_moves hinv hi hm
    rw [List.getElem?_set] at hj
    split_ifs at hj with hij
    · obtain rfl := Option.some.inj hj
      obtain ⟨hp, hready | hpc⟩ := hsuites.acquired l hpc
      · rw [hsuites.same l hready]
        exact hcarries.entries _ l hp hready
      · exact hcarries.loaded i caller l _ hi hp hpc
    · have hready := hinv.held.loaded other (List.mem_of_getElem? hj) l (by rw [hpc]; rfl)
      rw [hsuites.same l hready]
      exact h.inUse j other l hn hj hpc
  returned j tests p hn hr hb := by
    have hbegan : Event.began j p ∈ s.history := by
      rcases List.mem_append.mp hb with hb | hb
      · exact hb
      · exact absurd rfl ((moves_event hm hb).2.1 j p)
    rcases List.mem_append.mp hr with hr | hr
    · exact h.returned j tests p hn hr hbegan
    · obtain ⟨rfl, l, hpc, rfl⟩ := moves_returned hm hr
      rw [htold.problemID_eq hi hbegan]
      exact h.inUse j caller l hn hi hpc

/-- What a call has returned it has returned after it began. -/
lemma Told.not_returned (h : Told s) (tests : List TestCase) :
    Event.returned s.callers.length tests ∉ s.history := by
  intro hr
  obtain ⟨k, hk⟩ := at_of_mem hr
  obtain ⟨p, b, l, m, m', hb, -⟩ := h.honest.returned k _ tests hk
  have hb' := hb.append (s.history.drop k)
  rw [List.take_append_drop] at hb'
  exact lt_irrefl _ (h.numbered _ b p hb')

lemma Serves.step (hinv : Inv maxBytes s) (htold : Told s) (hcarries : Carries cur reads s)
    (h : Serves cur n s) {a : Action} (hs : TestCache.step a s = some s') : Serves cur n s' := by
  cases a with
  | begin p =>
      cases hs
      refine h.frame rfl (.begin s.callers rfl) (by simp) ?_
      intro i q he tests
      cases he
      exact htold.not_returned tests
  | cancel i deadline =>
      obtain ⟨caller, hi, rfl⟩ := Option.map_eq_some_iff.mp hs
      exact h.frame rfl (.cancel deadline hi) (by simp) (by simp)
  | advance i choice =>
      obtain ⟨caller, hi, hs⟩ := Option.bind_eq_some_iff.mp hs
      obtain ⟨⟨c', pc', events⟩, hadv, rfl⟩ := Option.map_eq_some_iff.mp hs
      exact h.advance hinv htold hcarries hi (Caller.advance_moves hadv)
  | invalidate p =>
      cases hs
      exact h.frame (invalidate_frame p s.cache).1 (.refl s.callers) (by simp) (by simp)
  | clear =>
      cases hs
      exact h.frame rfl (.refl s.callers) (by simp) (by simp)

end TestCache

end Labyrithm
