import Labyrithm.Go.Callers
import Labyrithm.TestCache.Books

/-!
# The entries of the test cache and the calls that hold them

`Held` ties the cache to the calls: an entry has as many users as there are calls that hold it, and one
loader as long as its channel is there.  `Section` is what one step of one call changes in this, and
each section under the mutex is shown to be one.

* `Held.section` — the accounts follow a step of one call.
* `Sound.lookUp`, `Sound.finish` — the sections of `acquire` keep the cache sound.
* **`inv_reachable`** — both hold in every interleaving.
-/

namespace Labyrithm

namespace TestCache

open Go

variable {c : Cache} {p : String} {ptr l : ℕ}

/-! ## The calls -/

/-- The entry a call is to load. -/
def PC.loads : PC → Option ℕ
  | starting ptr | loading ptr | loaded ptr _ => some ptr
  | _ => none

/-- The entry a call is counted in. -/
def PC.uses : PC → Option ℕ
  | inUse ptr | holding ptr => some ptr
  | _ => none

/-- 1 at one pointer, 0 elsewhere. -/
def at1 (o : Option ℕ) (l : ℕ) : ℕ := if o = some l then 1 else 0

@[simp] lemma at1_none (l : ℕ) : at1 none l = 0 := rfl

lemma at1_some (ptr l : ℕ) : at1 (some ptr) l = if l = ptr then 1 else 0 := by
  simp [at1, eq_comm]

@[simp] lemma at1_self (ptr : ℕ) : at1 (some ptr) ptr = 1 := by simp [at1]

/-- 1 for an entry that is still to be loaded. -/
def Cache.pending (c : Cache) (l : ℕ) : ℕ := if l < c.next ∧ (c.entry l).ready then 1 else 0

/-- The entries and the calls that hold them. -/
structure Held (c : Cache) (callers : List Caller) : Prop where
  users : ∀ l, (c.entry l).users = (Go.total (fun caller => at1 caller.pc.uses l) callers : ℕ)
  loaders : ∀ l, Go.total (fun caller => at1 caller.pc.loads l) callers = c.pending l
  fresh : ∀ l, c.next ≤ l → c.entry l = .fresh
  mine : ∀ caller ∈ callers, ∀ l, caller.pc.loads = some l →
    ∀ q, c.byID.get? q = some l → q = caller.problemID
  loaded : ∀ caller ∈ callers, ∀ l, caller.pc.uses = some l → (c.entry l).ready = false

section Held

variable {callers : List Caller} {i : ℕ} {caller : Caller}

/-- What a call loads is pending. -/
lemma Held.pending_of_loads (h : Held c callers) (hi : callers[i]? = some caller)
    (hl : caller.pc.loads = some l) : l < c.next ∧ (c.entry l).ready = true := by
  have hle := le_total (g := fun caller : Caller => at1 caller.pc.loads l) hi
  rw [h.loaders l] at hle
  simp only [hl, at1_self, Cache.pending] at hle
  by_contra hn
  simp [hn] at hle

/-- An entry has one loader at most. -/
lemma Held.loader_unique (h : Held c callers) {j : ℕ} {other : Caller}
    (hi : callers[i]? = some caller) (hj : callers[j]? = some other)
    (hl : caller.pc.loads = some l) (hl' : other.pc.loads = some l) : i = j := by
  by_contra hne
  have hle := add_le_total (g := fun caller : Caller => at1 caller.pc.loads l) hne hi hj
  rw [h.loaders l] at hle
  simp only [hl, hl', at1_self, Cache.pending] at hle
  split_ifs at hle
  all_goals omega

/-- What a call uses has been made. -/
lemma Held.used_lt (h : Held c callers) (hi : callers[i]? = some caller)
    (hl : caller.pc.uses = some l) : l < c.next := by
  have hle := le_total (g := fun caller : Caller => at1 caller.pc.uses l) hi
  have husers := h.users l
  by_contra hn
  rw [h.fresh l (not_lt.mp hn)] at husers
  simp only [hl, at1_self] at hle
  simp only [CachedTests.fresh] at husers
  omega

end Held

/-! ## What a section does to its entries -/

/-- What one step of a call changes in the entries, from `pc` and `c` to `pc'` and `c'`. -/
structure Section (problemID : String) (pc : PC) (c c' : Cache) (pc' : PC) : Prop where
  limit : c'.maxBytes = c.maxBytes
  users : ∀ l, (c'.entry l).users + at1 pc.uses l = (c.entry l).users + at1 pc'.uses l
  loaders : ∀ l, c'.pending l + at1 pc.loads l = c.pending l + at1 pc'.loads l
  fresh : ∀ l, c'.next ≤ l → c'.entry l = .fresh
  map : ∀ q l, c'.byID.get? q = some l → c.byID.get? q = some l ∨ c.next ≤ l ∧ q = problemID
  starts : ∀ l, pc'.loads = some l → pc.loads = some l ∨ c.next ≤ l
  uses : ∀ l, pc'.uses = some l → (c'.entry l).ready = false
  ready : ∀ l, (c.entry l).ready = false → (c'.entry l).ready = false

/-- The accounts of entries and calls follow a step of one call. -/
lemma Held.section {callers : List Caller} {i : ℕ} {caller : Caller} {c' : Cache} {pc' : PC}
    (hb : Books c) (h : Held c callers) (hi : callers[i]? = some caller)
    (hs : Section caller.problemID caller.pc c c' pc') :
    Held c' (callers.set i { caller with pc := pc' }) where
  users l := by
    have htotal := total_set (f := fun caller : Caller => at1 caller.pc.uses l) hi
      { caller with pc := pc' }
    have hold := h.users l
    have hstep := hs.users l
    simp only at htotal
    omega
  loaders l := by
    have htotal := total_set (f := fun caller : Caller => at1 caller.pc.loads l) hi
      { caller with pc := pc' }
    have hold := h.loaders l
    have hstep := hs.loaders l
    simp only at htotal
    omega
  fresh := hs.fresh
  mine other hother l hl q hq := by
    rcases List.mem_or_eq_of_mem_set hother with hmem | rfl
    · -- another call: what it loads is not what this step has made
      obtain ⟨j, hj⟩ := List.mem_iff_getElem?.mp hmem
      rcases hs.map q l hq with hold | ⟨hnew, -⟩
      · exact h.mine other hmem l hl q hold
      · exact absurd (h.pending_of_loads hj hl).1 (not_lt.mpr hnew)
    · rcases hs.map q l hq with hold | ⟨-, hq⟩
      · rcases hs.starts l hl with hl | hnew
        · exact h.mine caller (List.mem_of_getElem? hi) l hl q hold
        · exact absurd (hb.bound q l hold) (not_lt.mpr hnew)
      · exact hq
  loaded other hother l hl := by
    rcases List.mem_or_eq_of_mem_set hother with hmem | rfl
    · exact hs.ready l (h.loaded other hmem l hl)
    · exact hs.uses l hl

/-- A step that touches neither the cache nor what the call holds. -/
lemma Held.quiet {callers : List Caller} {i : ℕ} {caller : Caller} {pc' : PC} (h : Held c callers)
    (hi : callers[i]? = some caller) (huses : pc'.uses = caller.pc.uses)
    (hloads : pc'.loads = caller.pc.loads) : Section caller.problemID caller.pc c c pc' where
  limit := rfl
  users l := by rw [huses]
  loaders l := by rw [hloads]
  fresh := h.fresh
  map _ _ hq := .inl hq
  starts l hl := .inl (hloads ▸ hl)
  uses l hl := h.loaded caller (List.mem_of_getElem? hi) l (huses ▸ hl)
  ready _ hl := hl

/-- A section under the mutex that leaves the map as it was, or smaller, and hands out no pointer. -/
lemma section_of_update {pc pc' : PC} {c' : Cache} {e : CachedTests}
    (hfresh : ∀ m, c.next ≤ m → c.entry m = .fresh) (hptr : ptr < c.next)
    (hentry : c'.entry = Function.update c.entry ptr e) (hnext : c'.next = c.next)
    (hlimit : c'.maxBytes = c.maxBytes) (hmap : ∀ q l, c'.byID.get? q = some l → c.byID.get? q = some l)
    (husers : e.users + at1 pc.uses ptr = (c.entry ptr).users + at1 pc'.uses ptr)
    (huses : ∀ m, m ≠ ptr → at1 pc'.uses m = at1 pc.uses m)
    (hready : e.ready = false) (hloads : at1 pc.loads ptr = if (c.entry ptr).ready then 1 else 0)
    (hloads' : ∀ m, m ≠ ptr → at1 pc.loads m = 0) (hdone : pc'.loads = none)
    (huse : ∀ m, pc'.uses = some m → m = ptr) : Section p pc c c' pc' where
  limit := hlimit
  users m := by
    rw [hentry, Function.update_apply]
    split_ifs with hm
    · rw [hm]
      exact husers
    · rw [huses m hm]
  loaders m := by
    simp only [Cache.pending, hentry, hnext, Function.update_apply, hdone, at1_none]
    by_cases hm : m = ptr
    · simp [hm, hready, hptr, hloads]
    · simp [hm, hloads' m hm]
  fresh m hm := by
    rw [hnext] at hm
    rw [hentry, Function.update_of_ne (by omega)]
    exact hfresh m hm
  map q m hq := .inl (hmap q m hq)
  starts m hm := by simp [hdone] at hm
  uses m hm := by
    rw [huse m hm, hentry, Function.update_self, hready]
  ready m hm := by
    rw [hentry, Function.update_apply]
    split_ifs
    · exact hready
    · exact hm

/-! ## The three sections of a call -/

lemma Books.evicts (hb : Books c) (hr : Ranks c) :
    c.evict.entry = c.entry ∧ c.evict.next = c.next ∧ c.evict.maxBytes = c.maxBytes ∧
      ∀ q l, c.evict.byID.get? q = some l → c.byID.get? q = some l :=
  have h := evict_evicted hb hr
  ⟨h.entry, h.next, h.maxBytes, h.kept⟩

lemma use_section (h : Sound c) (hfresh : ∀ m, c.next ≤ m → c.entry m = .fresh)
    (hptr : ptr < c.next) (hready : (c.entry ptr).ready = false) :
    Section p .locking c (c.use ptr) (.inUse ptr) := by
  obtain ⟨hentry, hnext, hlimit, hmap⟩ :=
    (h.toBooks.touch ptr).evicts (h.toRanks.touch rfl rfl fun _ _ => rfl)
  refine section_of_update hfresh hptr hentry hnext hlimit hmap ?_ ?_ hready ?_ ?_ rfl ?_
  · simp [PC.uses]
  · intro m hm
    simp [PC.uses, at1_some, hm]
  · simp [PC.loads, hready]
  · simp [PC.loads]
  · simp [PC.uses, eq_comm]

lemma release_section (h : Sound c) (hfresh : ∀ m, c.next ≤ m → c.entry m = .fresh)
    (hptr : ptr < c.next) (hready : (c.entry ptr).ready = false) :
    Section p (.holding ptr) c (c.release ptr) .released := by
  obtain ⟨hentry, hnext, hlimit, hmap⟩ :=
    (h.toBooks.set ptr (e := { c.entry ptr with users := (c.entry ptr).users - 1 }) rfl rfl id).evicts
      (h.toRanks.set ptr rfl rfl)
  refine section_of_update hfresh hptr hentry hnext hlimit hmap ?_ ?_ hready ?_ ?_ rfl ?_
  · simp [PC.uses]
  · intro m hm
    simp [PC.uses, at1_some, hm]
  · simp [PC.loads, hready]
  · simp [PC.loads]
  · simp [PC.uses]

/-- The entry, the pointer that comes next and the map, when an entry's time may be up. -/
lemma expire_frame (p : String) (now : ℤ) (c : Cache) :
    (c.expire p now).entry = c.entry ∧ (c.expire p now).next = c.next ∧
      (c.expire p now).maxBytes = c.maxBytes ∧
      ∀ q l, (c.expire p now).byID.get? q = some l → c.byID.get? q = some l := by
  unfold Cache.expire
  split
  · exact ⟨rfl, rfl, rfl, fun _ _ hq => hq⟩
  · split_ifs
    · exact ⟨rfl, rfl, rfl, fun _ _ hq => (Map.get?_erase_eq_some.mp hq).2⟩
    · exact ⟨rfl, rfl, rfl, fun _ _ hq => hq⟩

lemma Section.of_expire {pc pc' : PC} {c' : Cache} (now : ℤ)
    (h : Section p pc (c.expire p now) c' pc') : Section p pc c c' pc' := by
  obtain ⟨hentry, hnext, hlimit, hmap⟩ := expire_frame p now c
  refine ⟨h.limit.trans hlimit, ?_, ?_, h.fresh, ?_, ?_, h.uses, ?_⟩
  · rw [← hentry]
    exact h.users
  · have := h.loaders
    simpa only [Cache.pending, hentry, hnext] using this
  · intro q l hq
    rw [← hnext]
    exact (h.map q l hq).imp (hmap q l) id
  · rw [← hnext]
    exact h.starts
  · rw [← hentry]
    exact h.ready

lemma create_entry (hnext : c.entry c.next = .fresh) : (c.create p).entry = c.entry := by
  simp only [Cache.create, set_entry, ← hnext, Function.update_eq_self]

lemma create_section (hfresh : ∀ m, c.next ≤ m → c.entry m = .fresh) :
    Section p .locking c (c.create p) (.starting c.next) where
  limit := rfl
  users l := by
    rw [create_entry (hfresh _ le_rfl)]
    simp [PC.uses]
  loaders l := by
    have hnew : (c.entry c.next).ready = true := by rw [hfresh _ le_rfl]; rfl
    simp only [Cache.pending, create_entry (hfresh _ le_rfl), PC.loads, at1_none, at1_some]
    simp only [Cache.create]
    rcases Nat.lt_trichotomy l c.next with hl | rfl | hl
    · have hne : l ≠ c.next := hl.ne
      simp [hl, hne, Nat.lt_succ_of_lt hl]
    · simp [hnew]
    · have hne : l ≠ c.next := hl.ne'
      have hnot : ¬ l < c.next + 1 := by omega
      simp [hne, hnot, hl.not_gt]
  fresh l hl := by
    rw [create_entry (hfresh _ le_rfl)]
    exact hfresh l ((Nat.le_succ _).trans hl)
  map q l hq := by
    rcases Map.get?_insert_eq_some.mp hq with ⟨rfl, rfl⟩ | ⟨-, hq⟩
    · exact .inr ⟨le_rfl, rfl⟩
    · exact .inl hq
  starts l hl := .inr (by simp only [PC.loads, Option.some.injEq] at hl; omega)
  uses l hl := by simp [PC.uses] at hl
  ready l hl := by rwa [create_entry (hfresh _ le_rfl)]

/-- The first section of `acquire` keeps the cache sound, whatever it finds. -/
lemma Sound.lookUp (h : Sound c) (hfresh : ∀ m, c.next ≤ m → c.entry m = .fresh) (p : String)
    (now : ℤ) : Sound (c.lookUp p now).1 := by
  have hx := h.expire p now
  obtain ⟨hentry, hnext, -, -⟩ := expire_frame p now c
  cases hp : (c.expire p now).byID.get? p with
  | none =>
      simp only [Cache.lookUp, hp]
      refine hx.create hp ?_
      rw [hentry, hnext]
      exact hfresh _ le_rfl
  | some l =>
      simp only [Cache.lookUp, hp]
      split_ifs
      · exact hx
      · exact hx.use l

lemma lookUp_section (h : Sound c) (hfresh : ∀ m, c.next ≤ m → c.entry m = .fresh) (p : String)
    (now : ℤ) : Section p .locking c (c.lookUp p now).1 (c.lookUp p now).2 := by
  have hx := h.expire p now
  obtain ⟨hentry, hnext, -, -⟩ := expire_frame p now c
  have hfresh' : ∀ m, (c.expire p now).next ≤ m → (c.expire p now).entry m = .fresh := by
    rw [hentry, hnext]
    exact hfresh
  apply Section.of_expire now
  cases hl : (c.expire p now).byID.get? p with
  | none =>
      simp only [Cache.lookUp, hl]
      exact create_section hfresh'
  | some l =>
      simp only [Cache.lookUp, hl]
      split_ifs with hready
      · exact ⟨rfl, fun _ => rfl, fun _ => rfl, hfresh', fun _ _ hq => .inl hq, by simp [PC.loads],
          by simp [PC.uses], fun _ hm => hm⟩
      · exact use_section hx hfresh' (hx.bound _ _ hl) (by simpa using hready)

/-- The second section, on an entry that is to be loaded and is in the map under this problem only. -/
lemma Sound.finish (h : Sound c) (hload : (c.entry ptr).ready = true)
    (hmine : ∀ q, c.byID.get? q = some ptr → q = p) (result : Except Err (List TestCase))
    (now : ℤ) : Sound (c.finish p ptr result now).1 := by
  unfold Cache.finish
  split_ifs with hp
  · refine h.set_absent (fun q hq => hp ?_) rfl rfl fun _ => hload
    rwa [← hmine q hq]
  · have hp : c.byID.get? p = some ptr := not_not.mp hp
    cases result with
    | error err =>
        have hzero := h.unloaded ptr hload
        have hw := h.without hp
        have habsent (q : String) : (c.without p ptr).byID.get? q ≠ some ptr := fun hq =>
          (Map.get?_erase_eq_some.mp hq).1 (hmine q (Map.get?_erase_eq_some.mp hq).2)
        have := hw.set_absent (e := { c.entry ptr with ready := false, err := some err }) habsent rfl
          rfl fun _ => hload
        simpa [Cache.without, Cache.set, hzero] using this
    | ok tests =>
        refine evict_sound ((h.toBooks.publish hp hload tests now).touch ptr) ?_
        exact h.toRanks.touch rfl rfl fun m hm => by simp [Cache.publish, hm]

lemma finish_section (h : Sound c) (hfresh : ∀ m, c.next ≤ m → c.entry m = .fresh)
    (hptr : ptr < c.next) (hload : (c.entry ptr).ready = true)
    (result : Except Err (List TestCase)) (now : ℤ) :
    Section p (.loaded ptr result) c (c.finish p ptr result now).1
      (c.finish p ptr result now).2 := by
  have hloads : at1 (PC.loaded ptr result).loads ptr = if (c.entry ptr).ready then 1 else 0 := by
    simp [PC.loads, hload]
  have hloads' : ∀ m, m ≠ ptr → at1 (PC.loaded ptr result).loads m = 0 := by
    intro m hm
    simp [PC.loads, at1_some, hm]
  unfold Cache.finish
  split_ifs with hp
  · exact section_of_update hfresh hptr rfl rfl rfl (fun _ _ hq => hq) rfl (fun _ _ => rfl) rfl hloads
      hloads' rfl (by simp [PC.uses])
  · cases result with
    | error err =>
        refine section_of_update hfresh hptr rfl rfl rfl (fun q l hq => ?_) rfl (fun _ _ => rfl) rfl
          hloads hloads' rfl (by simp [PC.uses])
        exact (Map.get?_erase_eq_some.mp hq).2
    | ok tests =>
        have hp : c.byID.get? p = some ptr := not_not.mp hp
        obtain ⟨hentry, hnext, hlimit, hmap⟩ :=
          ((h.toBooks.publish hp hload tests now).touch ptr).evicts
            (h.toRanks.touch rfl rfl fun m hm => by simp [Cache.publish, hm])
        have hentry' := hentry.trans (Function.update_idem ..)
        refine section_of_update hfresh hptr hentry' hnext hlimit hmap ?_ ?_ ?_ hloads hloads' rfl ?_
        · simp [Cache.publish, PC.uses]
        · intro m hm
          simp [PC.uses, at1_some, hm]
        · simp [Cache.publish]
        · simp [PC.uses, eq_comm]

/-! ## Every run -/

/-- What holds between any two sections. -/
structure Inv (maxBytes : ℤ) (s : System) : Prop where
  sound : Sound s.cache
  held : Held s.cache s.callers
  limit : s.cache.maxBytes = maxBytes

lemma inv_new (maxBytes : ℤ) : Inv maxBytes (System.new maxBytes) where
  sound :=
    { bound := by simp [System.new, newTestCache]
      inj := by simp [System.new, newTestCache]
      total := rfl
      size := fun _ => rfl
      unloaded := fun _ _ => rfl
      past := by simp [System.new, newTestCache]
      distinct := by simp [System.new, newTestCache]
      tidy := fun _ q m hq => by simp [System.new, newTestCache] at hq }
  held :=
    { users := fun _ => rfl
      loaders := fun _ => by simp [System.new, newTestCache, Cache.pending]
      fresh := fun _ _ => rfl
      mine := by simp [System.new]
      loaded := by simp [System.new] }
  limit := rfl

/-- Every step of a call keeps the cache sound and the accounts between it and the calls. -/
lemma Inv.advance {maxBytes : ℤ} {s : System} (h : Inv maxBytes s) {i : ℕ} {caller : Caller}
    {choice : Choice} {c' : Cache} {pc' : PC} {events : List Event} (hi : s.callers[i]? = some caller)
    (hm : caller.Moves i s.cache choice c' pc' events) :
    Sound c' ∧ Section caller.problemID caller.pc s.cache c' pc' := by
  have hquiet {pc' : PC} (huses : pc'.uses = caller.pc.uses) (hloads : pc'.loads = caller.pc.loads) :
      Sound s.cache ∧ Section caller.problemID caller.pc s.cache s.cache pc' :=
    ⟨h.sound, h.held.quiet hi huses hloads⟩
  cases hm with
  | refused hpc | alive hpc | abandoned hpc | again hpc | shared hpc | started hpc | answered hpc
    | returned hpc => exact hquiet (by rw [hpc]; rfl) (by rw [hpc]; rfl)
  | lookUp now hpc =>
      rw [hpc]
      exact ⟨h.sound.lookUp h.held.fresh _ now, lookUp_section h.sound h.held.fresh _ now⟩
  | @finish ptr result now hpc =>
      have hl : caller.pc.loads = some ptr := by rw [hpc]; rfl
      obtain ⟨hptr, hload⟩ := h.held.pending_of_loads hi hl
      have hmine := h.held.mine caller (List.mem_of_getElem? hi) ptr hl
      rw [hpc]
      exact ⟨h.sound.finish hload hmine result now,
        finish_section h.sound h.held.fresh hptr hload result now⟩
  | @released now ptr hpc =>
      have hl : caller.pc.uses = some ptr := by rw [hpc]; rfl
      rw [hpc]
      exact ⟨h.sound.release ptr,
        release_section h.sound h.held.fresh (h.held.used_lt hi hl)
          (h.held.loaded caller (List.mem_of_getElem? hi) ptr hl)⟩

/-- A map that lost entries still holds them under the right problem. -/
lemma Held.shrink {c' : Cache} {callers : List Caller} (h : Held c callers)
    (hentry : c'.entry = c.entry) (hnext : c'.next = c.next)
    (hmap : ∀ q l, c'.byID.get? q = some l → c.byID.get? q = some l) : Held c' callers where
  users := by rw [hentry]; exact h.users
  loaders := by simpa only [Cache.pending, hentry, hnext] using h.loaders
  fresh := by rw [hentry, hnext]; exact h.fresh
  mine caller hc l hl q hq := h.mine caller hc l hl q (hmap q l hq)
  loaded := by rw [hentry]; exact h.loaded

lemma invalidate_frame (p : String) (c : Cache) :
    (c.invalidate p).entry = c.entry ∧ (c.invalidate p).next = c.next ∧
      (c.invalidate p).maxBytes = c.maxBytes ∧
      ∀ q l, (c.invalidate p).byID.get? q = some l ↔ q ≠ p ∧ c.byID.get? q = some l := by
  unfold Cache.invalidate
  split
  · next hnone =>
    refine ⟨rfl, rfl, rfl, fun q l => ⟨fun hq => ⟨?_, hq⟩, fun hq => hq.2⟩⟩
    rintro rfl
    simp [hnone] at hq
  · exact ⟨rfl, rfl, rfl, fun q l => Map.get?_erase_eq_some⟩

/-- A call that begins holds nothing. -/
lemma Held.begin {callers : List Caller} (h : Held c callers) (p : String) :
    Held c (callers ++ [⟨p, none, .top⟩]) where
  users := by simpa [PC.uses] using h.users
  loaders := by simpa [PC.loads] using h.loaders
  fresh := h.fresh
  mine caller hc := by
    rcases List.mem_append.mp hc with hc | hc
    · exact h.mine caller hc
    · simp [List.mem_singleton.mp hc, PC.loads]
  loaded caller hc := by
    rcases List.mem_append.mp hc with hc | hc
    · exact h.loaded caller hc
    · simp [List.mem_singleton.mp hc, PC.uses]

/-- A context that ends takes nothing from its call. -/
lemma Held.cancel {callers : List Caller} {i : ℕ} {caller : Caller} (h : Held c callers)
    (hi : callers[i]? = some caller) (deadline : Bool) :
    Held c (callers.set i (caller.cancel deadline)) where
  users l := by
    rw [total_set_same hi (by rfl)]
    exact h.users l
  loaders l := by
    rw [total_set_same hi (by rfl)]
    exact h.loaders l
  fresh := h.fresh
  mine other ho := by
    rcases List.mem_or_eq_of_mem_set ho with ho | rfl
    · exact h.mine other ho
    · exact h.mine caller (List.mem_of_getElem? hi)
  loaded other ho := by
    rcases List.mem_or_eq_of_mem_set ho with ho | rfl
    · exact h.loaded other ho
    · exact h.loaded caller (List.mem_of_getElem? hi)

/-- Every step keeps what the mutex protects. -/
lemma inv_step {maxBytes : ℤ} (a : Action) (s s' : System) (h : Inv maxBytes s)
    (hs : step a s = some s') : Inv maxBytes s' := by
  cases a with
  | begin p =>
      cases hs
      exact ⟨h.sound, h.held.begin p, h.limit⟩
  | cancel i deadline =>
      obtain ⟨caller, hi, rfl⟩ := Option.map_eq_some_iff.mp hs
      exact ⟨h.sound, h.held.cancel hi deadline, h.limit⟩
  | advance i choice =>
      obtain ⟨caller, hi, hs⟩ := Option.bind_eq_some_iff.mp hs
      obtain ⟨⟨c', pc', events⟩, hadv, rfl⟩ := Option.map_eq_some_iff.mp hs
      obtain ⟨hsound, hsection⟩ := h.advance hi (Caller.advance_moves hadv)
      exact ⟨hsound, h.held.section h.sound.toBooks hi hsection, hsection.limit.trans h.limit⟩
  | invalidate p =>
      cases hs
      obtain ⟨hentry, hnext, hmax, hmap⟩ := invalidate_frame p s.cache
      exact ⟨h.sound.invalidate p, h.held.shrink hentry hnext fun q l hq => ((hmap q l).mp hq).2,
        hmax.trans h.limit⟩
  | clear =>
      cases hs
      refine ⟨h.sound.clear, h.held.shrink rfl rfl fun q l hq => ?_, h.limit⟩
      simp [Cache.clear] at hq

theorem inv_reachable {maxBytes : ℤ} {s : System} (h : Reachable maxBytes s) : Inv maxBytes s :=
  Reach.invariant (inv_new maxBytes) inv_step h

end TestCache

end Labyrithm
