import Mathlib.Algebra.Order.Ring.Int
import Mathlib.Data.List.Induction
import Labyrithm.TestCache.Sections

/-!
# What the mutex of the test cache protects

`Sound` is about the cache alone: the total is the sum over the resident entries (`Books`), loaded
entries are ranked by their last use (`Ranks`), and a cache beyond its limit holds no idle entry
(`Tidy`).  Every section that evicts ends sound, whatever it did to one entry before.

* `oldest_unique` — what is evicted does not depend on the order of the map.
* `evict_sound` — eviction ends, with nothing more to evict or within the limit.
* `evict_evicted` — it takes idle entries only, the least recently used first.
-/

namespace Labyrithm

namespace TestCache

open Go

/-! ## What the mutex protects -/

/-- The recorded total is the sum over the map. -/
structure Books (c : Cache) : Prop where
  bound : ∀ p l, c.byID.get? p = some l → l < c.next
  inj : ∀ p q l, c.byID.get? p = some l → c.byID.get? q = some l → p = q
  total : c.bytes = c.byID.sum fun _ l => (c.entry l).bytes
  size : ∀ l, (c.entry l).bytes = suiteBytes (c.entry l).tests
  unloaded : ∀ l, (c.entry l).ready → (c.entry l).bytes = 0

/-- Loaded entries were last used at different ticks, none of them to come. -/
structure Ranks (c : Cache) : Prop where
  past : ∀ p l, c.byID.get? p = some l → (c.entry l).ready = false → (c.entry l).lastUsed ≤ c.clock
  distinct : ∀ p q l m, c.byID.get? p = some l → c.byID.get? q = some m →
    (c.entry l).ready = false → (c.entry m).ready = false →
    (c.entry l).lastUsed = (c.entry m).lastUsed → l = m

/-- Nothing idle is kept beyond the limit. -/
def Tidy (c : Cache) : Prop :=
  c.maxBytes < c.bytes → ∀ p l, c.byID.get? p = some l → (c.entry l).idle = false

structure Sound (c : Cache) : Prop extends Books c, Ranks c where
  tidy : Tidy c

variable {c : Cache} {p : String} {ptr l : ℕ}

@[simp] lemma idle_iff {e : CachedTests} : e.idle = true ↔ e.ready = false ∧ e.users = 0 := by
  simp [CachedTests.idle]

lemma suiteBytes_nonneg (tests : List TestCase) : 0 ≤ suiteBytes tests := by
  unfold suiteBytes
  induction tests with
  | nil => simp
  | cons test tests ih =>
      simp only [List.map_cons, List.sum_cons]
      omega

lemma Books.nonneg (h : Books c) (l : ℕ) : 0 ≤ (c.entry l).bytes := by
  rw [h.size]
  exact suiteBytes_nonneg _

/-! ## One entry leaves -/

/-- The cache without the entry of a problem. -/
def Cache.without (p : String) (l : ℕ) (c : Cache) : Cache :=
  { c with bytes := c.bytes - (c.entry l).bytes, byID := c.byID.erase p }

lemma Books.without (h : Books c) (hp : c.byID.get? p = some l) : Books (c.without p l) where
  bound q m hq := h.bound q m (Map.get?_erase_eq_some.mp hq).2
  inj q r m hq hr :=
    h.inj q r m (Map.get?_erase_eq_some.mp hq).2 (Map.get?_erase_eq_some.mp hr).2
  total := by
    have := Map.sum_erase (f := fun _ m => (c.entry m).bytes) hp
    simp only [Cache.without, h.total, this]
    omega
  size := h.size
  unloaded := h.unloaded

lemma Ranks.without (h : Ranks c) (p : String) (l : ℕ) : Ranks (c.without p l) where
  past q m hq := h.past q m (Map.get?_erase_eq_some.mp hq).2
  distinct q r m n hq hr :=
    h.distinct q r m n (Map.get?_erase_eq_some.mp hq).2 (Map.get?_erase_eq_some.mp hr).2

lemma Sound.without (h : Sound c) (hp : c.byID.get? p = some l) : Sound (c.without p l) where
  toBooks := h.toBooks.without hp
  toRanks := h.toRanks.without p l
  tidy hover q m hq := by
    have hsize := h.nonneg l
    have hover : c.maxBytes < c.bytes - (c.entry l).bytes := hover
    exact h.tidy (by omega) q m (Map.get?_erase_eq_some.mp hq).2

lemma Sound.invalidate (h : Sound c) (p : String) : Sound (c.invalidate p) := by
  unfold Cache.invalidate
  split
  · exact h
  · next l hl => exact h.without hl

lemma Sound.expire (h : Sound c) (p : String) (now : ℤ) : Sound (c.expire p now) := by
  unfold Cache.expire
  split
  · exact h
  · next l hl =>
    split_ifs
    · exact h.without hl
    · exact h

lemma Sound.clear (h : Sound c) : Sound c.clear where
  bound q m hq := by simp [Cache.clear] at hq
  inj q r m hq := by simp [Cache.clear] at hq
  total := rfl
  size := h.size
  unloaded := h.unloaded
  past q m hq := by simp [Cache.clear] at hq
  distinct q r m n hq := by simp [Cache.clear] at hq
  tidy _ q m hq := by simp [Cache.clear] at hq

/-! ## Eviction -/

/-- The search: no idle entry among those it has met, or the least recently used of them. -/
lemma foldl_older (c : Cache) (es : List (Sigma fun _ : String => ℕ)) :
    match es.foldl c.older none with
    | none => ∀ e ∈ es, (c.entry e.2).idle = false
    | some o => o ∈ es ∧ (c.entry o.2).idle ∧
        ∀ e ∈ es, (c.entry e.2).idle → (c.entry o.2).lastUsed ≤ (c.entry e.2).lastUsed := by
  induction es using List.reverseRecOn with
  | nil => simp
  | append_singleton es e ih =>
      rw [List.foldl_concat]
      cases hf : es.foldl c.older none with
      | none =>
          rw [hf] at ih
          by_cases he : (c.entry e.2).idle <;> simp only [Cache.older, he] <;> grind
      | some o =>
          rw [hf] at ih
          by_cases he : (c.entry e.2).idle
          · by_cases hlt : (c.entry e.2).lastUsed < (c.entry o.2).lastUsed <;>
              simp only [Cache.older, he, hlt] <;> grind
          · simp only [Cache.older, he]
            grind

lemma oldest_eq_none (h : c.oldest = none) (hp : c.byID.get? p = some l) :
    (c.entry l).idle = false := by
  have := foldl_older c c.byID.entries
  rw [← Cache.oldest, h] at this
  exact this ⟨p, l⟩ (Map.mem_entries.mpr hp)

lemma oldest_eq_some {o : Sigma fun _ : String => ℕ} (h : c.oldest = some o) :
    c.byID.get? o.1 = some o.2 ∧ (c.entry o.2).idle ∧
      ∀ q m, c.byID.get? q = some m → (c.entry m).idle →
        (c.entry o.2).lastUsed ≤ (c.entry m).lastUsed := by
  have := foldl_older c c.byID.entries
  rw [← Cache.oldest, h] at this
  exact ⟨Map.mem_entries.mp this.1, this.2.1,
    fun q m hq => this.2.2 ⟨q, m⟩ (Map.mem_entries.mpr hq)⟩

/-- What is evicted does not depend on the order in which the search meets the entries. -/
lemma oldest_unique (h : Ranks c) {o : Sigma fun _ : String => ℕ} (ho : c.oldest = some o)
    (hp : c.byID.get? p = some l) (hl : (c.entry l).idle)
    (hle : ∀ q m, c.byID.get? q = some m → (c.entry m).idle →
      (c.entry l).lastUsed ≤ (c.entry m).lastUsed) : l = o.2 := by
  obtain ⟨hres, hidle, hleast⟩ := oldest_eq_some ho
  exact h.distinct _ _ _ _ hp hres (idle_iff.mp hl).1 (idle_iff.mp hidle).1
    (Nat.le_antisymm (hle _ _ hres hidle) (hleast _ _ hp hl))

lemma evictRounds_succ (n : ℕ) (c : Cache) :
    c.evictRounds (n + 1) =
      if c.bytes > c.maxBytes then
        match c.oldest with
        | none => c
        | some o => (c.without o.1 o.2).evictRounds n
      else c := rfl

/-- What eviction leaves, from `c` to `c'`. -/
structure Evicted (c c' : Cache) : Prop where
  entry : c'.entry = c.entry
  next : c'.next = c.next
  clock : c'.clock = c.clock
  maxBytes : c'.maxBytes = c.maxBytes
  kept : ∀ q m, c'.byID.get? q = some m → c.byID.get? q = some m
  /-- whatever is gone was idle, beyond the limit, and used before any idle entry that stays -/
  gone : ∀ q m, c.byID.get? q = some m → c'.byID.get? q ≠ some m →
    (c.entry m).idle ∧ c.maxBytes < c.bytes ∧
      ∀ r n, c'.byID.get? r = some n → (c.entry n).idle →
        (c.entry m).lastUsed < (c.entry n).lastUsed

lemma Evicted.refl (c : Cache) : Evicted c c :=
  ⟨rfl, rfl, rfl, rfl, fun _ _ h => h, fun _ _ h hn => absurd h hn⟩

/-- One round before the others. -/
lemma Evicted.round {c' : Cache} {o : Sigma fun _ : String => ℕ} (hb : Books c) (hr : Ranks c)
    (hover : c.bytes > c.maxBytes) (ho : c.oldest = some o)
    (h : Evicted (c.without o.1 o.2) c') : Evicted c c' where
  entry := h.entry
  next := h.next
  clock := h.clock
  maxBytes := h.maxBytes
  kept q m hq := (Map.get?_erase_eq_some.mp (h.kept q m hq)).2
  gone q m hq hgone := by
    obtain ⟨hres, hidle, hleast⟩ := oldest_eq_some ho
    by_cases hqo : q = o.1
    · -- the victim of this round
      subst hqo
      obtain rfl : o.2 = m := Option.some.inj (hres.symm.trans hq)
      refine ⟨hidle, hover, fun r n hn hidle' => ?_⟩
      obtain ⟨hne, hn⟩ := Map.get?_erase_eq_some.mp (h.kept r n hn)
      refine Nat.lt_of_le_of_ne (hleast r n hn hidle') fun heq => hne ?_
      have := hr.distinct _ _ _ _ hres hn (idle_iff.mp hidle).1 (idle_iff.mp hidle').1 heq
      exact hb.inj r o.1 n hn (this ▸ hres)
    · have hq' : (c.without o.1 o.2).byID.get? q = some m := Map.get?_erase_eq_some.mpr ⟨hqo, hq⟩
      obtain ⟨hm, -, hlru⟩ := h.gone q m hq' hgone
      exact ⟨hm, hover, hlru⟩

lemma evictRounds_spec (n : ℕ) (hb : Books c) (hr : Ranks c) :
    Books (c.evictRounds n) ∧ Ranks (c.evictRounds n) ∧ Evicted c (c.evictRounds n) ∧
      (c.byID.entries.length ≤ n → Tidy (c.evictRounds n)) := by
  induction n generalizing c with
  | zero =>
      refine ⟨hb, hr, Evicted.refl c, fun hlen _ q m hq => ?_⟩
      have hnil : c.byID.entries = [] := List.eq_nil_of_length_eq_zero (Nat.le_zero.mp hlen)
      have := Map.mem_entries.mpr hq
      simp [Cache.evictRounds, hnil] at this
  | succ n ih =>
      rw [evictRounds_succ]
      split_ifs with hover
      · cases ho : c.oldest with
        | none => exact ⟨hb, hr, Evicted.refl c, fun _ _ q m hq => oldest_eq_none ho hq⟩
        | some o =>
            have hres := (oldest_eq_some ho).1
            obtain ⟨hb', hr', he, ht⟩ := ih (hb.without hres) (hr.without o.1 o.2)
            refine ⟨hb', hr', he.round hb hr hover ho, fun hlen => ht ?_⟩
            have := Map.length_erase hres
            simp only [Cache.without]
            omega
      · exact ⟨hb, hr, Evicted.refl c, fun _ hlt => absurd hlt hover⟩

/-- Eviction leaves the cache within its limit, or without an idle entry. -/
lemma evict_sound (hb : Books c) (hr : Ranks c) : Sound c.evict :=
  have h := evictRounds_spec c.byID.entries.length hb hr
  ⟨h.1, h.2.1, h.2.2.2 le_rfl⟩

/-- Eviction takes idle entries only, the least recently used first. -/
lemma evict_evicted (hb : Books c) (hr : Ranks c) : Evicted c c.evict :=
  (evictRounds_spec c.byID.entries.length hb hr).2.2.1

/-! ## The other sections -/

@[simp] lemma set_entry (c : Cache) (ptr : ℕ) (e : CachedTests) :
    (c.set ptr e).entry = Function.update c.entry ptr e := rfl

lemma set_entry_apply (c : Cache) (ptr l : ℕ) (e : CachedTests) :
    (c.set ptr e).entry l = if l = ptr then e else c.entry l :=
  Function.update_apply ..

/-- An assignment that leaves the size of an entry alone, or is to an entry that is not resident. -/
lemma Books.set (h : Books c) (ptr : ℕ) {e : CachedTests} (hbytes : e.bytes = (c.entry ptr).bytes)
    (htests : e.tests = (c.entry ptr).tests) (hready : e.ready → (c.entry ptr).ready) :
    Books (c.set ptr e) where
  bound := h.bound
  inj := h.inj
  total := by
    refine h.total.trans (Map.sum_congr fun q m _ => ?_)
    rw [set_entry_apply]
    split_ifs with hm
    · rw [hm, hbytes]
    · rfl
  size m := by
    rw [set_entry_apply]
    split_ifs
    · rw [hbytes, htests, h.size]
    · exact h.size m
  unloaded m hm := by
    rw [set_entry_apply] at hm ⊢
    split_ifs at hm ⊢
    · exact hbytes ▸ h.unloaded ptr (hready hm)
    · exact h.unloaded m hm

/-- An assignment that leaves the last use of an entry alone. -/
lemma Ranks.set (h : Ranks c) (ptr : ℕ) {e : CachedTests}
    (hused : e.lastUsed = (c.entry ptr).lastUsed) (hready : e.ready = (c.entry ptr).ready) :
    Ranks (c.set ptr e) := by
  have hu (m : ℕ) : ((c.set ptr e).entry m).lastUsed = (c.entry m).lastUsed := by
    rw [set_entry_apply]
    split_ifs with hm
    · rw [hm, hused]
    · rfl
  have hr (m : ℕ) : ((c.set ptr e).entry m).ready = (c.entry m).ready := by
    rw [set_entry_apply]
    split_ifs with hm
    · rw [hm, hready]
    · rfl
  constructor
  · intro q m hq
    rw [hu, hr]
    exact h.past q m hq
  · intro q r m n hq hr'
    rw [hu, hu, hr, hr]
    exact h.distinct q r m n hq hr'

/-- What the sections say of the resident entries is not touched by an assignment elsewhere. -/
lemma Sound.set_absent (h : Sound c) {e : CachedTests} (hptr : ∀ q, c.byID.get? q ≠ some ptr)
    (hbytes : e.bytes = (c.entry ptr).bytes) (htests : e.tests = (c.entry ptr).tests)
    (hready : e.ready → (c.entry ptr).ready) : Sound (c.set ptr e) := by
  have hentry (q : String) (m : ℕ) (hq : c.byID.get? q = some m) :
      (c.set ptr e).entry m = c.entry m := by
    rw [set_entry_apply, if_neg]
    rintro rfl
    exact hptr q hq
  refine ⟨h.toBooks.set ptr hbytes htests hready, ⟨?_, ?_⟩, ?_⟩
  · intro q m hq
    rw [hentry q m hq]
    exact h.past q m hq
  · intro q r m n hq hr
    rw [hentry q m hq, hentry r n hr]
    exact h.distinct q r m n hq hr
  · intro hover q m hq
    rw [hentry q m hq]
    exact h.tidy hover q m hq

/-- A pointer that was never handed out is not in the map. -/
lemma Books.next_absent (h : Books c) (q : String) : c.byID.get? q ≠ some c.next := fun hq =>
  absurd (h.bound q _ hq) (lt_irrefl _)

lemma Sound.create (h : Sound c) (hp : c.byID.get? p = none) (hnext : c.entry c.next = .fresh) :
    Sound (c.create p) := by
  have hentry : (c.create p).entry = c.entry := by
    simp only [Cache.create, set_entry, ← hnext, Function.update_eq_self]
  have hget (q : String) (m : ℕ) : (c.create p).byID.get? q = some m ↔
      q = p ∧ c.next = m ∨ q ≠ p ∧ c.byID.get? q = some m := Map.get?_insert_eq_some
  have hnew : (c.entry c.next).ready = true := by rw [hnext]; rfl
  refine ⟨⟨?_, ?_, ?_, ?_, ?_⟩, ⟨?_, ?_⟩, ?_⟩
  · intro q m hq
    rcases (hget q m).mp hq with ⟨-, rfl⟩ | ⟨-, hq⟩
    · exact Nat.lt_succ_self _
    · exact (h.bound q m hq).trans (Nat.lt_succ_self _)
  · intro q r m hq hr
    rcases (hget q m).mp hq with ⟨hqp, hm⟩ | ⟨-, hq⟩ <;>
      rcases (hget r m).mp hr with ⟨hrp, hm'⟩ | ⟨-, hr⟩
    · rw [hqp, hrp]
    · exact absurd (hm ▸ hr) (h.next_absent r)
    · exact absurd (hm' ▸ hq) (h.next_absent q)
    · exact h.inj q r m hq hr
  · have hsize : (c.entry c.next).bytes = 0 := by rw [hnext]; rfl
    have := Map.sum_insert (f := fun _ m => (c.entry m).bytes) (v := c.next) hp
    rw [hentry]
    simp only [Cache.create, Cache.set, this, hsize, h.total]
    omega
  · rw [hentry]
    exact h.size
  · rw [hentry]
    exact h.unloaded
  · intro q m hq hr
    rw [hentry] at hr ⊢
    rcases (hget q m).mp hq with ⟨-, rfl⟩ | ⟨-, hq⟩
    · simp [hnew] at hr
    · exact h.past q m hq hr
  · intro q r m n hq hr hm hn
    rw [hentry] at hm hn ⊢
    rcases (hget q m).mp hq with ⟨-, rfl⟩ | ⟨-, hq⟩
    · simp [hnew] at hm
    rcases (hget r n).mp hr with ⟨-, rfl⟩ | ⟨-, hr⟩
    · simp [hnew] at hn
    exact h.distinct q r m n hq hr hm hn
  · intro hover q m hq
    rw [hentry]
    rcases (hget q m).mp hq with ⟨-, rfl⟩ | ⟨-, hq⟩
    · simp [CachedTests.idle, hnew]
    · exact h.tidy hover q m hq

/-- The entry that is used now gets the newest rank; the others keep theirs. -/
lemma Ranks.touch {d : Cache} (h : Ranks c) (hmap : d.byID = c.byID) (hclock : d.clock = c.clock)
    (hentry : ∀ m, m ≠ ptr → d.entry m = c.entry m) : Ranks (d.touch ptr) := by
  have hused : ((d.touch ptr).entry ptr).lastUsed = c.clock + 1 := by
    simp [Cache.touch, hclock]
  have hother (m : ℕ) (hm : m ≠ ptr) : (d.touch ptr).entry m = c.entry m := by
    simp only [Cache.touch, set_entry_apply, if_neg hm, hentry m hm]
  have hold (q : String) (m : ℕ) (hq : (d.touch ptr).byID.get? q = some m) (hm : m ≠ ptr)
      (hr : ((d.touch ptr).entry m).ready = false) :
      ((d.touch ptr).entry m).lastUsed ≤ c.clock := by
    rw [hother m hm] at hr ⊢
    exact h.past q m (hmap ▸ hq) hr
  have htick : (d.touch ptr).clock = c.clock + 1 := by simp [Cache.touch, hclock]
  constructor
  · intro q m hq hr
    rw [htick]
    by_cases hm : m = ptr
    · rw [hm, hused]
    · exact (hold q m hq hm hr).trans (Nat.le_succ _)
  · intro q r m n hq hr hqm hrn heq
    by_cases hm : m = ptr <;> by_cases hn : n = ptr
    · rw [hm, hn]
    · have := hold r n hr hn hrn
      rw [hm, hused] at heq
      omega
    · have := hold q m hq hm hqm
      rw [hn, hused] at heq
      omega
    · rw [hother m hm] at hqm heq
      rw [hother n hn] at hrn heq
      exact h.distinct q r m n (hmap ▸ hq) (hmap ▸ hr) hqm hrn heq

lemma Books.touch (h : Books c) (ptr : ℕ) : Books (c.touch ptr) :=
  have h' := h.set ptr (e := { c.entry ptr with
    users := (c.entry ptr).users + 1, lastUsed := c.clock + 1 }) rfl rfl id
  ⟨h'.bound, h'.inj, h'.total, h'.size, h'.unloaded⟩

lemma Sound.use (h : Sound c) (ptr : ℕ) : Sound (c.use ptr) :=
  evict_sound (h.toBooks.touch ptr) (h.toRanks.touch rfl rfl fun _ _ => rfl)

lemma Sound.release (h : Sound c) (ptr : ℕ) : Sound (c.release ptr) :=
  evict_sound (h.toBooks.set ptr rfl rfl id) (h.toRanks.set ptr rfl rfl)

/-- A load adds to the total what it adds to its entry, which counted for nothing before. -/
lemma Books.publish (h : Books c) (hp : c.byID.get? p = some ptr) (hload : (c.entry ptr).ready)
    (tests : List TestCase) (now : ℤ) : Books (c.publish ptr tests now) where
  bound := h.bound
  inj := h.inj
  total := by
    have hnew := Map.sum_erase (f := fun _ m => ((c.publish ptr tests now).entry m).bytes) hp
    have hold := Map.sum_erase (f := fun _ m => (c.entry m).bytes) hp
    have hrest : Map.sum (fun _ m => ((c.publish ptr tests now).entry m).bytes) (c.byID.erase p) =
        Map.sum (fun _ m => (c.entry m).bytes) (c.byID.erase p) := by
      refine Map.sum_congr fun q m hq => ?_
      have hm : m ≠ ptr := by
        rintro rfl
        obtain ⟨hne, hq⟩ := Map.get?_erase_eq_some.mp hq
        exact hne (h.inj q p m hq hp)
      simp [Cache.publish, hm]
    have hptr : ((c.publish ptr tests now).entry ptr).bytes = suiteBytes tests := by
      simp [Cache.publish, h.unloaded ptr hload]
    have hzero := h.unloaded ptr hload
    have htotal := h.total
    change c.bytes + ((c.entry ptr).bytes + suiteBytes tests) = _
    rw [show (c.publish ptr tests now).byID = c.byID from rfl, hnew, hrest, hptr]
    omega
  size m := by
    by_cases hm : m = ptr
    · simp [Cache.publish, hm, h.unloaded ptr hload]
    · simp only [Cache.publish, set_entry_apply, if_neg hm]
      exact h.size m
  unloaded m hm := by
    by_cases hmp : m = ptr
    · simp [Cache.publish, hmp] at hm
    · simp only [Cache.publish, set_entry_apply, if_neg hmp] at hm ⊢
      exact h.unloaded m hm

end TestCache

end Labyrithm
