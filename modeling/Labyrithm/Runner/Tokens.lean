import Mathlib.Data.List.Range
import Labyrithm.Go.Callers
import Labyrithm.Runner.Limiter

/-!
# The limiter loses no token

What is in the channels and what the requests hold add up to what `newLimiter` put in, in every
interleaving: the slots (as a bag), the shares of submissions, and the admissions.  One operation of a
request moves one token between the two sides (`Moved`); the bounds follow from the capacities, and no
release blocks because whoever releases holds the token that makes room.

* `Conserved` — the three accounts, `conserved_step` and `conserved_reachable`.
* `advance_isSome` — whoever gives something back can.
* **`limiter_safe`** — the guarantees of the limiter.
-/

namespace Labyrithm

namespace Runner

open Go

/-! ## What a request holds -/

/-- The slot a request holds. -/
def Caller.slot (caller : Caller) : Option Slot :=
  match caller.pc with
  | .holding slot => some slot
  | _ => none

/-- A request that is admitted and not finished. -/
def Caller.inFlight (caller : Caller) : Bool :=
  match caller.pc with
  | .asking | .released | .failed _ => false
  | _ => true

/-- A submission that has its share. -/
def Caller.sharing (caller : Caller) : Bool :=
  match caller.pc with
  | .capped | .uncapping _ => true
  | .holding _ => caller.kind = .submit
  | _ => false

/-- The slots in the hands of requests. -/
def System.held (s : System) : List Slot := s.callers.filterMap Caller.slot

/-- What is in the channels and what the requests hold. -/
structure Conserved (cfg : Config) (s : System) : Prop where
  slots : s.limiter.free.bag + total (fun caller => (caller.slot.toList : Multiset Slot)) s.callers
    = (cfg.slots : Multiset Slot)
  shares : s.limiter.submitCap.len = total (fun caller => if caller.sharing then 1 else 0) s.callers
  admissions : s.limiter.admission.len = total (fun caller => if caller.inFlight then 1 else 0) s.callers
  freeCap : s.limiter.free.cap = cfg.maxConcurrent.toNat
  submitCap : s.limiter.submitCap.cap = cfg.submitCapacity.toNat
  admitCap : s.limiter.admission.cap = (cfg.maxConcurrent + cfg.queue).toNat
  kinds : ∀ caller ∈ s.callers, caller.sharing → caller.kind = .submit

/-- One operation moves at most one token between a channel and the request. -/
structure Moved (l l' : Limiter) (caller caller' : Caller) : Prop where
  slots : l'.free.bag + (caller'.slot.toList : Multiset Slot) =
    l.free.bag + (caller.slot.toList : Multiset Slot)
  shares : l'.submitCap.len + (if caller.sharing then 1 else 0) =
    l.submitCap.len + if caller'.sharing then 1 else 0
  admissions : l'.admission.len + (if caller.inFlight then 1 else 0) =
    l.admission.len + if caller'.inFlight then 1 else 0
  freeCap : l'.free.cap = l.free.cap
  submitCap : l'.submitCap.cap = l.submitCap.cap
  admitCap : l'.admission.cap = l.admission.cap

variable {cfg : Config} {s s' : System} {i : ℕ} {caller : Caller} {l l' : Limiter} {pc' : PC}

lemma send_len {α : Type} {ch ch' : Chan α} {x : α} (h : ch.send x = some ch') :
    ch'.len = ch.len + 1 ∧ ch'.cap = ch.cap := by
  obtain ⟨hcap, hbag, -⟩ := Chan.send_eq_some h
  refine ⟨?_, hcap⟩
  rw [← Chan.card_bag, ← Chan.card_bag, hbag]
  simp

lemma recv_len {α : Type} {ch ch' : Chan α} {x : α} (h : ch.recv = some (x, ch')) :
    ch.len = ch'.len + 1 ∧ ch'.cap = ch.cap := by
  obtain ⟨hcap, hbag⟩ := Chan.recv_eq_some h
  refine ⟨?_, hcap⟩
  rw [← Chan.card_bag, ← Chan.card_bag, hbag]
  simp

/-- A request that takes a slot from the channel. -/
lemma moved_slot {slot : Slot} {free : Chan Slot} (h : l.free.recv = some (slot, free))
    (hslot : caller.slot = none) (hflight : caller.inFlight = true)
    (hshare : caller.sharing = decide (caller.kind = .submit)) :
    Moved l { l with free := free } caller { caller with pc := .holding slot } := by
  obtain ⟨hcap, hbag⟩ := Chan.recv_eq_some h
  refine ⟨?_, ?_, ?_, hcap, rfl, rfl⟩
  · change free.bag + ([slot] : List Slot) = _
    simp [hslot, hbag]
  · rw [hshare]
    rfl
  · rw [hflight]
    rfl

/-- A request that goes on with what it holds. -/
lemma moved_still {caller' : Caller} (hslot : caller'.slot = caller.slot)
    (hshare : caller'.sharing = caller.sharing) (hflight : caller'.inFlight = caller.inFlight) :
    Moved l l caller caller' where
  slots := by rw [hslot]
  shares := by rw [hshare]
  admissions := by rw [hflight]
  freeCap := rfl
  submitCap := rfl
  admitCap := rfl

/-- Every operation moves its token, and no other. -/
lemma advance_moved {choice : Choice} (hk : caller.sharing → caller.kind = .submit)
    (h : caller.advance choice l = some (l', pc')) :
    Moved l l' caller { caller with pc := pc' } := by
  unfold Caller.advance at h
  split at h
  · next hpc =>
    -- the admission
    split at h
    · next admission hsend =>
      cases h
      obtain ⟨hlen, hcap⟩ := send_len hsend
      exact ⟨by simp [Caller.slot, hpc], by simp [Caller.sharing, hpc],
        by simp [Caller.inFlight, hpc, hlen], rfl, rfl, hcap⟩
    · cases h
      exact moved_still (by simp [Caller.slot, hpc]) (by simp [Caller.sharing, hpc])
        (by simp [Caller.inFlight, hpc])
  · next hpc =>
    split at h
    · next hkind =>
      obtain ⟨⟨slot, free⟩, hrecv, heq⟩ := Option.map_eq_some_iff.mp h
      cases heq
      exact moved_slot hrecv (by simp [Caller.slot, hpc]) (by simp [Caller.inFlight, hpc])
        (by simp [Caller.sharing, hpc, hkind])
    · next hkind =>
      -- the share of a submission
      obtain ⟨submitCap, hsend, heq⟩ := Option.map_eq_some_iff.mp h
      cases heq
      obtain ⟨hlen, hcap⟩ := send_len hsend
      exact ⟨by simp [Caller.slot, hpc], by simp [Caller.sharing, hpc, hlen],
        by simp [Caller.inFlight, hpc], rfl, hcap, rfl⟩
  · next hpc =>
    split_ifs at h
    cases h
    exact moved_still (by simp [Caller.slot, hpc]) (by simp [Caller.sharing, hpc])
      (by simp [Caller.inFlight, hpc])
  · next hpc =>
    obtain ⟨⟨slot, free⟩, hrecv, heq⟩ := Option.map_eq_some_iff.mp h
    cases heq
    have hkind : caller.kind = .submit := hk (by simp [Caller.sharing, hpc])
    exact moved_slot hrecv (by simp [Caller.slot, hpc]) (by simp [Caller.inFlight, hpc])
      (by simp [Caller.sharing, hpc, hkind])
  · next hpc =>
    split_ifs at h
    cases h
    exact moved_still (by simp [Caller.slot, hpc]) (by simp [Caller.sharing, hpc])
      (by simp [Caller.inFlight, hpc])
  · next slot hpc =>
    -- the slot comes back
    obtain ⟨free, hsend, heq⟩ := Option.map_eq_some_iff.mp h
    cases heq
    obtain ⟨hcap, hbag, -⟩ := Chan.send_eq_some hsend
    cases hkind : caller.kind with
    | run =>
        exact ⟨by simp [Caller.slot, hpc, hbag], by simp [Caller.sharing, hpc, hkind],
          by simp [Caller.inFlight, hpc], hcap, rfl, rfl⟩
    | submit =>
        exact ⟨by simp [Caller.slot, hpc, hbag], by simp [Caller.sharing, hpc, hkind],
          by simp [Caller.inFlight, hpc], hcap, rfl, rfl⟩
  · next failing hpc =>
    obtain ⟨⟨_, submitCap⟩, hrecv, heq⟩ := Option.map_eq_some_iff.mp h
    cases heq
    obtain ⟨hlen, hcap⟩ := recv_len hrecv
    exact ⟨by simp [Caller.slot, hpc], by simp [Caller.sharing, hpc, hlen],
      by simp [Caller.inFlight, hpc], rfl, hcap, rfl⟩
  · next failing hpc =>
    obtain ⟨⟨_, admission⟩, hrecv, heq⟩ := Option.map_eq_some_iff.mp h
    cases heq
    obtain ⟨hlen, hcap⟩ := recv_len hrecv
    cases failing <;>
      exact ⟨by simp [Caller.slot, hpc], by simp [Caller.sharing, hpc],
        by simp [Caller.inFlight, hpc, hlen], rfl, rfl, hcap⟩
  · cases h

/-- Only submissions take shares. -/
lemma advance_kind {choice : Choice} (hk : caller.sharing → caller.kind = .submit)
    (h : caller.advance choice l = some (l', pc'))
    (hshare : Caller.sharing { caller with pc := pc' }) : caller.kind = .submit := by
  unfold Caller.advance at h
  split at h
  · split at h <;> cases h <;> simp [Caller.sharing] at hshare
  · split at h
    · obtain ⟨x, -, heq⟩ := Option.map_eq_some_iff.mp h
      cases heq
      simpa [Caller.sharing] using hshare
    · next hkind => exact hkind
  · split_ifs at h
    cases h
    simp [Caller.sharing] at hshare
  · obtain ⟨x, -, heq⟩ := Option.map_eq_some_iff.mp h
    cases heq
    simpa [Caller.sharing] using hshare
  · next hpc => exact hk (by simp [Caller.sharing, hpc])
  · obtain ⟨x, -, heq⟩ := Option.map_eq_some_iff.mp h
    cases heq
    cases hkind : caller.kind with
    | run => simp [Caller.sharing, hkind] at hshare
    | submit => rfl
  · next hpc => exact hk (by simp [Caller.sharing, hpc])
  · next failing hpc =>
    obtain ⟨x, -, heq⟩ := Option.map_eq_some_iff.mp h
    cases heq
    cases failing <;> simp [Caller.sharing] at hshare
  · cases h

/-! ## Every run -/

lemma conserved_new (cfg : Config) : Conserved cfg (System.new cfg) where
  slots := by
    simp [System.new, newLimiter, Chan.bag]
  shares := rfl
  admissions := rfl
  freeCap := rfl
  submitCap := rfl
  admitCap := rfl
  kinds := by simp [System.new]

/-- The accounts follow a step of one request. -/
lemma Conserved.moved {caller' : Caller} (h : Conserved cfg s) (hi : s.callers[i]? = some caller)
    (hm : Moved s.limiter l' caller caller') (hk : caller'.sharing → caller'.kind = .submit) :
    Conserved cfg ⟨l', s.callers.set i caller'⟩ where
  slots := by
    have htotal := total_set (f := fun caller : Caller => (caller.slot.toList : Multiset Slot)) hi caller'
    refine add_right_cancel (b := (caller.slot.toList : Multiset Slot) + caller'.slot.toList) ?_
    rw [← h.slots, add_comm (caller.slot.toList : Multiset Slot), add_add_add_comm, hm.slots, htotal,
      add_add_add_comm, add_comm (caller.slot.toList : Multiset Slot)]
  shares := by
    have htotal := total_set (f := fun caller : Caller => if caller.sharing then 1 else 0) hi caller'
    have hold := h.shares
    have hstep := hm.shares
    simp only at htotal ⊢
    omega
  admissions := by
    have htotal := total_set (f := fun caller : Caller => if caller.inFlight then 1 else 0) hi caller'
    have hold := h.admissions
    have hstep := hm.admissions
    simp only at htotal ⊢
    omega
  freeCap := hm.freeCap.trans h.freeCap
  submitCap := hm.submitCap.trans h.submitCap
  admitCap := hm.admitCap.trans h.admitCap
  kinds other ho := by
    rcases List.mem_or_eq_of_mem_set ho with ho | rfl
    · exact h.kinds other ho
    · exact hk

/-- A request that keeps its place keeps its tokens. -/
lemma Moved.refl {caller' : Caller} (l : Limiter) (hpc : caller'.pc = caller.pc)
    (hkind : caller'.kind = caller.kind) : Moved l l caller caller' := by
  have hslot : caller'.slot = caller.slot := by simp only [Caller.slot, hpc]
  have hshare : caller'.sharing = caller.sharing := by simp only [Caller.sharing, hpc, hkind]
  have hflight : caller'.inFlight = caller.inFlight := by simp only [Caller.inFlight, hpc]
  exact ⟨by rw [hslot], by rw [hshare], by rw [hflight], rfl, rfl, rfl⟩

lemma conserved_step (a : Action) (s s' : System) (h : Conserved cfg s) (hs : step a s = some s') :
    Conserved cfg s' := by
  cases a with
  | acquire kind =>
      cases hs
      refine ⟨?_, ?_, ?_, h.freeCap, h.submitCap, h.admitCap, fun caller hc => ?_⟩
      · simpa [Caller.slot] using h.slots
      · simpa [Caller.sharing] using h.shares
      · simpa [Caller.inFlight] using h.admissions
      · rcases List.mem_append.mp hc with hc | hc
        · exact h.kinds caller hc
        · simp [List.mem_singleton.mp hc, Caller.sharing]
  | cancel i deadline =>
      obtain ⟨caller, hi, rfl⟩ := Option.map_eq_some_iff.mp hs
      exact h.moved hi (Moved.refl _ rfl rfl) (h.kinds caller (List.mem_of_getElem? hi))
  | timeout i =>
      simp only [step] at hs
      split_ifs at hs
      obtain ⟨caller, hi, hs⟩ := Option.bind_eq_some_iff.mp hs
      split_ifs at hs
      cases hs
      exact h.moved hi (Moved.refl _ rfl rfl) (h.kinds caller (List.mem_of_getElem? hi))
  | advance i choice =>
      obtain ⟨caller, hi, hs⟩ := Option.bind_eq_some_iff.mp hs
      obtain ⟨⟨l', pc'⟩, hadv, rfl⟩ := Option.map_eq_some_iff.mp hs
      have hk := h.kinds caller (List.mem_of_getElem? hi)
      exact h.moved hi (advance_moved hk hadv) (advance_kind hk hadv)

theorem conserved_reachable (h : Reachable cfg s) : Conserved cfg s :=
  Reach.invariant (conserved_new cfg) conserved_step h

/-! ## The guarantees -/

/-- The slots in the channel and those in the hands of requests are the slots of the beginning. -/
lemma Conserved.perm (h : Conserved cfg s) : (s.limiter.free.buf ++ s.held).Perm cfg.slots := by
  rw [← Multiset.coe_eq_coe, ← h.slots, total_filterMap]
  rfl

lemma slots_boxIDs (cfg : Config) :
    cfg.slots.map Slot.boxID = List.range cfg.maxConcurrent.toNat := by
  simp [Config.slots, Function.comp_def]

lemma Conserved.boxIDs_nodup (h : Conserved cfg s) :
    ((s.limiter.free.buf ++ s.held).map Slot.boxID).Nodup := by
  rw [(h.perm.map Slot.boxID).nodup_iff, slots_boxIDs]
  exact List.nodup_range

lemma Conserved.length (h : Conserved cfg s) :
    s.held.length + s.limiter.free.len = cfg.maxConcurrent.toNat := by
  have hperm := h.perm.length_eq
  have hslots : cfg.slots.length = cfg.maxConcurrent.toNat := by simp [Config.slots]
  rw [List.length_append, hslots] at hperm
  rw [← hperm, add_comm]
  rfl

lemma Conserved.inFlight_eq (h : Conserved cfg s) :
    s.callers.countP Caller.inFlight = s.limiter.admission.len :=
  (total_countP Caller.inFlight s.callers).symm.trans h.admissions.symm

lemma Conserved.sharing_eq (h : Conserved cfg s) :
    s.callers.countP Caller.sharing = s.limiter.submitCap.len :=
  (total_countP Caller.sharing s.callers).symm.trans h.shares.symm

lemma Conserved.inFlight_le (h : Conserved cfg s) (hmax : 1 ≤ cfg.maxConcurrent) :
    (s.callers.countP Caller.inFlight : ℤ) ≤ cfg.maxConcurrent + max 0 cfg.maxQueue := by
  have hlen := s.limiter.admission.len_le_cap
  rw [h.admitCap, ← h.inFlight_eq] at hlen
  have hqueue : cfg.queue = max 0 cfg.maxQueue := by
    unfold Config.queue
    split_ifs <;> omega
  rw [hqueue] at hlen
  omega

/-- The share of submissions: what the reserve leaves, and one at least. -/
lemma Config.submitCapacity_eq (cfg : Config) (hmax : 1 ≤ cfg.maxConcurrent) :
    cfg.submitCapacity = max 1 (cfg.maxConcurrent - max 0 cfg.runReserve) := by
  have hreserve : cfg.reserve = min (cfg.maxConcurrent - 1) (max 0 cfg.runReserve) := by
    simp only [Config.reserve]
    split_ifs <;> omega
  rw [Config.submitCapacity, hreserve]
  split_ifs <;> omega

/-- A submission that holds a slot has its share. -/
lemma Conserved.submissions_le (h : Conserved cfg s) (hmax : 1 ≤ cfg.maxConcurrent) :
    (s.callers.countP (fun caller => caller.kind = .submit ∧ caller.slot.isSome) : ℤ) ≤
      max 1 (cfg.maxConcurrent - max 0 cfg.runReserve) := by
  have hlen := s.limiter.submitCap.len_le_cap
  rw [h.submitCap, ← h.sharing_eq] at hlen
  have hle : s.callers.countP (fun caller => caller.kind = .submit ∧ caller.slot.isSome) ≤
      s.callers.countP Caller.sharing := by
    refine List.countP_mono_left fun caller _ hc => ?_
    have ⟨hkind, hslot⟩ : caller.kind = .submit ∧ caller.slot.isSome := by simpa using hc
    cases hpc : caller.pc <;> simp_all [Caller.slot, Caller.sharing]
  rw [cfg.submitCapacity_eq hmax] at hlen
  omega

/-- Whoever gives back a slot, a share or an admission finds room for it. -/
lemma Conserved.advance_isSome (h : Conserved cfg s) (hi : s.callers[i]? = some caller)
    (hpc : (∃ slot, caller.pc = .holding slot) ∨ (∃ failing, caller.pc = .uncapping failing) ∨
      ∃ failing, caller.pc = .leaving failing) :
    (caller.advance .go s.limiter).isSome := by
  rcases hpc with ⟨slot, hpc⟩ | ⟨failing, hpc⟩ | ⟨failing, hpc⟩
  · have hmem : slot ∈ s.held :=
      List.mem_filterMap.mpr ⟨caller, List.mem_of_getElem? hi, by simp [Caller.slot, hpc]⟩
    have hroom : s.limiter.free.len < s.limiter.free.cap := by
      have := List.length_pos_of_mem hmem
      have := h.length
      rw [h.freeCap]
      omega
    simpa [Caller.advance, hpc] using Chan.send_isSome hroom slot
  · have hshare := le_total (g := fun caller : Caller => if caller.sharing then 1 else 0) hi
    rw [← h.shares] at hshare
    have hone : (if caller.sharing then 1 else 0) = 1 := by simp [Caller.sharing, hpc]
    simpa [Caller.advance, hpc] using
      Chan.recv_isSome (show 0 < s.limiter.submitCap.len by omega)
  · have hflight := le_total (g := fun caller : Caller => if caller.inFlight then 1 else 0) hi
    rw [← h.admissions] at hflight
    have hone : (if caller.inFlight then 1 else 0) = 1 := by simp [Caller.inFlight, hpc]
    simpa [Caller.advance, hpc] using
      Chan.recv_isSome (show 0 < s.limiter.admission.len by omega)

/-- When every request has finished, whichever way, every token is back. -/
lemma Conserved.quiescent (h : Conserved cfg s)
    (hdone : ∀ caller ∈ s.callers, caller.inFlight = false) :
    s.limiter.free.len = cfg.maxConcurrent.toNat ∧ s.limiter.submitCap.len = 0 ∧
      s.limiter.admission.len = 0 := by
  have hslot : s.held = [] := by
    refine List.filterMap_eq_nil_iff.mpr fun caller hc => ?_
    have := hdone caller hc
    cases hpc : caller.pc <;> simp_all [Caller.inFlight, Caller.slot]
  have hlen := h.length
  rw [hslot] at hlen
  refine ⟨by simpa using hlen, ?_, ?_⟩
  · rw [← h.sharing_eq, List.countP_eq_zero]
    intro caller hc
    have := hdone caller hc
    cases hpc : caller.pc <;> simp_all [Caller.inFlight, Caller.sharing]
  · rw [← h.inFlight_eq, List.countP_eq_zero]
    intro caller hc
    simp [hdone caller hc]

/-- There is always a core to take: the list is the configured one, or counts up to `maxConcurrent`. -/
theorem parseCPUList_ne_nil (cpuList : String) {maxConcurrent : ℤ} (hmax : 1 ≤ maxConcurrent) :
    parseCPUList cpuList maxConcurrent ≠ [] := by
  have hpos : maxConcurrent.toNat ≠ 0 := by omega
  have hrange : (List.range maxConcurrent.toNat).map Int.ofNat ≠ [] := by
    rw [ne_eq, List.map_eq_nil_iff, List.range_eq_nil]
    exact hpos
  unfold parseCPUList
  extract_lets list cores
  split_ifs with hcores
  · exact hrange
  · exact hcores

/-- What a request holds is what the channels lack, in every interleaving: no box is handed out twice
and none is lost, the bounds on admissions and on submissions hold, a request that has failed holds
nothing, and whoever gives something back does so without waiting. -/
theorem limiter_safe (cfg : Config) (hmax : 1 ≤ cfg.maxConcurrent) (s : System)
    (h : Reachable cfg s) :
    (((s.limiter.free.buf ++ s.held).map Slot.boxID).Nodup ∧
      ((s.held.length + s.limiter.free.len : ℕ) : ℤ) = cfg.maxConcurrent) ∧
    (s.callers.countP Caller.inFlight : ℤ) ≤ cfg.maxConcurrent + max 0 cfg.maxQueue ∧
    (s.callers.countP (fun caller => caller.kind = .submit ∧ caller.slot.isSome) : ℤ) ≤
      max 1 (cfg.maxConcurrent - max 0 cfg.runReserve) ∧
    ((∀ caller ∈ s.callers, ∀ err, caller.pc = .failed err →
        caller.slot = none ∧ caller.sharing = false ∧ caller.inFlight = false) ∧
      s.limiter.submitCap.len = s.callers.countP Caller.sharing ∧
      s.limiter.admission.len = s.callers.countP Caller.inFlight ∧
      ((∀ caller ∈ s.callers, caller.inFlight = false) →
        s.limiter.free.len = cfg.maxConcurrent.toNat ∧ s.limiter.submitCap.len = 0 ∧
          s.limiter.admission.len = 0)) ∧
    (∀ (i : ℕ) (caller : Caller), s.callers[i]? = some caller →
      ((∃ slot, caller.pc = .holding slot) ∨ (∃ failing, caller.pc = .uncapping failing) ∨
        ∃ failing, caller.pc = .leaving failing) →
      (step (.advance i .go) s).isSome) := by
  have hc := conserved_reachable h
  refine ⟨⟨hc.boxIDs_nodup, ?_⟩, hc.inFlight_le hmax, hc.submissions_le hmax,
    ⟨?_, hc.sharing_eq.symm, hc.inFlight_eq.symm, hc.quiescent⟩, fun i caller hi hpc => ?_⟩
  · rw [hc.length]
    omega
  · intro caller _ err hpc
    simp [Caller.slot, Caller.sharing, Caller.inFlight, hpc]
  · have hsome := hc.advance_isSome hi hpc
    simp only [step, hi, Option.bind_some, Option.isSome_map]
    exact hsome

/-! ## Two boxes -/

/-- Two boxes, one of them reserved for runs, one place in the queue. -/
def sampleConfig : Config := ⟨2, 1, 0, 1, "3-6"⟩

/-- A submission and a run hold the boxes; a second submission has given up waiting for the share and
is about to give its admission back. -/
def sampleState : System :=
  (run step
    [.acquire .submit, .acquire .submit, .acquire .run,
      .advance 0 .go, .advance 0 .go, .advance 0 .go, .advance 1 .go, .advance 2 .go, .advance 2 .go,
      .cancel 1 false, .advance 1 .done]
    (System.new sampleConfig)).getD (System.new sampleConfig)

theorem limiter_safe_sample :
    ((sampleState.held.length + sampleState.limiter.free.len : ℕ) : ℤ) = 2 ∧
      sampleState.limiter.admission.len = sampleState.callers.countP Caller.inFlight ∧
      (step (.advance 1 .go) sampleState).isSome :=
  have h := limiter_safe sampleConfig (by decide) sampleState (Reach.run_getD _)
  ⟨h.1.2, h.2.2.2.1.2.2.1,
    h.2.2.2.2 1 ⟨.submit, some .canceled, false, .leaving true⟩ (by decide +kernel)
      (.inr (.inr ⟨true, rfl⟩))⟩

/-- A negative `maxQueue` is read as 0: it does not lower the number of admissions. -/
theorem admitted_above_negative_queue :
    ¬ ∀ (cfg : Config) (s : System), 1 ≤ cfg.maxConcurrent → Reachable cfg s →
      (s.callers.countP Caller.inFlight : ℤ) ≤ cfg.maxConcurrent + cfg.maxQueue := by
  intro hall
  have h := hall ⟨1, -1, 0, 0, ""⟩
    ((run step [.acquire .run, .advance 0 .go] (System.new ⟨1, -1, 0, 0, ""⟩)).getD
      (System.new ⟨1, -1, 0, 0, ""⟩)) (by decide) (Reach.run_getD _)
  revert h
  decide +kernel

end Runner

end Labyrithm
