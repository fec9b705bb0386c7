import Labyrithm.Go.Callers
import Labyrithm.Judge.Broadcaster

/-!
# Who gets a result, and how often

What a subscriber of the broadcaster gets, over any interleaving of subscriptions, broadcasts and reads.
A call of `BroadcastLocal` has one copy of its result for each subscriber that it has still to visit; when
it makes room it stays with the subscriber, and the copy is sent or given up.

* `content` — what a subscriber has read and has still to read.
* `dispatch_countP`, `mem_dispatch` — one channel operation.
* `Once` — the invariant: the copies a subscriber has and those that calls still hold for it are no more
  than the calls that were started.

**`delivered_once`** — no user has more than four streams, no stream carries the result of another user,
and each call gives a stream one copy at most.
-/

namespace Labyrithm

namespace Broadcaster

/-- What the subscriber has read and has still to read. -/
def content (sub : Subscriber) : List StatusResponse := sub.read ++ sub.ch.buf

/-- The streams of a user. -/
def streams (b : Broadcaster) (userId : Option Uuid) : ℕ :=
  (b.subscribers.entries.filter fun e => e.2.userId = userId).length

/-- The results that an action starts to broadcast. -/
def Action.starts : Action → List StatusResponse
  | .broadcast res _ => [res]
  | .subscribe _ => []
  | .unsubscribe _ => []
  | .advance _ => []
  | .read _ => []

/-- The call has a copy of a result with the property `P` for the subscriber `c`. -/
def holds (P : StatusResponse → Bool) (c : ℕ) (call : BroadcastCall) : Bool :=
  P call.res && decide (c ∈ call.todo)

variable {b b' : Broadcaster} {sub sub' : Subscriber} {call : BroadcastCall} {i c : ℕ}
  {rest : List ℕ} {res : StatusResponse} {started : List StatusResponse}
  {P : StatusResponse → Bool}

/-! ## One channel operation -/

section Operation

@[simp] lemma note_read (sub : Subscriber) (res : StatusResponse) : (sub.note res).read = sub.read := by
  unfold Subscriber.note
  split_ifs <;> rfl

@[simp] lemma note_ch (sub : Subscriber) (res : StatusResponse) : (sub.note res).ch = sub.ch := by
  unfold Subscriber.note
  split_ifs <;> rfl

@[simp] lemma note_userId (sub : Subscriber) (res : StatusResponse) :
    (sub.note res).userId = sub.userId := by
  unfold Subscriber.note
  split_ifs <;> rfl

lemma dispatch_userId (call : BroadcastCall) (sub : Subscriber) :
    (dispatch call sub).1.userId = sub.userId := by
  unfold dispatch
  cases call.phase with
  | visit =>
      by_cases hskip : sub.skips call.res
      · simp [hskip]
      · cases sub.ch.send call.res <;> simp [hskip]
  | drop => cases sub.ch.recv <;> rfl
  | resend => cases sub.ch.send call.res <;> simp

lemma content_sent {ch : Go.Chan StatusResponse} (hsend : sub.ch.send res = some ch) :
    content ({ sub with ch := ch }.note res) = content sub ++ [res] := by
  simp [content, Go.Chan.buf_send hsend]

/-- The copy of a call is sent or given up when it is done with the subscriber, and not before. -/
lemma dispatch_countP (P : StatusResponse → Bool) (call : BroadcastCall) (sub : Subscriber) :
    (content (dispatch call sub).1).countP P
        + (if P call.res && (dispatch call sub).2.isSome then 1 else 0)
      ≤ (content sub).countP P + if P call.res then 1 else 0 := by
  have hcopy : ∀ s : Bool, (if P call.res && s then 1 else 0) ≤ if P call.res then 1 else 0 := by
    intro s
    cases P call.res <;> cases s <;> decide
  unfold dispatch
  cases call.phase with
  | visit =>
      by_cases hskip : sub.skips call.res
      · simp [hskip]
      · cases hsend : sub.ch.send call.res with
        | none => simpa [hskip] using hcopy call.res.status.terminal
        | some ch => simp [hskip, content_sent hsend, List.countP_append, List.countP_singleton]
  | drop =>
      cases hrecv : sub.ch.recv with
      | none => simp
      | some p =>
          have hcontent : content sub = sub.read ++ p.1 :: p.2.buf := by
            rw [content, Go.Chan.buf_recv hrecv]
          have hdropped : (content { sub with ch := p.2 }).countP P ≤ (content sub).countP P := by
            rw [hcontent]
            exact (List.sublist_cons_self p.1 p.2.buf).append_left sub.read |>.countP_le
          simpa using hdropped
  | resend =>
      cases hsend : sub.ch.send call.res with
      | none => simp [content]
      | some ch => simp [content_sent hsend, List.countP_append, List.countP_singleton]

/-- What a subscriber gets is what the call has for it. -/
lemma mem_dispatch {r : StatusResponse} (hturn : call.phase ≠ .visit → sub.skips call.res = false)
    (hr : r ∈ content (dispatch call sub).1) :
    r ∈ content sub ∨ r = call.res ∧ sub.skips call.res = false := by
  unfold dispatch at hr
  cases hphase : call.phase with
  | visit =>
      rw [hphase] at hr
      by_cases hskip : sub.skips call.res
      · exact .inl (by simpa [hskip] using hr)
      · cases hsend : sub.ch.send call.res with
        | none => exact .inl (by simpa [hskip, hsend] using hr)
        | some ch =>
            have hmem : r ∈ content sub ++ [call.res] := by
              simpa [hskip, hsend, content_sent hsend] using hr
            rcases List.mem_append.mp hmem with hold | hnew
            · exact .inl hold
            · exact .inr ⟨List.mem_singleton.mp hnew, by simpa using hskip⟩
  | drop =>
      rw [hphase] at hr
      cases hrecv : sub.ch.recv with
      | none => exact .inl (by simpa [hrecv] using hr)
      | some p =>
          refine .inl ?_
          rw [content, Go.Chan.buf_recv hrecv]
          have hmem : r ∈ sub.read ++ p.2.buf := by simpa [hrecv, content] using hr
          exact (List.sublist_cons_self p.1 p.2.buf).append_left sub.read |>.subset hmem
  | resend =>
      rw [hphase] at hr
      cases hsend : sub.ch.send call.res with
      | none => exact .inl (by simpa [hsend, content] using hr)
      | some ch =>
          have hmem : r ∈ content sub ++ [call.res] := by
            simpa [hsend, content_sent hsend] using hr
          rcases List.mem_append.mp hmem with hold | hnew
          · exact .inl hold
          · exact .inr ⟨List.mem_singleton.mp hnew, hturn (by simp [hphase])⟩

/-- A call that is not done with a subscriber has something for it. -/
lemma dispatch_turn (hturn : call.phase ≠ .visit → sub.skips call.res = false)
    (hmore : (dispatch call sub).2.isSome) : sub.skips call.res = false := by
  cases hphase : call.phase with
  | visit =>
      by_contra hskip
      have hskip : sub.skips call.res = true := by simpa using hskip
      simp [dispatch, hphase, hskip] at hmore
  | drop => exact hturn (by simp [hphase])
  | resend => exact hturn (by simp [hphase])

end Operation

/-! ## The invariant -/

/-- What holds of the copies, when the results `started` have been broadcast. -/
structure Once (b : Broadcaster) (started : List StatusResponse) : Prop where
  todo : ∀ call ∈ b.calls, call.todo.Nodup
  turn : ∀ call ∈ b.calls, call.phase ≠ .visit → ∀ c rest, call.todo = c :: rest →
    ∀ sub, b.subscribers.get? c = some sub → sub.skips call.res = false
  few : ∀ c sub, b.subscribers.get? c = some sub → ∀ P,
    (content sub).countP P + b.calls.countP (holds P c) ≤ started.countP P
  own : ∀ c sub, b.subscribers.get? c = some sub → ∀ userId, sub.userId = some userId →
    ∀ res ∈ content sub, res.userId = userId
  four : ∀ userId, streams b (some userId) ≤ 4

section Steps

lemma skips_of_userId (huser : sub'.userId = sub.userId) : sub'.skips res = sub.skips res := by
  simp only [Subscriber.skips, huser]

/-- The streams of a user, when the subscriber of a channel is another one. -/
lemma streams_set (h : b.subscribers.get? c = some sub) (huser : sub'.userId = sub.userId)
    (userId : Option Uuid) : streams (b.setSubscriber c sub') userId = streams b userId := by
  have hperm := Go.Map.perm_erase h
  have hset : (b.setSubscriber c sub').subscribers.entries
      = ⟨c, sub'⟩ :: (b.subscribers.erase c).entries := rfl
  rw [streams, hset, streams, (hperm.filter _).length_eq, List.filter_cons, List.filter_cons, huser]
  split_ifs <;> rfl

lemma streams_insert (b : Broadcaster) (c : ℕ) (sub : Subscriber) (userId : Option Uuid) :
    ((b.subscribers.insert c sub).entries.filter fun e => e.2.userId = userId).length
      ≤ streams b userId + if sub.userId = userId then 1 else 0 := by
  have hset : (b.subscribers.insert c sub).entries = ⟨c, sub⟩ :: (b.subscribers.erase c).entries := rfl
  have hsub : (b.subscribers.erase c).entries.Sublist b.subscribers.entries :=
    List.kerase_sublist c b.subscribers.entries
  have hle := (hsub.filter fun e => decide (e.2.userId = userId)).length_le
  rw [hset, List.filter_cons, streams]
  split_ifs with h1 h2 h2
  · exact Nat.succ_le_succ hle
  · exact absurd (of_decide_eq_true h1) h2
  · exact absurd (decide_eq_true h2) h1
  · exact hle

lemma streams_erase (b : Broadcaster) (c : ℕ) (userId : Option Uuid) :
    ((b.subscribers.erase c).entries.filter fun e => e.2.userId = userId).length
      ≤ streams b userId :=
  ((List.kerase_sublist c b.subscribers.entries).filter _).length_le

lemma once_new : Once new [] where
  todo _ h := by simp [new] at h
  turn _ h := by simp [new] at h
  few _ _ h := by simp [new] at h
  own _ _ h := by simp [new] at h
  four _ := by simp [streams, new]

lemma Once.subscribe (h : Once b started) (userId : Option Uuid)
    (hstep : step (.subscribe userId) b = some b') : Once b' started := by
  simp only [step] at hstep
  split_ifs at hstep with hidle hmany
  · obtain rfl := Option.some.inj hstep
    exact h
  · obtain rfl := Option.some.inj hstep
    have hcalls : b.calls = [] := List.isEmpty_iff.mp hidle
    refine ⟨h.todo, fun call hcall => by simp [hcalls] at hcall, fun c sub hsub P => ?_,
      fun c sub hsub => ?_, fun u => ?_⟩
    · rcases Go.Map.get?_insert_eq_some.mp hsub with ⟨rfl, rfl⟩ | ⟨-, hsub⟩
      · simp [content, Go.Chan.make, hcalls]
      · exact h.few c sub hsub P
    · rcases Go.Map.get?_insert_eq_some.mp hsub with ⟨rfl, rfl⟩ | ⟨-, hsub⟩
      · simp [content, Go.Chan.make]
      · exact h.own c sub hsub
    · have hle := streams_insert b b.opened ⟨userId, .make 64, [], []⟩ (some u)
      have hfour := h.four u
      split_ifs at hle with huser
      · have huser : userId = some u := huser
        have hnot : ¬ 4 ≤ streams b userId := fun hmore => hmany ⟨by simp [huser], hmore⟩
        rw [huser] at hnot
        exact hle.trans (by omega)
      · exact hle.trans hfour

lemma Once.unsubscribe (h : Once b started)
    (hstep : step (.unsubscribe c) b = some b') : Once b' started := by
  simp only [step] at hstep
  split_ifs at hstep
  obtain rfl := Option.some.inj hstep
  have hget : ∀ {c' sub}, Go.Map.get? (b.subscribers.erase c) c' = some sub →
      b.subscribers.get? c' = some sub := fun hsub => (Go.Map.get?_erase_eq_some.mp hsub).2
  exact ⟨h.todo, fun call hcall hphase c' rest htodo sub hsub =>
      h.turn call hcall hphase c' rest htodo sub (hget hsub),
    fun c' sub hsub => h.few c' sub (hget hsub), fun c' sub hsub => h.own c' sub (hget hsub),
    fun u => (streams_erase b c (some u)).trans (h.four u)⟩

lemma Once.broadcast (h : Once b started) {order : List ℕ}
    (hstep : step (.broadcast res order) b = some b') : Once b' (started ++ [res]) := by
  simp only [step] at hstep
  split_ifs at hstep with hperm
  obtain rfl := Option.some.inj hstep
  refine ⟨fun call hcall => ?_, fun call hcall => ?_, fun c sub hsub P => ?_, h.own, h.four⟩
  · rcases List.mem_append.mp hcall with hcall | hcall
    · exact h.todo call hcall
    · obtain rfl := List.mem_singleton.mp hcall
      exact hperm.nodup_iff.mpr b.subscribers.nodupKeys
  · rcases List.mem_append.mp hcall with hcall | hcall
    · exact h.turn call hcall
    · obtain rfl := List.mem_singleton.mp hcall
      exact fun hphase => absurd rfl hphase
  · have hfew := h.few c sub hsub P
    have hheld : (if holds P c ⟨res, order, .visit⟩ then 1 else 0) ≤ if P res then 1 else 0 := by
      unfold holds
      cases P res <;> simp
      split_ifs <;> omega
    rw [List.countP_append, List.countP_append, List.countP_singleton, List.countP_singleton]
    omega

/-- The copies that calls hold, when one of them moves. -/
lemma countP_set (q : BroadcastCall → Bool) (hcall : b.calls[i]? = some call) (call' : BroadcastCall) :
    (b.calls.set i call').countP q + (if q call then 1 else 0)
      = b.calls.countP q + if q call' then 1 else 0 := by
  have hset := Go.total_set (f := fun call => if q call then 1 else 0) hcall call'
  rwa [Go.total_countP, Go.total_countP] at hset

lemma holds_next (P : StatusResponse → Bool) (hnodup : call.todo.Nodup) (htodo : call.todo = c :: rest)
    (more : Option SendPhase) (c' : ℕ) :
    holds P c' (nextCall call rest more)
      = if c' = c then P call.res && more.isSome else holds P c' call := by
  rw [htodo] at hnodup
  cases more with
  | some phase =>
      by_cases hc : c' = c
      · simp [nextCall, holds, htodo, hc]
      · rw [if_neg hc]
        rfl
  | none =>
      by_cases hc : c' = c
      · subst hc
        simp [nextCall, holds, (List.nodup_cons.mp hnodup).1]
      · have hmem : c' ∈ rest ↔ c' ∈ call.todo := by simp [htodo, hc]
        rw [if_neg hc]
        exact congrArg (P call.res && ·) (decide_eq_decide.mpr hmem)

lemma Once.dispatch (h : Once b started) (hcall : b.calls[i]? = some call)
    (htodo : call.todo = c :: rest) (hsub : b.subscribers.get? c = some sub) :
    Once ((b.setSubscriber c (dispatch call sub).1).setCall i
      (nextCall call rest (dispatch call sub).2)) started := by
  have hmem := List.mem_of_getElem? hcall
  have hnodup := h.todo call hmem
  have hturn : call.phase ≠ .visit → sub.skips call.res = false := fun hphase =>
    h.turn call hmem hphase c rest htodo sub hsub
  have huser := dispatch_userId call sub
  refine ⟨fun call' hcall' => ?_, fun call' hcall' hphase c' rest' htodo' sub' hsub' => ?_,
    fun c' sub' hsub' P => ?_, fun c' sub' hsub' u hu r hr => ?_, fun u => ?_⟩
  · rcases List.mem_or_eq_of_mem_set hcall' with hcall' | rfl
    · exact h.todo call' hcall'
    · cases (Broadcaster.dispatch call sub).2 with
      | some phase => exact hnodup
      | none => exact (List.nodup_cons.mp (htodo ▸ hnodup)).2
  · -- the subscriber that a call makes room with is the one it has come to
    have hold : (∀ sub₁, b.subscribers.get? c' = some sub₁ → sub₁.skips call'.res = false) →
        sub'.skips call'.res = false := by
      intro hskips
      rcases Go.Map.get?_insert_eq_some.mp hsub' with ⟨rfl, rfl⟩ | ⟨-, hsub'⟩
      · rw [skips_of_userId huser]
        exact hskips sub hsub
      · exact hskips sub' hsub'
    rcases List.mem_or_eq_of_mem_set hcall' with hcall' | rfl
    · exact hold (h.turn call' hcall' hphase c' rest' htodo')
    · refine hold fun sub₁ hsub₁ => ?_
      cases hmore : (Broadcaster.dispatch call sub).2 with
      | none =>
          rw [hmore] at hphase
          exact absurd rfl hphase
      | some phase =>
          have hskip := dispatch_turn hturn (by rw [hmore]; rfl)
          rw [hmore] at htodo'
          obtain ⟨rfl, -⟩ := List.cons.inj (htodo.symm.trans htodo')
          rw [hsub] at hsub₁
          obtain rfl := Option.some.inj hsub₁
          exact hskip
  · have hset := countP_set (holds P c') hcall (nextCall call rest (Broadcaster.dispatch call sub).2)
    rw [holds_next P hnodup htodo] at hset
    change (content sub').countP P
      + (b.calls.set i (nextCall call rest (Broadcaster.dispatch call sub).2)).countP (holds P c')
        ≤ started.countP P
    rcases Go.Map.get?_insert_eq_some.mp hsub' with ⟨rfl, rfl⟩ | ⟨hne, hsub'⟩
    · have hfew := h.few c' sub hsub P
      have hcount := dispatch_countP P call sub
      have hheld : holds P c' call = P call.res := by simp [holds, htodo]
      rw [if_pos rfl, hheld] at hset
      omega
    · have hfew := h.few c' sub' hsub' P
      rw [if_neg hne] at hset
      omega
  · rcases Go.Map.get?_insert_eq_some.mp hsub' with ⟨rfl, rfl⟩ | ⟨-, hsub'⟩
    · rw [huser] at hu
      rcases mem_dispatch hturn hr with hold | ⟨rfl, hskip⟩
      · exact h.own c' sub hsub u hu r hold
      · simpa [Subscriber.skips, hu] using hskip
    · exact h.own c' sub' hsub' u hu r hr
  · exact (streams_set hsub huser (some u)).le.trans (h.four u)

lemma Once.read (h : Once b started) (hstep : step (.read c) b = some b') : Once b' started := by
  simp only [step] at hstep
  cases hsub : b.subscribers.get? c with
  | none => simp [hsub] at hstep
  | some sub =>
      rw [hsub] at hstep
      obtain ⟨p, hrecv, rfl⟩ := Option.map_eq_some_iff.mp hstep
      have hcontent : content { sub with ch := p.2, read := sub.read ++ [p.1] } = content sub := by
        rw [content, content, Go.Chan.buf_recv hrecv, ← List.append_cons]
      refine ⟨h.todo, fun call hcall hphase c' rest htodo sub' hsub' => ?_, fun c' sub' hsub' P => ?_,
        fun c' sub' hsub' => ?_, fun u => ?_⟩
      · rcases Go.Map.get?_insert_eq_some.mp hsub' with ⟨rfl, rfl⟩ | ⟨-, hsub'⟩
        · exact h.turn call hcall hphase c' rest htodo sub hsub
        · exact h.turn call hcall hphase c' rest htodo sub' hsub'
      · rcases Go.Map.get?_insert_eq_some.mp hsub' with ⟨rfl, rfl⟩ | ⟨-, hsub'⟩
        · rw [hcontent]
          exact h.few c' sub hsub P
        · exact h.few c' sub' hsub' P
      · rcases Go.Map.get?_insert_eq_some.mp hsub' with ⟨rfl, rfl⟩ | ⟨-, hsub'⟩
        · rw [hcontent]
          exact h.own c' sub hsub
        · exact h.own c' sub' hsub'
      · refine le_of_eq_of_le (streams_set hsub ?_ (some u)) (h.four u)
        rfl

/-- Every action keeps the invariant. -/
theorem Once.step (h : Once b started) {a : Action} (hstep : step a b = some b') :
    Once b' (started ++ a.starts) := by
  cases a with
  | subscribe userId => simpa [Action.starts] using h.subscribe userId hstep
  | unsubscribe c => simpa [Action.starts] using h.unsubscribe hstep
  | broadcast res order => exact h.broadcast hstep
  | advance i =>
      rw [Action.starts, List.append_nil]
      obtain ⟨-, rfl⟩ | ⟨call, c, rest, sub, hcall, htodo, hsub, rfl⟩ := advance_eq_some hstep
      · have hsub : (b.calls.eraseIdx i).Sublist b.calls := List.eraseIdx_sublist b.calls i
        exact ⟨fun call hcall => h.todo call (hsub.subset hcall),
          fun call hcall => h.turn call (hsub.subset hcall),
          fun c sub hget P => (Nat.add_le_add_left hsub.countP_le _).trans (h.few c sub hget P),
          h.own, h.four⟩
      · exact h.dispatch hcall htodo hsub
  | read c => simpa [Action.starts] using h.read hstep

end Steps

/-! ## Runs -/

lemma Once.run (h : Once b started) {as : List Action}
    (hrun : Go.run Broadcaster.step as b = some b') :
    Once b' (started ++ as.flatMap Action.starts) := by
  induction as generalizing b started with
  | nil =>
      obtain rfl := Option.some.inj hrun
      simpa using h
  | cons a as ih =>
      obtain ⟨b₁, hstep, hrest⟩ := Option.bind_eq_some_iff.mp hrun
      have hall := ih (h.step hstep) hrest
      rwa [List.append_assoc] at hall

/-- **Who gets a result, and how often.**  In every interleaving of subscriptions, concurrent broadcasts
and reads, a user has four streams at most, a stream has only results of its user, and of the results of a
kind no more than there were calls with one. -/
theorem delivered_once {as : List Action} (hrun : Go.run step as new = some b) :
    (∀ userId, streams b (some userId) ≤ 4) ∧
      ∀ c sub, b.subscribers.get? c = some sub →
        (∀ userId, sub.userId = some userId → ∀ res ∈ content sub, res.userId = userId) ∧
          ∀ P, (content sub).countP P ≤ (as.flatMap Action.starts).countP P := by
  have honce := once_new.run hrun
  refine ⟨honce.four, fun c sub hsub => ⟨honce.own c sub hsub, fun P => ?_⟩⟩
  have hfew := honce.few c sub hsub P
  rw [List.nil_append] at hfew
  omega

theorem delivered_once_sample :
    ∃ b, Go.run step sampleLoss new = some b ∧ (∀ userId, streams b (some userId) ≤ 4) ∧
      ∀ c sub, b.subscribers.get? c = some sub →
        (∀ userId, sub.userId = some userId → ∀ res ∈ content sub, res.userId = userId) ∧
          ∀ P, (content sub).countP P ≤ (sampleLoss.flatMap Action.starts).countP P := by
  obtain ⟨b, hb⟩ : ∃ b, Go.run step sampleLoss new = some b :=
    Option.isSome_iff_exists.mp (by decide +kernel)
  exact ⟨b, hb, delivered_once hb⟩

end Broadcaster

end Labyrithm
