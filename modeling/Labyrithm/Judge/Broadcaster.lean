import Labyrithm.Go.Chan
import Labyrithm.Go.Map
import Labyrithm.Go.Runs
import Labyrithm.Judge.Versions

/-!
# Results on a live stream

`backend/internal/judge/broadcaster.go`, lines 48–104.  A subscriber has a channel of 64 results.
`BroadcastLocal` visits the subscribers under the read lock, so any number of calls run at once, and
none while somebody subscribes or leaves; each of its channel operations is an atomic section, and so
is each read of a subscriber.  A progress update that finds a channel full is dropped.  A result finds
room by taking the oldest entry out, whatever that is, and then tries once more.

The state keeps two histories of each subscriber: the results dispatched to it and what it has read.

**`Broadcaster.results_kept`** — no result is lost in a run in which no result is taken out to make room, and
no room made is filled by another call before the result is sent; and the first step that breaks this
does lose one.
-/

namespace Labyrithm

/-- A subscriber: the user it is for (none means all of them) and its channel; and, as history, the
results dispatched to it and what it has read. -/
structure Subscriber where
  userId : Option Uuid
  ch : Go.Chan StatusResponse
  dispatched : List StatusResponse
  read : List StatusResponse

/-- Where a call of `BroadcastLocal` is with its next subscriber. -/
inductive SendPhase
  /-- about to send -/
  | visit
  /-- the channel was full: about to take the oldest entry out -/
  | drop
  /-- about to send again -/
  | resend
  deriving DecidableEq, Repr

/-- A call of `BroadcastLocal`: the subscribers it has still to visit, in the order of its `range`. -/
structure BroadcastCall where
  res : StatusResponse
  todo : List ℕ
  phase : SendPhase

/-- The broadcaster: its subscribers by channel, the number of channels made so far, and the calls
that hold the read lock. -/
structure Broadcaster where
  subscribers : Go.Map ℕ Subscriber
  opened : ℕ
  calls : List BroadcastCall

namespace Subscriber

/-- `subUserID != "" && res.UserID != subUserID`. -/
def skips (sub : Subscriber) (res : StatusResponse) : Bool :=
  sub.userId.any fun userId => res.userId ≠ userId

/-- The history of the results dispatched: progress updates are not recorded. -/
def note (sub : Subscriber) (res : StatusResponse) : Subscriber :=
  if res.status.terminal then { sub with dispatched := sub.dispatched ++ [res] } else sub

end Subscriber

namespace Broadcaster

/-- `NewBroadcaster`. -/
def new : Broadcaster := ⟨∅, 0, []⟩

def setSubscriber (b : Broadcaster) (c : ℕ) (sub : Subscriber) : Broadcaster :=
  { b with subscribers := b.subscribers.insert c sub }

def setCall (b : Broadcaster) (i : ℕ) (call : BroadcastCall) : Broadcaster :=
  { b with calls := b.calls.set i call }

/-- The atomic sections. -/
inductive Action
  | subscribe (userId : Option Uuid)
  | unsubscribe (c : ℕ)
  /-- a call of `BroadcastLocal` takes the read lock and ranges over the subscribers in this order -/
  | broadcast (res : StatusResponse) (order : List ℕ)
  /-- the next channel operation of the call `i`, or its end -/
  | advance (i : ℕ)
  | read (c : ℕ)

/-- The next channel operation of a call, on one subscriber: what becomes of the subscriber, and where
the call then is with it, if it is not done with it. -/
def dispatch (call : BroadcastCall) (sub : Subscriber) : Subscriber × Option SendPhase :=
  match call.phase with
  | .visit =>
      if sub.skips call.res then (sub, none)
      else
        match sub.ch.send call.res with
        | some ch => ({ sub with ch := ch }.note call.res, none)
        | none => (sub, if call.res.status.terminal then some .drop else none)
  | .drop =>
      match sub.ch.recv with
      | some (_, ch) => ({ sub with ch := ch }, some .resend)
      | none => (sub, some .resend)
  | .resend =>
      match sub.ch.send call.res with
      | some ch => ({ sub with ch := ch }.note call.res, none)
      | none => (sub.note call.res, none)

/-- The call goes on with its subscriber, or with the rest. -/
def nextCall (call : BroadcastCall) (rest : List ℕ) : Option SendPhase → BroadcastCall
  | some phase => { call with phase := phase }
  | none => { call with todo := rest, phase := .visit }

def step : Action → Broadcaster → Option Broadcaster
  | .subscribe userId, b =>
      if b.calls.isEmpty then
        if userId.isSome ∧ 4 ≤ (b.subscribers.entries.filter fun e => e.2.userId = userId).length
        then some b
        else some { b with
          subscribers := b.subscribers.insert b.opened ⟨userId, .make 64, [], []⟩
          opened := b.opened + 1 }
      else none
  | .unsubscribe c, b =>
      if b.calls.isEmpty then some { b with subscribers := b.subscribers.erase c } else none
  | .broadcast res order, b =>
      if order.Perm b.subscribers.keys then
        some { b with calls := b.calls ++ [⟨res, order, .visit⟩] }
      else none
  | .advance i, b =>
      match b.calls[i]? with
      | none => none
      | some call =>
          match call.todo with
          | [] => some { b with calls := b.calls.eraseIdx i }
          | c :: rest => (b.subscribers.get? c).map fun sub =>
              (b.setSubscriber c (dispatch call sub).1).setCall i
                (nextCall call rest (dispatch call sub).2)
  | .read c, b =>
      match b.subscribers.get? c with
      | none => none
      | some sub => sub.ch.recv.map fun p =>
          b.setSubscriber c { sub with ch := p.2, read := sub.read ++ [p.1] }

/-- The call takes a result out of the channel, or finds the room it has made filled. -/
def loses (call : BroadcastCall) (sub : Subscriber) : Bool :=
  match call.phase with
  | .visit => false
  | .drop => sub.ch.recv.any fun p => p.1.status.terminal
  | .resend => (sub.ch.send call.res).isNone

/-- The action takes no result out of a channel to make room, and finds the room made. -/
def spares : Action → Broadcaster → Bool
  | .advance i, b =>
      match b.calls[i]? with
      | none => true
      | some call =>
          match call.todo with
          | [] => true
          | c :: _ => (b.subscribers.get? c).all fun sub => !loses call sub
  | _, _ => true

def Spares (a : Action) (b : Broadcaster) : Prop := spares a b

instance (a : Action) (b : Broadcaster) : Decidable (Spares a b) :=
  inferInstanceAs (Decidable (spares a b = true))

/-- Every result dispatched to a subscriber has been read, or is in its channel. -/
def Kept (b : Broadcaster) : Prop :=
  ∀ c sub, b.subscribers.get? c = some sub →
    (sub.dispatched : Multiset StatusResponse) ≤ (sub.read ++ sub.ch.buf : List StatusResponse)

/-! ## One subscriber -/

/-- The results among the entries `l`. -/
def results (l : List StatusResponse) : Multiset StatusResponse :=
  (l : Multiset StatusResponse).filter fun res => res.status.terminal

/-- What has been dispatched to the subscriber is what it has read and has still to read. -/
def Balanced (sub : Subscriber) : Prop :=
  (sub.dispatched : Multiset StatusResponse) = results (sub.read ++ sub.ch.buf)

variable {b b' : Broadcaster} {sub sub' : Subscriber} {call : BroadcastCall} {i c : ℕ}
  {rest : List ℕ} {res x : StatusResponse} {ch : Go.Chan StatusResponse}

lemma results_append (l l' : List StatusResponse) : results (l ++ l') = results l + results l' := by
  rw [results, ← Multiset.coe_add, Multiset.filter_add]
  rfl

lemma results_singleton (res : StatusResponse) :
    results [res] = if res.status.terminal then {res} else 0 := by
  rw [results, Multiset.coe_singleton, Multiset.filter_singleton]
  rfl

/-- A subscriber that misses a result is one result short. -/
lemma not_le_of_short {d : Multiset StatusResponse} {l : List StatusResponse}
    (hterm : res.status.terminal) (h : d = results l + {res}) :
    ¬ d ≤ (l : Multiset StatusResponse) := by
  intro hle
  have hfilter := Multiset.filter_le_filter (fun res => res.status.terminal = true) hle
  have hd : d.filter (fun res => res.status.terminal = true) = d := by
    rw [h, results, Multiset.filter_add, Multiset.filter_filter, Multiset.filter_singleton, if_pos hterm]
    simp
  rw [hd, h] at hfilter
  have hcard := Multiset.card_le_card hfilter
  rw [Multiset.card_add, Multiset.card_singleton, results] at hcard
  omega

lemma Balanced.kept (h : Balanced sub) :
    (sub.dispatched : Multiset StatusResponse) ≤ (sub.read ++ sub.ch.buf : List StatusResponse) := by
  rw [h]
  exact Multiset.filter_le _ _

/-- A dispatch adds its result, if it is one, to the history. -/
lemma dispatched_note : ((sub.note res).dispatched : Multiset StatusResponse)
    = sub.dispatched + results [res] := by
  rw [results_singleton, Subscriber.note]
  split_ifs with hterm
  · exact (Multiset.coe_add _ _).symm
  · simp

lemma Balanced.sent (h : Balanced sub) (hsend : sub.ch.send res = some ch) :
    Balanced ({ sub with ch := ch }.note res) := by
  have hread : ({ sub with ch := ch }.note res).read ++ ({ sub with ch := ch }.note res).ch.buf
      = (sub.read ++ sub.ch.buf) ++ [res] := by
    unfold Subscriber.note
    split_ifs <;> simp [Go.Chan.buf_send hsend]
  rw [Balanced, dispatched_note, hread, results_append, ← h]

lemma results_dropped (hrecv : sub.ch.recv = some (x, ch)) :
    results (sub.read ++ sub.ch.buf) = results (sub.read ++ ch.buf) + results [x] := by
  rw [Go.Chan.buf_recv hrecv, List.append_cons, results_append, results_append, results_append]
  exact add_right_comm _ _ _

/-- A progress update is taken out. -/
lemma Balanced.dropped (h : Balanced sub) (hrecv : sub.ch.recv = some (x, ch))
    (hx : x.status.terminal = false) : Balanced { sub with ch := ch } := by
  have hsame : results (sub.read ++ ch.buf) = results (sub.read ++ sub.ch.buf) := by
    rw [results_dropped hrecv, results_singleton, hx]
    exact (add_zero _).symm
  exact h.trans hsame.symm

/-- An entry is read. -/
lemma Balanced.took (h : Balanced sub) (hrecv : sub.ch.recv = some (x, ch)) :
    Balanced { sub with ch := ch, read := sub.read ++ [x] } := by
  have hsame : (sub.read ++ [x]) ++ ch.buf = sub.read ++ sub.ch.buf := by
    rw [Go.Chan.buf_recv hrecv, ← List.append_cons]
  rw [Balanced]
  simp only [hsame]
  exact h

/-! ## One operation -/

/-- An operation that loses nothing keeps the balance. -/
lemma Balanced.dispatch (h : Balanced sub) (hspares : loses call sub = false) :
    Balanced (dispatch call sub).1 := by
  unfold Broadcaster.dispatch
  unfold loses at hspares
  cases hphase : call.phase with
  | visit =>
      by_cases hskip : sub.skips call.res
      · simpa [hskip] using h
      · cases hsend : sub.ch.send call.res with
        | some ch => simpa [hskip] using h.sent hsend
        | none => simpa [hskip] using h
  | drop =>
      cases hrecv : sub.ch.recv with
      | some p => exact h.dropped hrecv (by simpa [hphase, hrecv] using hspares)
      | none => exact h
  | resend =>
      cases hsend : sub.ch.send call.res with
      | some ch => exact h.sent hsend
      | none => simp [hphase, hsend] at hspares

/-- An operation that loses a result leaves its subscriber short. -/
lemma Balanced.short (h : Balanced sub) (hloses : loses call sub = true)
    (hterm : call.phase ≠ .visit → call.res.status.terminal) :
    ¬ ((Broadcaster.dispatch call sub).1.dispatched : Multiset StatusResponse)
      ≤ ((Broadcaster.dispatch call sub).1.read ++ (Broadcaster.dispatch call sub).1.ch.buf :
        List StatusResponse) := by
  unfold Broadcaster.dispatch
  unfold loses at hloses
  cases hphase : call.phase with
  | visit => simp [hphase] at hloses
  | drop =>
      cases hrecv : sub.ch.recv with
      | none => simp [hphase, hrecv] at hloses
      | some p =>
          have hx : p.1.status.terminal = true := by simpa [hphase, hrecv] using hloses
          refine not_le_of_short hx ?_
          rw [h, results_dropped hrecv, results_singleton, if_pos hx]
  | resend =>
      cases hsend : sub.ch.send call.res with
      | some ch => simp [hphase, hsend] at hloses
      | none =>
          have hres := hterm (by simp [hphase])
          refine not_le_of_short hres ?_
          have hsame : (sub.note call.res).read ++ (sub.note call.res).ch.buf
              = sub.read ++ sub.ch.buf := by
            unfold Subscriber.note
            split_ifs
            rfl
          rw [dispatched_note, hsame, h, results_singleton, if_pos hres]

/-! ## Runs -/

/-- The subscribers are balanced, and whoever makes room does so for a result. -/
structure Sound (b : Broadcaster) : Prop where
  balanced : ∀ c sub, b.subscribers.get? c = some sub → Balanced sub
  calls : ∀ call ∈ b.calls, call.phase ≠ .visit → call.res.status.terminal

lemma Sound.kept (h : b.Sound) : b.Kept := fun c sub hsub => (h.balanced c sub hsub).kept

lemma sound_new : Sound new where
  balanced c sub hsub := by simp [new] at hsub
  calls call hcall := by simp [new] at hcall

/-- A call that goes on to make room has a result to send. -/
lemma next_calls (h : call.phase ≠ .visit → call.res.status.terminal) :
    (nextCall call rest (dispatch call sub).2).phase ≠ .visit →
      (nextCall call rest (dispatch call sub).2).res.status.terminal := by
  unfold dispatch
  cases hphase : call.phase with
  | visit =>
      by_cases hskip : sub.skips call.res
      · simp [hskip, nextCall]
      · cases sub.ch.send call.res with
        | some ch => simp [hskip, nextCall]
        | none =>
            by_cases hterm : call.res.status.terminal
            · simp [hskip, hterm, nextCall]
            · simp [hskip, hterm, nextCall]
  | drop =>
      have hterm := h (by simp [hphase])
      cases sub.ch.recv <;> exact fun _ => hterm
  | resend => cases sub.ch.send call.res <;> simp [nextCall]

/-- The operation of a call, from the parts it is made of. -/
lemma advance_eq_some (h : step (.advance i) b = some b') :
    (b.calls[i]?.any fun call => call.todo.isEmpty) ∧ b' = { b with calls := b.calls.eraseIdx i } ∨
      ∃ call c rest sub, b.calls[i]? = some call ∧ call.todo = c :: rest ∧
        b.subscribers.get? c = some sub ∧
        b' = (b.setSubscriber c (dispatch call sub).1).setCall i
          (nextCall call rest (dispatch call sub).2) := by
  simp only [step] at h
  cases hcall : b.calls[i]? with
  | none => simp [hcall] at h
  | some call =>
      rw [hcall] at h
      simp only at h
      cases htodo : call.todo with
      | nil =>
          rw [htodo] at h
          exact Or.inl ⟨by simp [htodo], (Option.some.inj h).symm⟩
      | cons c rest =>
          rw [htodo] at h
          simp only at h
          obtain ⟨sub, hsub, rfl⟩ := Option.map_eq_some_iff.mp h
          exact Or.inr ⟨call, c, rest, sub, rfl, htodo, hsub, rfl⟩

theorem Sound.step (h : b.Sound) {a : Action} (hok : Spares a b) (hstep : step a b = some b') :
    b'.Sound := by
  cases a with
  | subscribe userId =>
      simp only [Broadcaster.step] at hstep
      split_ifs at hstep
      · obtain rfl := Option.some.inj hstep
        exact h
      · obtain rfl := Option.some.inj hstep
        refine ⟨fun c sub hsub => ?_, h.calls⟩
        rcases Go.Map.get?_insert_eq_some.mp hsub with ⟨rfl, rfl⟩ | ⟨-, hsub⟩
        · rfl
        · exact h.balanced c sub hsub
  | unsubscribe c =>
      simp only [Broadcaster.step] at hstep
      split_ifs at hstep
      obtain rfl := Option.some.inj hstep
      exact ⟨fun c' sub hsub => h.balanced c' sub (Go.Map.get?_erase_eq_some.mp hsub).2, h.calls⟩
  | broadcast res order =>
      simp only [Broadcaster.step] at hstep
      split_ifs at hstep
      obtain rfl := Option.some.inj hstep
      refine ⟨h.balanced, fun call hcall => ?_⟩
      rcases List.mem_append.mp hcall with hcall | hcall
      · exact h.calls call hcall
      · obtain rfl := List.mem_singleton.mp hcall
        exact fun hne => absurd rfl hne
  | advance i =>
      obtain ⟨-, rfl⟩ | ⟨call, c, rest, sub, hcall, htodo, hsub, rfl⟩ := advance_eq_some hstep
      · exact ⟨h.balanced, fun call hcall => h.calls call (List.mem_of_mem_eraseIdx hcall)⟩
      · have hspares : loses call sub = false := by
          simpa [Spares, spares, hcall, htodo, hsub] using hok
        refine ⟨fun c' sub' hsub' => ?_, fun call' hcall' => ?_⟩
        · rcases Go.Map.get?_insert_eq_some.mp hsub' with ⟨-, rfl⟩ | ⟨-, hsub'⟩
          · exact (h.balanced c sub hsub).dispatch hspares
          · exact h.balanced c' sub' hsub'
        · rcases List.mem_or_eq_of_mem_set hcall' with hcall' | rfl
          · exact h.calls call' hcall'
          · exact next_calls (h.calls call (List.mem_of_getElem? hcall))
  | read c =>
      simp only [Broadcaster.step] at hstep
      cases hsub : b.subscribers.get? c with
      | none => simp [hsub] at hstep
      | some sub =>
          rw [hsub] at hstep
          obtain ⟨p, hrecv, rfl⟩ := Option.map_eq_some_iff.mp hstep
          refine ⟨fun c' sub' hsub' => ?_, h.calls⟩
          rcases Go.Map.get?_insert_eq_some.mp hsub' with ⟨-, rfl⟩ | ⟨-, hsub'⟩
          · exact (h.balanced c sub hsub).took hrecv
          · exact h.balanced c' sub' hsub'

/-- A step that is not spared loses a result. -/
lemma Sound.lost (h : b.Sound) {a : Action} (hstep : Broadcaster.step a b = some b')
    (hkept : b'.Kept) : Spares a b := by
  cases a with
  | advance i =>
      obtain ⟨hempty, -⟩ | ⟨call, c, rest, sub, hcall, htodo, hsub, rfl⟩ := advance_eq_some hstep
      · cases hcall : b.calls[i]? with
        | none => simp [Spares, spares, hcall]
        | some call =>
            have htodo : call.todo = [] := by simpa [hcall] using hempty
            simp [Spares, spares, hcall, htodo]
      · cases hloses : loses call sub with
        | false => simp [Spares, spares, hcall, htodo, hsub, hloses]
        | true =>
            refine absurd (hkept c _ ?_) ((h.balanced c sub hsub).short hloses
              (h.calls call (List.mem_of_getElem? hcall)))
            exact Go.Map.get?_insert_eq_some.mpr (Or.inl ⟨rfl, rfl⟩)
  | _ => rfl

/-- **Results on a live stream.**  In every interleaving of subscriptions, concurrent broadcasts and
reads in which no result is taken out of a channel to make room, and whoever has made room finds it,
every result dispatched to a subscriber has been read or is in its channel.  The first step that
breaks the condition loses a result. -/
theorem results_kept (h : Go.ReachIf step Spares new b) :
    b.Kept ∧ ∀ a b', step a b = some b' → b'.Kept → Spares a b := by
  have hsound : b.Sound := h.invariant sound_new fun a s s' hs hok hstep => hs.step hok hstep
  exact ⟨hsound.kept, fun a b' hstep hkept => hsound.lost hstep hkept⟩

/-! ## A reader that falls behind -/

/-- A result of the submission `id`, or an update of its progress. -/
def sampleResult (id : Uuid) (status : Status) : StatusResponse where
  submissionId := id
  userId := 1
  teamId := 1
  problemId := 7
  status := status
  verdict := none
  score := 0
  maxScore := 100
  testsTotal := 2
  testsDone := 1
  compileError := none
  queuePosition := none
  tests := []
  createdAt := 0
  finishedAt := none
  attemptStartedAt := none

/-- Broadcast `res` to the one subscriber, with `n` channel operations. -/
def sampleBroadcast (n : ℕ) (res : StatusResponse) : List Action :=
  .broadcast res [0] :: List.replicate (n + 1) (.advance 0)

/-- 64 updates of which one has been read, and two results: the second one makes room. -/
def sampleOverflow : List Action :=
  .subscribe (some 1) ::
    (List.replicate 64 (sampleBroadcast 1 (sampleResult 11 .running))).flatten ++
    .read 0 :: sampleBroadcast 1 (sampleResult 11 .passed) ++
    sampleBroadcast 3 (sampleResult 12 .failed)

/-- One result, 63 updates, and another result: the first one makes room for it. -/
def sampleLoss : List Action :=
  .subscribe (some 1) :: sampleBroadcast 1 (sampleResult 11 .passed) ++
    (List.replicate 63 (sampleBroadcast 1 (sampleResult 12 .running))).flatten ++
    sampleBroadcast 3 (sampleResult 12 .failed)

/-- Room is made by dropping progress updates, and both results wait for the reader. -/
theorem results_kept_sample :
    (Go.runIf step Spares sampleOverflow new).isSome ∧
      ((Go.runIf step Spares sampleOverflow new).getD new).Kept :=
  ⟨by decide +kernel, (results_kept (Go.ReachIf.runIf_getD sampleOverflow)).1⟩

/-- The result of one submission pushes that of another out of the channel, unread. -/
theorem results_lost :
    ∃ b, Go.run step sampleLoss new = some b ∧
      ((b.subscribers.get? 0).any fun sub =>
        sub.dispatched = [sampleResult 11 .passed, sampleResult 12 .failed] ∧ sub.read = [] ∧
          sampleResult 11 .passed ∉ sub.ch.buf) ∧
      ¬ b.Kept := by
  obtain ⟨b, hb⟩ : ∃ b, Go.run step sampleLoss new = some b :=
    Option.isSome_iff_exists.mp (by decide +kernel)
  have hlost : (Go.run step sampleLoss new).all fun b => (b.subscribers.get? 0).any fun sub =>
      sub.dispatched = [sampleResult 11 .passed, sampleResult 12 .failed] ∧ sub.read = [] ∧
        sampleResult 11 .passed ∉ sub.ch.buf := by decide +kernel
  rw [hb, Option.all_some] at hlost
  refine ⟨b, hb, hlost, fun hkept => ?_⟩
  obtain ⟨sub, hsub, hstate⟩ := Option.any_eq_true _ _ |>.mp hlost
  obtain ⟨hdispatched, hread, hgone⟩ := of_decide_eq_true hstate
  have hle := hkept 0 sub hsub
  rw [hdispatched, hread] at hle
  exact hgone (by simpa using Multiset.subset_of_le hle (by simp))

end Broadcaster

end Labyrithm
