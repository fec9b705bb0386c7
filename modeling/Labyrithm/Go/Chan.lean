import Mathlib.Algebra.Order.Group.Multiset
import Mathlib.Tactic.Common

/-!
# Buffered channels

Go's `chan`, for a channel with a buffer: a queue that never holds more than its capacity.  `send` and
`recv` are `none` where the operation would block.  As a pool of tokens a channel is the bag of what is
in it (`Chan.bag`).
-/

namespace Go

/-- A channel with a buffer. -/
structure Chan (α : Type) where
  cap : ℕ
  buf : List α
  bounded : buf.length ≤ cap

namespace Chan

variable {α : Type} {ch ch' : Chan α} {x : α}

/-- `make(chan α, cap)`. -/
def make (cap : ℕ) : Chan α := ⟨cap, [], Nat.zero_le _⟩

/-- `len(ch)`. -/
def len (ch : Chan α) : ℕ := ch.buf.length

/-- `ch <- x`. -/
def send (ch : Chan α) (x : α) : Option (Chan α) :=
  if h : ch.buf.length < ch.cap then some ⟨ch.cap, ch.buf ++ [x], by simpa using Nat.succ_le_of_lt h⟩ else none

/-- `<-ch`. -/
def recv (ch : Chan α) : Option (α × Chan α) :=
  match h : ch.buf with
  | [] => none
  | x :: rest => some (x, ⟨ch.cap, rest, by
      have := ch.bounded
      rw [h, List.length_cons] at this
      omega⟩)

/-- What is in the channel, whatever the order. -/
def bag (ch : Chan α) : Multiset α := ch.buf

lemma len_le_cap (ch : Chan α) : ch.len ≤ ch.cap := ch.bounded

@[simp] lemma card_bag (ch : Chan α) : Multiset.card ch.bag = ch.len := rfl

@[simp] lemma bag_make (cap : ℕ) : (make cap : Chan α).bag = 0 := rfl

@[simp] lemma len_make (cap : ℕ) : (make cap : Chan α).len = 0 := rfl

lemma send_eq_some (h : ch.send x = some ch') :
    ch'.cap = ch.cap ∧ ch'.bag = ch.bag + {x} ∧ ch.len < ch.cap := by
  unfold send at h
  split_ifs at h with hlt
  cases h
  exact ⟨rfl, (Multiset.coe_add ch.buf [x]).symm, hlt⟩

/-- What is sent comes last. -/
lemma buf_send (h : ch.send x = some ch') : ch'.buf = ch.buf ++ [x] := by
  unfold send at h
  split_ifs at h
  cases h
  rfl

/-- There is room for whatever the channel has lost. -/
lemma send_isSome (h : ch.len < ch.cap) (x : α) : (ch.send x).isSome := by
  have h : ch.buf.length < ch.cap := h
  simp [send, h]

lemma recv_eq_some (h : ch.recv = some (x, ch')) :
    ch'.cap = ch.cap ∧ ch.bag = ch'.bag + {x} := by
  unfold recv at h
  split at h
  · cases h
  · next y rest hbuf =>
    cases h
    have hcons : (ch.buf : Multiset α) = {x} + (rest : Multiset α) := by
      rw [hbuf, ← Multiset.cons_coe, Multiset.singleton_add]
    exact ⟨rfl, hcons.trans (add_comm _ _)⟩

/-- What is received was first. -/
lemma buf_recv (h : ch.recv = some (x, ch')) : ch.buf = x :: ch'.buf := by
  unfold recv at h
  split at h
  · cases h
  · next y rest hbuf =>
    cases h
    exact hbuf

/-- There is something to receive. -/
lemma recv_isSome (h : 0 < ch.len) : ch.recv.isSome := by
  unfold recv
  split
  · next hbuf => simp [len, hbuf] at h
  · rfl

end Chan

end Go
