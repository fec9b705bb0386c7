import Mathlib.Data.List.Basic
import Mathlib.Tactic.Common

/-!
# Interleaved runs

A system whose atomic sections are taken in any order: `step a s` is the state after the section `a`,
or `none` where `a` cannot be taken.  A section stands for what one thread does without another in
between, so a list of actions is one interleaving.

* `Reach` — the states that some interleaving leads to, `Reach.invariant` what holds of all of them.
* `run` — one interleaving, executable; `Reach.of_run` makes its result a reachable state.
* `ReachIf` — the states that are reached under a condition on every step.
* `foldl_keeps_iff` — the runs of one thread that keep an invariant.
* `At` — the events of a history by their position, which is their time.
-/

namespace Go

variable {σ α : Type}

/-- The states reached from `start`. -/
inductive Reach (step : α → σ → Option σ) (start : σ) : σ → Prop
  | start : Reach step start start
  | step {s s' : σ} (a : α) : Reach step start s → step a s = some s' → Reach step start s'

/-- One interleaving. -/
def run (step : α → σ → Option σ) : List α → σ → Option σ
  | [], s => some s
  | a :: as, s => (step a s).bind (run step as)

variable {step : α → σ → Option σ} {start s : σ}

lemma Reach.of_run_from {as : List α} {t : σ} (hs : Reach step start s)
    (h : run step as s = some t) : Reach step start t := by
  induction as generalizing s with
  | nil =>
      obtain rfl := Option.some.inj h
      exact hs
  | cons a as ih =>
      obtain ⟨s', hstep, hrun⟩ := Option.bind_eq_some_iff.mp h
      exact ih (hs.step a hstep) hrun

/-- An interleaving that can be taken leads to a reachable state. -/
lemma Reach.of_run {as : List α} {t : σ} (h : run step as start = some t) : Reach step start t :=
  Reach.start.of_run_from h

/-- Where an interleaving leads, if it can be taken, is reachable. -/
lemma Reach.run_getD (as : List α) : Reach step start ((run step as start).getD start) := by
  cases h : run step as start with
  | none => exact Reach.start
  | some t => exact Reach.of_run h

/-- What holds at the start and survives every section holds of every reachable state. -/
lemma Reach.invariant {P : σ → Prop} (hstart : P start)
    (hstep : ∀ a s s', P s → step a s = some s' → P s') (h : Reach step start s) : P s := by
  induction h with
  | start => exact hstart
  | step a _ hs ih => exact hstep a _ _ ih hs

/-- The same with the help of an invariant known already. -/
lemma Reach.invariant_of {I P : σ → Prop} (hI : ∀ s, Reach step start s → I s) (hstart : P start)
    (hstep : ∀ a s s', I s → P s → step a s = some s' → P s') (h : Reach step start s) : P s := by
  induction h with
  | start => exact hstart
  | step a hr hs ih => exact hstep a _ _ (hI _ hr) ih hs

/-- The states reached by steps that each meet a condition, on the action and the state before. -/
inductive ReachIf (step : α → σ → Option σ) (ok : α → σ → Prop) (start : σ) : σ → Prop
  | start : ReachIf step ok start start
  | step {s s' : σ} (a : α) : ReachIf step ok start s → ok a s → step a s = some s' →
      ReachIf step ok start s'

/-- An interleaving whose steps meet the condition, executable. -/
def runIf (step : α → σ → Option σ) (ok : α → σ → Prop) [∀ a s, Decidable (ok a s)] :
    List α → σ → Option σ
  | [], s => some s
  | a :: as, s => if ok a s then (step a s).bind (runIf step ok as) else none

lemma ReachIf.of_runIf_from {ok : α → σ → Prop} [∀ a s, Decidable (ok a s)] {as : List α} {t : σ}
    (hs : ReachIf step ok start s) (h : runIf step ok as s = some t) : ReachIf step ok start t := by
  induction as generalizing s with
  | nil =>
      obtain rfl := Option.some.inj h
      exact hs
  | cons a as ih =>
      obtain ⟨hok, h⟩ := Option.ite_none_right_eq_some.mp h
      obtain ⟨s', hstep, hrun⟩ := Option.bind_eq_some_iff.mp h
      exact ih (hs.step a hok hstep) hrun

/-- Where an interleaving under the condition leads, if it can be taken, is reached under it. -/
lemma ReachIf.runIf_getD {ok : α → σ → Prop} [∀ a s, Decidable (ok a s)] (as : List α) :
    ReachIf step ok start ((runIf step ok as start).getD start) := by
  cases h : runIf step ok as start with
  | none => exact ReachIf.start
  | some t => exact ReachIf.start.of_runIf_from h

lemma ReachIf.invariant {ok : α → σ → Prop} {P : σ → Prop} (hstart : P start)
    (hstep : ∀ a s s', P s → ok a s → step a s = some s' → P s')
    (h : ReachIf step ok start s) : P s := by
  induction h with
  | start => exact hstart
  | step a _ hok hs ih => exact hstep a _ _ ih hok hs

/-- The condition may be forgotten. -/
lemma ReachIf.reach {ok : α → σ → Prop} (h : ReachIf step ok start s) : Reach step start s := by
  induction h with
  | start => exact Reach.start
  | step a _ _ hs ih => exact ih.step a hs

/-- The condition may be weakened. -/
lemma ReachIf.mono {ok weaker : α → σ → Prop} (himp : ∀ a s, ok a s → weaker a s)
    (h : ReachIf step ok start s) : ReachIf step weaker start s := by
  induction h with
  | start => exact ReachIf.start
  | step a _ hok hs ih => exact ih.step a (himp a _ hok) hs

/-- An invariant under a condition, with the help of one known of all states. -/
lemma ReachIf.invariant_of {ok : α → σ → Prop} {I P : σ → Prop} (hI : ∀ s, Reach step start s → I s)
    (hstart : P start) (hstep : ∀ a s s', I s → P s → ok a s → step a s = some s' → P s')
    (h : ReachIf step ok start s) : P s := by
  induction h with
  | start => exact hstart
  | step a hr hok hs ih => exact hstep a _ _ (hI _ hr.reach) ih hok hs

/-! ## One thread -/

section Fold

variable {f : σ → α → σ} {I : σ → Prop} {ok : σ → α → Prop}

/-- Where a step keeps the invariant exactly under a condition, a run from such a state keeps it
throughout exactly if every step meets its condition. -/
lemma foldl_keeps_iff (hstep : ∀ s a, I s → (I (f s a) ↔ ok s a)) (hs : I s) (as : List α) :
    (∀ n, I ((as.take n).foldl f s)) ↔
      ∀ n a, as[n]? = some a → ok ((as.take n).foldl f s) a := by
  induction as generalizing s with
  | nil => simp [hs]
  | cons a as ih =>
      constructor
      · intro h n b hb
        have hfirst : I (f s a) := h 1
        cases n with
        | zero =>
            obtain rfl := Option.some.inj hb
            exact (hstep s a hs).mp hfirst
        | succ n => exact (ih hfirst).mp (fun k => h (k + 1)) n b hb
      · intro h n
        have hfirst : I (f s a) := (hstep s a hs).mpr (h 0 a rfl)
        cases n with
        | zero => exact hs
        | succ n => exact (ih hfirst).mpr (fun k b hb => h (k + 1) b hb) n

end Fold

/-! ## Histories -/

section History

variable {ε : Type} {h : List ε} {n : ℕ} {e x : ε}

/-- The event at a position. -/
def At (h : List ε) (n : ℕ) (e : ε) : Prop := h[n]? = some e

instance [DecidableEq ε] : Decidable (At h n e) := inferInstanceAs (Decidable (_ = _))

lemma At.lt (he : At h n e) : n < h.length := (List.getElem?_eq_some_iff.mp he).1

/-- What has happened stays where it is. -/
lemma At.append (he : At h n e) (es : List ε) : At (h ++ es) n e := by
  rw [At, List.getElem?_append_left he.lt]
  exact he

lemma at_last (h : List ε) (e : ε) : At (h ++ [e]) h.length e := by
  simp [At]

/-- An event of a longer history is an old one, or among those that came after. -/
lemma at_append {es : List ε} (hx : At (h ++ es) n x) : At h n x ∨ h.length ≤ n ∧ x ∈ es := by
  rcases Nat.lt_or_ge n h.length with hlt | hge
  · rw [At, List.getElem?_append_left hlt] at hx
    exact .inl hx
  · rw [At, List.getElem?_append_right hge] at hx
    exact .inr ⟨hge, List.mem_of_getElem? hx⟩

lemma at_concat : At (h ++ [e]) n x ↔ At h n x ∨ n = h.length ∧ x = e := by
  rcases Nat.lt_trichotomy n h.length with hlt | rfl | hgt
  · have hne : n ≠ h.length := Nat.ne_of_lt hlt
    simp [At, List.getElem?_append_left hlt, hne]
  · simp [At, eq_comm]
  · have hne : n ≠ h.length := Nat.ne_of_gt hgt
    have hnone : h[n]? = none := List.getElem?_eq_none (Nat.le_of_lt hgt)
    have hnone' : (h ++ [e])[n]? = none := List.getElem?_eq_none (by simpa using Nat.succ_le_of_lt hgt)
    simp [At, hnone, hnone', hne]

@[simp] lemma not_at_nil : ¬ At ([] : List ε) n e := by simp [At]

end History

end Go
