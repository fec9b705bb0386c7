import Mathlib.Data.List.Basic
import Mathlib.Tactic.Common

/-!
# Runs with some actions left out

Two runs of one system, the second without the actions of some kind.  What an observer sees of the two
is the same as long as every action that was left out is harmless where it is taken; the relation
between the two states that says so is unwound step by step.

* `Harmless` — every action of the kind meets a condition in the state in which it is taken.
* **`purge_iff`** — an observer never sees a difference if and only if the run is harmless.
-/

namespace Go

variable {σ α : Type}

/-- The actions one after the other, where each can always be taken. -/
def exec (step : α → σ → σ) (as : List α) (s : σ) : σ := as.foldl (fun s a => step a s) s

/-- The run without the actions of the kind. -/
def purge (hidden : α → Bool) (as : List α) : List α := as.filter fun a => !hidden a

/-- Every action of the kind meets the condition when it is taken. -/
def Harmless (step : α → σ → σ) (hidden : α → Bool) (ok : α → σ → Prop) : List α → σ → Prop
  | [], _ => True
  | a :: as, s => (hidden a → ok a s) ∧ Harmless step hidden ok as (step a s)

variable {step : α → σ → σ} {hidden : α → Bool} {ok : α → σ → Prop} {R V : σ → σ → Prop}
  {s t : σ} {a : α} {as : List α}

/-- The relation after one action of the run and its image in the other. -/
lemma related_purge (hkeep : ∀ a s t, R s t → R (step a s) (step a t))
    (hhide : ∀ a s t, hidden a → ok a s → R s t → R (step a s) t) (hok : hidden a → ok a s)
    (h : R s t) : R (step a s) (exec step (purge hidden [a]) t) := by
  by_cases hhidden : hidden a
  · have hnil : purge hidden [a] = [] := by simp [purge, hhidden]
    rw [hnil]
    exact hhide a s t hhidden (hok hhidden) h
  · have hsame : purge hidden [a] = [a] := by simp [purge, hhidden]
    rw [hsame]
    exact hkeep a s t h

lemma exec_purge_cons : exec step (purge hidden (a :: as)) t
    = exec step (purge hidden as) (exec step (purge hidden [a]) t) := by
  by_cases hhidden : hidden a <;> simp [purge, exec, hhidden]

lemma related_of_harmless (hkeep : ∀ a s t, R s t → R (step a s) (step a t))
    (hhide : ∀ a s t, hidden a → ok a s → R s t → R (step a s) t) (h : R s t)
    (hharmless : Harmless step hidden ok as s) :
    ∀ past, past <+: as → R (exec step past s) (exec step (purge hidden past) t) := by
  induction as generalizing s t with
  | nil =>
      intro past hpast
      obtain rfl := List.prefix_nil.mp hpast
      exact h
  | cons a as ih =>
      intro past hpast
      rcases List.prefix_cons_iff.mp hpast with rfl | ⟨rest, rfl, hrest⟩
      · exact h
      · rw [exec_purge_cons]
        exact ih (related_purge hkeep hhide hharmless.1 h) hharmless.2 rest hrest

/-- The observer of `V` sees no difference in a run if and only if it is harmless. -/
theorem purge_iff (hkeep : ∀ a s t, R s t → R (step a s) (step a t))
    (hhide : ∀ a s t, hidden a → ok a s → R s t → R (step a s) t) (hview : ∀ s t, R s t → V s t)
    (hbreak : ∀ a s t, hidden a → ¬ ok a s → R s t → ¬ V (step a s) t) (h : R s t) :
    (∀ past, past <+: as → V (exec step past s) (exec step (purge hidden past) t))
      ↔ Harmless step hidden ok as s := by
  constructor
  · intro hall
    induction as generalizing s t with
    | nil => trivial
    | cons a as ih =>
        have hok : hidden a → ok a s := by
          intro hhidden
          by_contra hnot
          have hfirst := hall [a] (by simp)
          rw [purge, List.filter_cons_of_neg (by simp [hhidden])] at hfirst
          exact hbreak a s t hhidden hnot h hfirst
        refine ⟨hok, ih (related_purge hkeep hhide hok h) fun past hpast => ?_⟩
        have hnext := hall (a :: past) (List.prefix_cons_inj a |>.mpr hpast)
        rw [exec_purge_cons] at hnext
        exact hnext
  · intro hharmless past hpast
    exact hview _ _ (related_of_harmless hkeep hhide h hharmless past hpast)

end Go
