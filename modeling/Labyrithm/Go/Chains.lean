import Mathlib.Data.List.Basic
import Mathlib.Tactic.Common

/-!
# Chains of stages

Stages that are passed one after the other: a stage changes the world, and hands on what it was given, changed,
or stops.  After a stop nothing else of the chain is done.

What a stage does may rest on the stages before it.  `Ordered` says of a chain that every stage finds what it
rests on among those that were passed; then a fact about one stage, behind stages that were all passed, is a
fact about the chain.

* `pass` — one chain, executable.
* **`pass_spec`** — an ordered chain is passed exactly if each of its stages admits.
-/

namespace Go

variable {σ γ ω ε : Type}

/-- The chain, from its first stage on. -/
def pass (run : σ → γ → ω → Except ε γ × ω) : List σ → γ → ω → Except ε γ × ω
  | [], c, w => (.ok c, w)
  | m :: chain, c, w =>
      match run m c w with
      | (.error e, w') => (.error e, w')
      | (.ok c', w') => pass run chain c' w'

/-- Every stage is placed behind what it rests on; `seen` are the stages passed before, the last one first. -/
def Ordered (placed : List σ → σ → Prop) : List σ → List σ → Prop
  | _, [] => True
  | seen, m :: chain => placed seen m ∧ Ordered placed (m :: seen) chain

instance decidableOrdered (placed : List σ → σ → Prop) [∀ seen m, Decidable (placed seen m)] :
    ∀ seen chain, Decidable (Ordered placed seen chain)
  | _, [] => inferInstanceAs (Decidable True)
  | seen, m :: chain =>
      have := decidableOrdered placed (m :: seen) chain
      inferInstanceAs (Decidable (placed seen m ∧ Ordered placed (m :: seen) chain))

section Spec

variable {run : σ → γ → ω → Except ε γ × ω} {placed : List σ → σ → Prop} {Admits : σ → Prop}
  {After : List σ → γ → ω → Prop} {Stopped : ε → ω → Prop}

/-- What a stage does behind stages that were passed: it goes on if it admits, and stops if not. -/
def Stage (run : σ → γ → ω → Except ε γ × ω) (Admits : σ → Prop) (After : List σ → γ → ω → Prop)
    (Stopped : ε → ω → Prop) (seen : List σ) (m : σ) (c : γ) (w : ω) : Prop :=
  Admits m ∧ (∃ c' w', run m c w = (.ok c', w') ∧ After (m :: seen) c' w') ∨
    ¬ Admits m ∧ ∃ e w', run m c w = (.error e, w') ∧ Stopped e w'

/-- The chain behind `seen`. -/
lemma pass_from
    (step : ∀ seen m c w, placed seen m → After seen c w → Stage run Admits After Stopped seen m c w)
    {chain : List σ} : ∀ {seen : List σ} {c : γ} {w : ω}, Ordered placed seen chain → After seen c w →
      (∀ m ∈ chain, Admits m) ∧
          (∃ c' w', pass run chain c w = (.ok c', w') ∧ After (chain.reverse ++ seen) c' w') ∨
        ¬ (∀ m ∈ chain, Admits m) ∧ ∃ e w', pass run chain c w = (.error e, w') ∧ Stopped e w' := by
  induction chain with
  | nil =>
      intro seen c w _ hafter
      exact .inl ⟨by simp, c, w, rfl, hafter⟩
  | cons m chain ih =>
      intro seen c w hordered hafter
      rcases step seen m c w hordered.1 hafter with ⟨hadmits, c', w', hrun, hafter'⟩ | ⟨hnot, e, w', hrun, hstop⟩
      · have hpass : pass run (m :: chain) c w = pass run chain c' w' := by
          rw [pass, hrun]
        rw [hpass, List.forall_mem_cons, List.reverse_cons, List.append_assoc, List.singleton_append]
        simpa only [hadmits, true_and] using ih hordered.2 hafter'
      · refine .inr ⟨fun hall => hnot (hall m List.mem_cons_self), e, w', ?_, hstop⟩
        rw [pass, hrun]

/-- **Chains**: an ordered chain whose stages keep `After` is passed exactly if each stage admits. -/
theorem pass_spec
    (step : ∀ seen m c w, placed seen m → After seen c w → Stage run Admits After Stopped seen m c w)
    {chain : List σ} {c : γ} {w : ω} (hordered : Ordered placed [] chain) (hstart : After [] c w) :
    (∀ m ∈ chain, Admits m) ∧ (∃ c' w', pass run chain c w = (.ok c', w') ∧ After chain.reverse c' w') ∨
      ¬ (∀ m ∈ chain, Admits m) ∧ ∃ e w', pass run chain c w = (.error e, w') ∧ Stopped e w' := by
  simpa only [List.append_nil] using pass_from step hordered hstart

/-- A stage of an ordered chain is placed behind stages of the chain. -/
lemma Ordered.placed_of_mem {m : σ} {chain : List σ} :
    ∀ {seen : List σ}, Ordered placed seen chain → m ∈ chain →
      ∃ before, placed before m ∧ ∀ x ∈ before, x ∈ seen ∨ x ∈ chain := by
  induction chain with
  | nil => simp
  | cons y chain ih =>
      intro seen hordered hm
      rcases List.mem_cons.mp hm with rfl | hm
      · exact ⟨seen, hordered.1, fun x hx => .inl hx⟩
      · obtain ⟨before, hplaced, hbefore⟩ := ih hordered.2 hm
        refine ⟨before, hplaced, fun x hx => ?_⟩
        rcases hbefore x hx with hseen | hchain
        · rcases List.mem_cons.mp hseen with rfl | hseen
          · exact .inr List.mem_cons_self
          · exact .inl hseen
        · exact .inr (List.mem_cons_of_mem _ hchain)

end Spec

end Go
