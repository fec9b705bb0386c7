import Labyrithm.Sql.ReadCommitted

/-!
# What one handler publishes

The commits that a single handler has made by the time it replies, whatever the other sessions did.

* `Tx.Publishes` — a condition on the result of a program, the commits it has made and what it has
  written since, for whatever its reads and lock attempts answer.
* `Reach.replied` — it holds of every reply in the history of an interleaved system.
* `Tx.FailsUnpublished` — a handler that ends in an error has published nothing; `Tx.Returns` — what
  a handler that returns has written.
-/

namespace Sql

section Publishes

variable {Λ σ ω ℓ α β : Type} [Store σ ω]

/-- Whatever the reads and the lock attempts answer, the program returns only where `Q` holds of its
result, the commits it has made (the store before and after each) and what it has written since. -/
def Tx.Publishes : Tx σ ω ℓ α → (α → List (σ × σ) → List ω → Prop) → List (σ × σ) → List ω → Prop
  | ret a, Q, ps, ws => Q a ps ws
  | read k, Q, ps, ws => ∀ s, Publishes (k s) Q ps ws
  | lock _ k, Q, ps, ws => Publishes k Q ps ws
  | tryLock _ k, Q, ps, ws => ∀ b, Publishes (k b) Q ps ws
  | write w k, Q, ps, ws => Publishes k Q ps (ws ++ [w])
  | commit k, Q, ps, ws => ∀ c, Publishes k Q (ps ++ [(c, view ws c)]) []
  | rollback k, Q, ps, _ => Publishes k Q ps []

theorem Tx.publishes_bind {t : Tx σ ω ℓ α} {f : α → Tx σ ω ℓ β}
    {Q : β → List (σ × σ) → List ω → Prop} {ps : List (σ × σ)} {ws : List ω} :
    Publishes (t >>= f) Q ps ws ↔ Publishes t (fun a => Publishes (f a) Q) ps ws := by
  rw [bind_eq]
  induction t generalizing ps ws with
  | ret a => exact Iff.rfl
  | read k ih => exact forall_congr' fun s => ih s
  | lock l k ih => exact ih
  | tryLock l k ih => exact forall_congr' fun b => ih b
  | write w k ih => exact ih
  | commit k ih => exact forall_congr' fun c => ih
  | rollback k ih => exact ih

theorem Tx.Publishes.mono {t : Tx σ ω ℓ α} {Q Q' : α → List (σ × σ) → List ω → Prop}
    {ps : List (σ × σ)} {ws : List ω} (h : Publishes t Q ps ws)
    (hQ : ∀ a ps ws, Q a ps ws → Q' a ps ws) : Publishes t Q' ps ws := by
  induction t generalizing ps ws with
  | ret a => exact hQ _ _ _ h
  | read k ih => exact fun s => ih s (h s)
  | lock l k ih => exact ih h
  | tryLock l k ih => exact fun b => ih b (h b)
  | write w k ih => exact ih h
  | commit k ih => exact fun c => ih (h c)
  | rollback k ih => exact ih h

lemma Tx.Publishes.true (t : Tx σ ω ℓ α) (ps : List (σ × σ)) (ws : List ω) :
    Publishes t (fun _ _ _ => True) ps ws := by
  induction t generalizing ps ws with
  | ret a => trivial
  | read k ih => exact fun s => ih s ps ws
  | lock l k ih => exact ih ps ws
  | tryLock l k ih => exact fun b => ih b ps ws
  | write w k ih => exact ih ps _
  | commit k ih => exact fun c => ih _ _
  | rollback k ih => exact ih ps _

theorem Tx.Publishes.and {t : Tx σ ω ℓ α} {Q Q' : α → List (σ × σ) → List ω → Prop}
    {ps : List (σ × σ)} {ws : List ω} (h : Publishes t Q ps ws) (h' : Publishes t Q' ps ws) :
    Publishes t (fun a ps ws => Q a ps ws ∧ Q' a ps ws) ps ws := by
  induction t generalizing ps ws with
  | ret a => exact ⟨h, h'⟩
  | read k ih => exact fun s => ih s (h s) (h' s)
  | lock l k ih => exact ih h h'
  | tryLock l k ih => exact fun b => ih b (h b) (h' b)
  | write w k ih => exact ih h h'
  | commit k ih => exact fun c => ih (h c) (h' c)
  | rollback k ih => exact ih h h'

variable [DecidableEq ℓ] {prog : Λ → Tx σ ω ℓ α} {env : σ → σ → Prop} {init : σ → Prop}

/-- Every session, and every handler that has replied, has published what its program can. -/
theorem Reach.publishes {Q : Λ → α → List (σ × σ) → List ω → Prop}
    (hQ : ∀ op, Tx.Publishes (prog op) (Q op) [] []) {s : Sys Λ σ ω ℓ α}
    (hs : Reach prog env init s) :
    (∀ t ∈ s.sessions, Tx.Publishes t.prog (Q t.label) t.published t.writes) ∧
      ∀ op a ps, .replied op a ps ∈ s.log → ∃ ws, Q op a ps ws := by
  induction hs with
  | init h => simp
  | @start s op _ ih =>
      refine ⟨?_, fun op' a ps h => ih.2 op' a ps (by simpa [Sys.start] using h)⟩
      intro t ht
      rcases List.mem_append.mp ht with ht | ht
      · exact ih.1 t ht
      · rw [List.mem_singleton] at ht
        subst ht
        exact hQ op
  | @step db l₁ l₂ t log s' hr hadv ih =>
      obtain ⟨label, prog, writes, locks, published⟩ := t
      have hself := ih.1 _ (mem_middle.mpr (Or.inl rfl))
      have others : ∀ b ∈ l₁ ++ l₂, Tx.Publishes b.prog (Q b.label) b.published b.writes :=
        fun b hb => ih.1 b (mem_middle.mpr (Or.inr hb))
      have replace : ∀ t' : Session Λ σ ω ℓ α,
          Tx.Publishes t'.prog (Q t'.label) t'.published t'.writes →
          ∀ b ∈ l₁ ++ t' :: l₂, Tx.Publishes b.prog (Q b.label) b.published b.writes := by
        intro t' ht' b hb
        rcases mem_middle.mp hb with rfl | hb
        · exact ht'
        · exact others b hb
      cases prog with
      | ret a =>
          simp only [Sys.advance, Option.some.injEq] at hadv
          subst hadv
          refine ⟨others, fun op' a' ps h => ?_⟩
          rcases List.mem_cons.mp h with h | h
          · cases h
            exact ⟨writes, hself⟩
          · exact ih.2 op' a' ps h
      | read k =>
          simp only [Sys.advance, Option.some.injEq] at hadv
          subst hadv
          exact ⟨replace _ (hself _), ih.2⟩
      | lock l k =>
          simp only [Sys.advance] at hadv
          split at hadv
          · simp only [Option.some.injEq] at hadv
            subst hadv
            exact ⟨replace _ hself, ih.2⟩
          · simp at hadv
      | tryLock l k =>
          simp only [Sys.advance] at hadv
          split at hadv
          · simp only [Option.some.injEq] at hadv
            subst hadv
            exact ⟨replace _ (hself true), ih.2⟩
          · simp only [Option.some.injEq] at hadv
            subst hadv
            exact ⟨replace _ (hself false), ih.2⟩
      | write w k =>
          simp only [Sys.advance, Option.some.injEq] at hadv
          subst hadv
          exact ⟨replace _ hself, ih.2⟩
      | commit k =>
          simp only [Sys.advance, Option.some.injEq] at hadv
          subst hadv
          exact ⟨replace _ (hself _), fun op' a ps h => ih.2 op' a ps (by simpa using h)⟩
      | rollback k =>
          simp only [Sys.advance, Option.some.injEq] at hadv
          subst hadv
          exact ⟨replace _ hself, ih.2⟩
  | fail _ ih => exact ⟨fun t ht => ih.1 t (mem_middle.mpr (Or.inr ht)), ih.2⟩
  | env _ _ ih => exact ih

/-- A handler that has replied has published what its program can. -/
theorem Reach.replied {Q : Λ → α → List (σ × σ) → Prop}
    (hQ : ∀ op, Tx.Publishes (prog op) (fun a ps _ => Q op a ps) [] []) {s : Sys Λ σ ω ℓ α}
    (hs : Reach prog env init s) {op : Λ} {a : α} {ps : List (σ × σ)}
    (h : .replied op a ps ∈ s.log) : Q op a ps := by
  obtain ⟨_, hq⟩ := (hs.publishes hQ).2 op a ps h
  exact hq

end Publishes

/-! ## Handlers that publish only at the end -/

namespace Tx

variable {σ ω ℓ α β ε : Type}

/-- The program neither commits nor rolls back. -/
def Silent : Tx σ ω ℓ α → Prop
  | ret _ => True
  | read k => ∀ s, Silent (k s)
  | lock _ k => Silent k
  | tryLock _ k => ∀ b, Silent (k b)
  | write _ k => Silent k
  | commit _ | rollback _ => False

namespace Silent

theorem bind {t : ExceptT ε (Tx σ ω ℓ) α} {f : α → ExceptT ε (Tx σ ω ℓ) β} (ht : Silent t.run)
    (hf : ∀ a, Silent (f a).run) : Silent (t >>= f).run := by
  show Silent (t.run >>= _)
  rw [bind_eq]
  generalize t.run = p at ht
  induction p with
  | ret r =>
      cases r with
      | ok a => exact hf a
      | error e => trivial
  | read k ih => exact fun s => ih s (ht s)
  | lock l k ih => exact ih ht
  | tryLock l k ih => exact fun b => ih b (ht b)
  | write w k ih => exact ih ht
  | commit k ih => exact ht.elim
  | rollback k ih => exact ht.elim

theorem forEach {f : β → ExceptT ε (Tx σ ω ℓ) α} (hf : ∀ x, Silent (f x).run) (xs : List β) :
    Silent (forEach f xs).run := by
  induction xs with
  | nil => trivial
  | cons x xs ih => exact bind (hf x) fun a => bind ih fun as => trivial

end Silent

variable [Store σ ω]

lemma Publishes.of_silent {t : Tx σ ω ℓ α} (h : Silent t) {ps : List (σ × σ)} {ws : List ω} :
    Publishes t (fun _ ps' _ => ps' = ps) ps ws := by
  induction t generalizing ws with
  | ret a => rfl
  | read k ih => exact fun s => ih s (h s)
  | lock l k ih => exact ih h
  | tryLock l k ih => exact fun b => ih b (h b)
  | write w k ih => exact ih h
  | commit k ih => exact h.elim
  | rollback k ih => exact h.elim

/-- Whatever happens around it, the handler has published nothing if it ends in an error. -/
def FailsUnpublished (t : ExceptT ε (Tx σ ω ℓ) α) : Prop :=
  ∀ ps ws, Publishes t.run (fun r ps' _ => ∀ e, r = .error e → ps' = ps) ps ws

namespace FailsUnpublished

theorem of_silent {t : ExceptT ε (Tx σ ω ℓ) α} (h : Silent t.run) : FailsUnpublished t :=
  fun _ _ => (Publishes.of_silent h).mono fun _ _ _ h _ _ => h

theorem finish : FailsUnpublished (finish : ExceptT ε (Tx σ ω ℓ) Unit) :=
  fun _ _ _ e h => by cases h

/-- Nothing is published before the rest begins. -/
theorem bind {t : ExceptT ε (Tx σ ω ℓ) α} {f : α → ExceptT ε (Tx σ ω ℓ) β} (ht : Silent t.run)
    (hf : ∀ a, FailsUnpublished (f a)) : FailsUnpublished (t >>= f) := by
  refine fun ps ws => publishes_bind.mpr ((Publishes.of_silent ht).mono fun r ps' ws' h => ?_)
  subst h
  cases r with
  | ok a => exact hf a _ ws'
  | error e => exact fun _ _ => rfl

/-- Nothing can fail after the handler. -/
theorem answer {t : ExceptT ε (Tx σ ω ℓ) α} (ht : FailsUnpublished t) (f : α → β) :
    FailsUnpublished (do return f (← t)) := by
  refine fun ps ws => publishes_bind.mpr ((ht ps ws).mono fun r ps' ws' h => ?_)
  cases r with
  | ok a => exact fun e he => by cases he
  | error e => exact fun _ _ => h e rfl

theorem transaction {body : ExceptT ε (Tx σ ω ℓ) α} (h : FailsUnpublished body) :
    FailsUnpublished (transaction body) := by
  refine fun ps ws => publishes_bind.mpr ((h ps ws).mono fun r ps' ws' h => ?_)
  cases r with
  | ok a => exact fun e he => by cases he
  | error e => exact fun _ _ => h e rfl

end FailsUnpublished

/-- Whatever happens around it, where the handler returns, `Q` holds of the result and of what the
transaction has written. -/
def Returns (t : ExceptT ε (Tx σ ω ℓ) α) (Q : α → List ω → Prop) (ws : List ω) : Prop :=
  ∀ ps, Publishes t.run (fun r _ ws' => ∀ a, r = .ok a → Q a ws') ps ws

namespace Returns

variable {Q : β → List ω → Prop} {ws : List ω}

theorem trivial {t : ExceptT ε (Tx σ ω ℓ) β} (h : ∀ b ws, Q b ws) : Returns t Q ws :=
  fun ps => (Publishes.true t.run ps ws).mono fun _ _ _ _ _ _ => h _ _

theorem pure {b : β} (h : Q b ws) : Returns (Pure.pure b : ExceptT ε (Tx σ ω ℓ) β) Q ws :=
  fun _ _ he => Except.ok.inj he ▸ h

theorem bind {t : ExceptT ε (Tx σ ω ℓ) α} {f : α → ExceptT ε (Tx σ ω ℓ) β}
    {P : α → List ω → Prop} (ht : Returns t P ws) (hf : ∀ a ws', P a ws' → Returns (f a) Q ws') :
    Returns (t >>= f) Q ws := by
  refine fun ps => publishes_bind.mpr ((ht ps).mono fun r ps' ws' h => ?_)
  cases r with
  | ok a => exact hf a ws' (h a rfl) ps'
  | error e => exact fun _ he => by cases he

theorem forEach {f : α → ExceptT ε (Tx σ ω ℓ) β} {J : List β → List ω → Prop}
    (hf : ∀ x as ws, J as ws → Returns (f x) (fun a => J (as ++ [a])) ws) (xs : List α)
    (as : List β) (h : J as ws) : Returns (forEach f xs) (fun bs => J (as ++ bs)) ws := by
  induction xs generalizing as ws with
  | nil => exact pure (by simpa using h)
  | cons x xs ih =>
      refine bind (hf x as ws h) fun a ws' ha => bind (ih (as ++ [a]) ha) fun bs ws'' hb => ?_
      exact pure (by simpa using hb)

end Returns

end Tx

end Sql
