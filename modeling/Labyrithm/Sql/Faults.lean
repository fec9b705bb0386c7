import Labyrithm.Sql.Published

/-!
# Transactions over a connection that can fail

What becomes of a transaction is known to its handler only by the answers it gets.

* `Tx.breakAfter` — the connection breaks before the commit: the transaction is rolled back.
* `Tx.loseAck` — the commit takes effect, and its acknowledgement is lost.
* `Tx.Ends` — a program whose commit, if it comes to one, is the last thing it does; it says which
  results are returned after a commit and which without one, and both failures keep it.
* `Reach.published` — the commits a session has made are in the history, one event each.

To the handler both failures are the same error.
-/

namespace Sql

namespace Tx

variable {σ ω ℓ α β γ ε : Type}

/-- The connection breaks after `n` steps of the program, unless it has returned by then: what it has
not committed is rolled back, and `e` is returned. -/
def breakAfter (e : α) : Tx σ ω ℓ α → ℕ → Tx σ ω ℓ α
  | ret a, _ => ret a
  | read _, 0 | lock _ _, 0 | tryLock _ _, 0 | write _ _, 0 | commit _, 0 | rollback _, 0 =>
      rollback (ret e)
  | read k, n + 1 => read fun s => breakAfter e (k s) n
  | lock l k, n + 1 => lock l (breakAfter e k n)
  | tryLock l k, n + 1 => tryLock l fun b => breakAfter e (k b) n
  | write w k, n + 1 => write w (breakAfter e k n)
  | commit k, n + 1 => commit (breakAfter e k n)
  | rollback k, n + 1 => rollback (breakAfter e k n)

/-- The acknowledgement of the commit is lost: the transaction is committed, and `e` is returned. -/
def loseAck (e : α) : Tx σ ω ℓ α → Tx σ ω ℓ α
  | ret a => ret a
  | read k => read fun s => loseAck e (k s)
  | lock l k => lock l (loseAck e k)
  | tryLock l k => tryLock l fun b => loseAck e (k b)
  | write w k => write w (loseAck e k)
  | commit _ => commit (ret e)
  | rollback k => rollback (loseAck e k)

/-! ## Safety -/

section Safe

variable [Store σ ω] {D : Protocol σ ℓ} {R R' : σ → σ → Prop} {t : Tx σ ω ℓ α}
  {Q : α → List ℓ → List ω → σ → Prop} {H : List ℓ} {ws : List ω} {c : σ}

/-- Commits of one kind are commits of a wider kind. -/
theorem Safe.widen (h : Safe D R t Q H ws c) (hR : ∀ c v, R c v → R' c v) : Safe D R' t Q H ws c := by
  induction t generalizing H ws c with
  | ret a => exact h
  | read k ih => exact fun d hd => ih _ (h d hd)
  | lock l k ih => exact fun d hd => ih (h d hd)
  | tryLock l k ih => exact fun d hd => ⟨ih true (h d hd).1, ih false (h d hd).2⟩
  | write w k ih => exact fun d hd => ih (h d hd)
  | commit k ih =>
      intro d hd
      obtain ⟨⟨hinv, hstep, hframe⟩, hk⟩ := h d hd
      exact ⟨⟨hinv, hR _ _ hstep, hframe⟩, fun e he => ih (hk e he)⟩
  | rollback k ih => exact fun e he => ih (h e he)

/-- A session that gives everything back may return. -/
lemma Safe.rollback_ret {a : α} : Safe D R (rollback (ret a)) (fun _ _ _ _ => True) H ws c :=
  fun _ _ _ _ => trivial

/-- A safe program may break at any step. -/
theorem Safe.breakAfter (h : Safe D R t Q H ws c) (e : α) (n : ℕ) :
    Safe D R (breakAfter e t n) (fun _ _ _ _ => True) H ws c := by
  induction t generalizing n H ws c with
  | ret a => exact fun _ _ => trivial
  | read k ih =>
      cases n with
      | zero => exact Safe.rollback_ret
      | succ n => exact fun d hd => ih _ (h d hd) n
  | lock l k ih =>
      cases n with
      | zero => exact Safe.rollback_ret
      | succ n => exact fun d hd => ih (h d hd) n
  | tryLock l k ih =>
      cases n with
      | zero => exact Safe.rollback_ret
      | succ n => exact fun d hd => ⟨ih true (h d hd).1 n, ih false (h d hd).2 n⟩
  | write w k ih =>
      cases n with
      | zero => exact Safe.rollback_ret
      | succ n => exact fun d hd => ih (h d hd) n
  | commit k ih =>
      cases n with
      | zero => exact Safe.rollback_ret
      | succ n => exact fun d hd => ⟨(h d hd).1, fun e he => ih ((h d hd).2 e he) n⟩
  | rollback k ih =>
      cases n with
      | zero => exact Safe.rollback_ret
      | succ n => exact fun e he => ih (h e he) n

/-- The acknowledgement of a safe program's commit may be lost. -/
theorem Safe.loseAck (h : Safe D R t Q H ws c) (e : α) :
    Safe D R (loseAck e t) (fun _ _ _ _ => True) H ws c := by
  induction t generalizing H ws c with
  | ret a => exact fun _ _ => trivial
  | read k ih => exact fun d hd => ih _ (h d hd)
  | lock l k ih => exact fun d hd => ih (h d hd)
  | tryLock l k ih => exact fun d hd => ⟨ih true (h d hd).1, ih false (h d hd).2⟩
  | write w k ih => exact fun d hd => ih (h d hd)
  | commit k ih => exact fun d hd => ⟨(h d hd).1, fun _ _ _ _ => trivial⟩
  | rollback k ih => exact fun e he => ih (h e he)

end Safe

/-! ## Programs that commit at the end -/

/-- The program returns only where `Q` holds of the result if it has not committed, and after a
commit it does nothing but return, where `C` holds of the result. -/
def Ends (Q C : α → Prop) : Tx σ ω ℓ α → Prop
  | ret a => Q a
  | read k => ∀ s, Ends Q C (k s)
  | lock _ k => Ends Q C k
  | tryLock _ k => ∀ b, Ends Q C (k b)
  | write _ k => Ends Q C k
  | commit k => ∃ a, k = ret a ∧ C a
  | rollback k => Ends Q C k

namespace Ends

variable {Q C : α → Prop} {t : Tx σ ω ℓ α}

theorem mono {Q' C' : α → Prop} (h : Ends Q C t) (hQ : ∀ a, Q a → Q' a) (hC : ∀ a, C a → C' a) :
    Ends Q' C' t := by
  induction t with
  | ret a => exact hQ a h
  | read k ih => exact fun s => ih s (h s)
  | lock l k ih => exact ih h
  | tryLock l k ih => exact fun b => ih b (h b)
  | write w k ih => exact ih h
  | commit k ih =>
      obtain ⟨a, ha, hCa⟩ := h
      exact ⟨a, ha, hC a hCa⟩
  | rollback k ih => exact ih h

theorem bind {f : α → Tx σ ω ℓ β} {Q' C' : β → Prop} (h : Ends Q C t)
    (hQ : ∀ a, Q a → Ends Q' C' (f a)) (hC : ∀ a, C a → ∃ b, f a = ret b ∧ C' b) :
    Ends Q' C' (t >>= f) := by
  rw [bind_eq]
  induction t with
  | ret a => exact hQ a h
  | read k ih => exact fun s => ih s (h s)
  | lock l k ih => exact ih h
  | tryLock l k ih => exact fun b => ih b (h b)
  | write w k ih => exact ih h
  | commit k ih =>
      obtain ⟨a, rfl, hCa⟩ := h
      exact hC a hCa
  | rollback k ih => exact ih h

/-- A program that does not commit. -/
theorem of_silent (h : Silent t) (hQ : ∀ a, Q a) : Ends Q C t := by
  induction t with
  | ret a => exact hQ a
  | read k ih => exact fun s => ih s (h s)
  | lock l k ih => exact ih h
  | tryLock l k ih => exact fun b => ih b (h b)
  | write w k ih => exact ih h
  | commit k ih => exact h.elim
  | rollback k ih => exact h.elim

/-- Nothing is committed before the rest begins. -/
theorem after_silent {s : ExceptT ε (Tx σ ω ℓ) γ} {f : γ → ExceptT ε (Tx σ ω ℓ) β}
    {Q' C' : Except ε β → Prop} (h : Silent s.run) (hf : ∀ a, Ends Q' C' (f a).run)
    (he : ∀ e, Q' (.error e)) : Ends Q' C' (s >>= f).run := by
  refine bind (Q := fun _ => True) (C := fun _ => False) (of_silent h fun _ => trivial) ?_
    fun _ h => h.elim
  rintro (e | a) -
  · exact he e
  · exact hf a

/-- The deferred rollback of a body that commits at the end, if it does not fail. -/
theorem transaction {body : ExceptT ε (Tx σ ω ℓ) α} {a : α}
    (h : Ends (fun r => ∃ e, r = .error e) (fun r => r = .ok a) body.run) :
    Ends (fun r => ∃ e, r = .error e) (fun r => r = .ok a) (transaction body).run := by
  refine bind h ?_ ?_
  · rintro _ ⟨e, rfl⟩
    exact ⟨e, rfl⟩
  · rintro _ rfl
    exact ⟨.ok a, rfl, rfl⟩

theorem breakAfter (h : Ends Q C t) (e : α) (n : ℕ) :
    Ends (fun a => Q a ∨ a = e) C (breakAfter e t n) := by
  have broken : Ends (fun a => Q a ∨ a = e) C (rollback (ret e) : Tx σ ω ℓ α) := Or.inr rfl
  induction t generalizing n with
  | ret a => exact Or.inl h
  | read k ih =>
      cases n with
      | zero => exact broken
      | succ n => exact fun s => ih s (h s) n
  | lock l k ih =>
      cases n with
      | zero => exact broken
      | succ n => exact ih h n
  | tryLock l k ih =>
      cases n with
      | zero => exact broken
      | succ n => exact fun b => ih b (h b) n
  | write w k ih =>
      cases n with
      | zero => exact broken
      | succ n => exact ih h n
  | commit k ih =>
      cases n with
      | zero => exact broken
      | succ n =>
          obtain ⟨a, rfl, hCa⟩ := h
          exact ⟨a, rfl, hCa⟩
  | rollback k ih =>
      cases n with
      | zero => exact broken
      | succ n => exact ih h n

theorem loseAck (h : Ends Q C t) (e : α) : Ends Q (fun a => a = e) (loseAck e t) := by
  induction t with
  | ret a => exact h
  | read k ih => exact fun s => ih s (h s)
  | lock l k ih => exact ih h
  | tryLock l k ih => exact fun b => ih b (h b)
  | write w k ih => exact ih h
  | commit k ih => exact ⟨e, rfl, rfl⟩
  | rollback k ih => exact ih h

/-- It publishes at most one transaction, and its result says whether it has. -/
theorem publishes [Store σ ω] (h : Ends Q C t) (ps : List (σ × σ)) (ws : List ω) :
    Publishes t (fun a ps' _ => (ps' = ps ∧ Q a) ∨ ((∃ p, ps' = ps ++ [p]) ∧ C a)) ps ws := by
  induction t generalizing ws with
  | ret a => exact Or.inl ⟨rfl, h⟩
  | read k ih => exact fun s => ih s (h s) ws
  | lock l k ih => exact ih h ws
  | tryLock l k ih => exact fun b => ih b (h b) ws
  | write w k ih => exact ih h _
  | commit k ih =>
      obtain ⟨a, rfl, hCa⟩ := h
      exact fun c => Or.inr ⟨⟨_, rfl⟩, hCa⟩
  | rollback k ih => exact ih h _

end Ends

end Tx

/-! ## The commits of a session are in the history -/

section Published

variable {Λ σ ω ℓ α : Type} [Store σ ω] [DecidableEq ℓ] {prog : Λ → Tx σ ω ℓ α}
  {env : σ → σ → Prop} {init : σ → Prop}

/-- The events of the commits `ps`, newest first. -/
def commitEvents (op : Λ) (ps : List (σ × σ)) : List (Event Λ σ α) :=
  (ps.map fun p => .committed op p.1 p.2).reverse

lemma commitEvents_append_singleton (op : Λ) (ps : List (σ × σ)) (p : σ × σ) :
    (commitEvents op (ps ++ [p]) : List (Event Λ σ α))
      = .committed op p.1 p.2 :: commitEvents op ps := by
  simp [commitEvents]

/-- One step of a session: it replies, it commits, or nothing of what it has published changes. -/
lemma Sys.advance_published {db : σ} {l₁ l₂ : List (Session Λ σ ω ℓ α)} {t : Session Λ σ ω ℓ α}
    {log : List (Event Λ σ α)} {s' : Sys Λ σ ω ℓ α} (h : Sys.advance db log l₁ t l₂ = some s') :
    (∃ a, s' = ⟨db, l₁ ++ l₂, .replied t.label a t.published :: log⟩) ∨
    (∃ t' v, t'.label = t.label ∧ t'.published = t.published ++ [(db, v)] ∧
      s' = ⟨v, l₁ ++ t' :: l₂, .committed t.label db v :: log⟩) ∨
    (∃ t', t'.label = t.label ∧ t'.published = t.published ∧ s' = ⟨db, l₁ ++ t' :: l₂, log⟩) := by
  obtain ⟨label, prog, writes, locks, published⟩ := t
  cases prog with
  | ret a => exact Or.inl ⟨a, (Option.some.inj h).symm⟩
  | commit k =>
      exact Or.inr (Or.inl ⟨⟨label, k, [], [], published ++ [(db, view writes db)]⟩, view writes db,
        rfl, rfl, (Option.some.inj h).symm⟩)
  | lock l k =>
      simp only [Sys.advance, Option.ite_none_right_eq_some, Option.some.injEq] at h
      exact Or.inr (Or.inr ⟨⟨label, k, writes, l :: locks, published⟩, rfl, rfl, h.2.symm⟩)
  | tryLock l k =>
      simp only [Sys.advance] at h
      split at h
      · exact Or.inr (Or.inr ⟨⟨label, k true, writes, l :: locks, published⟩, rfl, rfl,
          (Option.some.inj h).symm⟩)
      · exact Or.inr (Or.inr ⟨⟨label, k false, writes, locks, published⟩, rfl, rfl,
          (Option.some.inj h).symm⟩)
  | read k =>
      exact Or.inr (Or.inr ⟨⟨label, k (view writes db), writes, locks, published⟩, rfl, rfl,
        (Option.some.inj h).symm⟩)
  | write w k =>
      exact Or.inr (Or.inr ⟨⟨label, k, writes ++ [w], locks, published⟩, rfl, rfl,
        (Option.some.inj h).symm⟩)
  | rollback k =>
      exact Or.inr (Or.inr ⟨⟨label, k, [], [], published⟩, rfl, rfl, (Option.some.inj h).symm⟩)

/-- The commits of a session in progress, and those of a handler that has replied, are in the
history, one event each. -/
theorem Reach.published {s : Sys Λ σ ω ℓ α} (hs : Reach prog env init s) :
    (∀ t ∈ s.sessions, (commitEvents t.label t.published).Sublist s.log) ∧
      ∀ op a ps, .replied op a ps ∈ s.log → (commitEvents op ps).Sublist s.log := by
  induction hs with
  | init h => simp
  | @start s op _ ih =>
      refine ⟨fun t ht => ?_, fun op' a ps h => ?_⟩
      · rcases List.mem_append.mp ht with ht | ht
        · exact (ih.1 t ht).trans (List.sublist_cons_self _ _)
        · obtain rfl := List.mem_singleton.mp ht
          exact List.nil_sublist _
      · have h : .replied op' a ps ∈ s.log := by simpa [Sys.start] using h
        exact (ih.2 op' a ps h).trans (List.sublist_cons_self _ _)
  | @step db l₁ l₂ t log s' _ hadv ih =>
      have hself := ih.1 t (mem_middle.mpr (Or.inl rfl))
      have others : ∀ b ∈ l₁ ++ l₂, (commitEvents b.label b.published).Sublist log :=
        fun b hb => ih.1 b (mem_middle.mpr (Or.inr hb))
      obtain ⟨a, rfl⟩ | ⟨t', v, hlabel, hpub, rfl⟩ | ⟨t', hlabel, hpub, rfl⟩ :=
        Sys.advance_published hadv
      · refine ⟨fun b hb => (others b hb).trans (List.sublist_cons_self _ _), fun op a' ps h => ?_⟩
        rcases List.mem_cons.mp h with h | h
        · cases h
          exact hself.trans (List.sublist_cons_self _ _)
        · exact (ih.2 op a' ps h).trans (List.sublist_cons_self _ _)
      · refine ⟨fun b hb => ?_, fun op a ps h => ?_⟩
        · rcases mem_middle.mp hb with rfl | hb
          · rw [hlabel, hpub, commitEvents_append_singleton]
            exact hself.cons_cons _
          · exact (others b hb).trans (List.sublist_cons_self _ _)
        · have h : .replied op a ps ∈ log := by simpa using h
          exact (ih.2 op a ps h).trans (List.sublist_cons_self _ _)
      · refine ⟨fun b hb => ?_, ih.2⟩
        rcases mem_middle.mp hb with rfl | hb
        · rw [hlabel, hpub]
          exact hself
        · exact others b hb
  | fail _ ih => exact ⟨fun t ht => ih.1 t (mem_middle.mpr (Or.inr ht)), ih.2⟩
  | env _ _ ih => exact ih

end Published

end Sql
