import Labyrithm.Sql.Guarded

/-!
# Interleavings whose commits spare the sessions in progress

What a program has read without a lock stays true only as long as the others let it.  In an `Accord`
the condition on a commit may speak of the sessions in progress, and every program says what it needs
of the others while it runs, whatever locks it holds.  `Guarded.lean` is the same logic where a program
relies on what its locks protect and nothing else, and forgets everything at its commits.

* `Tx.Minds` — the obligation of one program: what it owes at a commit, it may derive from what it has
  read before, since the store has changed since then only as it `needs`.
* `Tx.Manages` — the same for a handler that may fail.
* `Sys.Minded.move` — one step under the condition keeps the invariant of the system.
* **`Accord.sound`** — in every run whose commits meet the condition the store keeps the invariant, and
  every commit has done what it is to do.
-/

namespace Sql

/-- What programs over one store agree on where their commits spare one another. -/
structure Accord (Λ σ ω ℓ : Type) where
  /-- What is true of the committed store. -/
  inv : σ → Prop
  /-- What a program that holds these locks needs of the commits of the others. -/
  needs : Λ → List ℓ → σ → σ → Prop
  needs_refl : ∀ op H c, needs op H c c
  needs_trans : ∀ op H {a b c}, needs op H a b → needs op H b c → needs op H a c
  /-- The condition on a commit: who makes it, what it has written, the others, and the store. -/
  guard : Λ → List ω → List (Λ × List ℓ) → σ → Prop
  /-- What a commit is to have done. -/
  rel : Λ → σ → σ → Prop

variable {Λ σ ω ℓ α β γ ε : Type}

namespace Accord

variable (A : Accord Λ σ ω ℓ)

/-- What a program can rely on while the others commit. -/
def Rely (op : Λ) (H : List ℓ) (c c' : σ) : Prop := A.inv c' ∧ A.needs op H c c'

/-- What is owed at a commit that meets the condition. -/
def Commits [Store σ ω] (op : Λ) : Assert σ ω ℓ := fun H ws c =>
  ∀ others : List (Λ × List ℓ), (∀ o ∈ others, ∀ l ∈ o.2, l ∉ H) → A.guard op ws others c →
    A.inv (view ws c) ∧ A.rel op c (view ws c) ∧ ∀ o ∈ others, A.needs o.1 o.2 c (view ws c)

variable {A} {op : Λ} {H : List ℓ} {c c' d : σ}

lemma Rely.refl (h : A.inv c) : A.Rely op H c c := ⟨h, A.needs_refl op H c⟩

lemma Rely.trans (h : A.Rely op H c c') (h' : A.Rely op H c' d) : A.Rely op H c d :=
  ⟨h'.1, A.needs_trans op H h.2 h'.2⟩

end Accord

/-! ## The obligation of one program -/

namespace Tx

variable [Store σ ω]

/-- The program owes at every commit what the accord says, and `Q` when it returns.  After a commit it
goes on from the store that it has published. -/
def Minds (A : Accord Λ σ ω ℓ) (op : Λ) : Tx σ ω ℓ α → (α → Assert σ ω ℓ) → Assert σ ω ℓ
  | ret a, Q, H, ws, c => ∀ c', A.Rely op H c c' → Q a H ws c'
  | read k, Q, H, ws, c => ∀ c', A.Rely op H c c' → Minds A op (k (view ws c')) Q H ws c'
  | lock l k, Q, H, ws, c => ∀ c', A.Rely op H c c' → Minds A op k Q (l :: H) ws c'
  | tryLock l k, Q, H, ws, c => ∀ c', A.Rely op H c c' →
      Minds A op (k true) Q (l :: H) ws c' ∧ Minds A op (k false) Q H ws c'
  | write w k, Q, H, ws, c => ∀ c', A.Rely op H c c' → Minds A op k Q H (ws ++ [w]) c'
  | commit k, Q, H, ws, c => ∀ c', A.Rely op H c c' →
      A.Commits op H ws c' ∧ (A.inv (view ws c') → Minds A op k Q [] [] (view ws c'))
  | rollback k, Q, H, _, c => ∀ c', A.Rely op H c c' → Minds A op k Q [] [] c'

variable {A : Accord Λ σ ω ℓ} {op : Λ} {H : List ℓ} {ws : List ω} {c : σ}

namespace Minds

/-- The obligation survives what the program can rely on. -/
theorem rely {t : Tx σ ω ℓ α} {Q : α → Assert σ ω ℓ} {c' : σ} (h : Minds A op t Q H ws c)
    (hc : A.Rely op H c c') : Minds A op t Q H ws c' := by
  cases t with
  | ret a => exact fun d hd => h d (hc.trans hd)
  | read k => exact fun d hd => h d (hc.trans hd)
  | lock l k => exact fun d hd => h d (hc.trans hd)
  | tryLock l k => exact fun d hd => h d (hc.trans hd)
  | write w k => exact fun d hd => h d (hc.trans hd)
  | commit k => exact fun d hd => h d (hc.trans hd)
  | rollback k => exact fun d hd => h d (hc.trans hd)

/-- The rule of consequence. -/
theorem mono {t : Tx σ ω ℓ α} {Q Q' : α → Assert σ ω ℓ} (h : Minds A op t Q H ws c)
    (hQ : ∀ a H ws c, Q a H ws c → Q' a H ws c) : Minds A op t Q' H ws c := by
  induction t generalizing H ws c with
  | ret a => exact fun d hd => hQ _ _ _ _ (h d hd)
  | read k ih => exact fun d hd => ih _ (h d hd)
  | lock l k ih => exact fun d hd => ih (h d hd)
  | tryLock l k ih => exact fun d hd => ⟨ih true (h d hd).1, ih false (h d hd).2⟩
  | write w k ih => exact fun d hd => ih (h d hd)
  | commit k ih => exact fun d hd => ⟨(h d hd).1, fun hi => ih ((h d hd).2 hi)⟩
  | rollback k ih => exact fun d hd => ih (h d hd)

/-- The rule of sequencing. -/
theorem bind {t : Tx σ ω ℓ α} {f : α → Tx σ ω ℓ β} {Q : β → Assert σ ω ℓ} (hinv : A.inv c)
    (h : Minds A op t (fun a H ws c => A.inv c → Minds A op (f a) Q H ws c) H ws c) :
    Minds A op (t >>= f) Q H ws c := by
  rw [bind_eq]
  induction t generalizing H ws c with
  | ret a => exact h c (.refl hinv) hinv
  | read k ih => exact fun d hd => ih _ hd.1 (h d hd)
  | lock l k ih => exact fun d hd => ih hd.1 (h d hd)
  | tryLock l k ih => exact fun d hd => ⟨ih true hd.1 (h d hd).1, ih false hd.1 (h d hd).2⟩
  | write w k ih => exact fun d hd => ih hd.1 (h d hd)
  | commit k ih => exact fun d hd => ⟨(h d hd).1, fun hi => ih hi ((h d hd).2 hi)⟩
  | rollback k ih => exact fun d hd => ih hd.1 (h d hd)

end Minds

/-! ## Handlers that may fail -/

/-- The handler owes what the accord says at every commit, and where it succeeds `Q` holds. -/
def Manages (A : Accord Λ σ ω ℓ) (op : Λ) (t : ExceptT ε (Tx σ ω ℓ) α) (Q : α → Assert σ ω ℓ) :
    Assert σ ω ℓ :=
  Minds A op t.run fun r H ws c =>
    match r with
    | .ok a => Q a H ws c
    | .error _ => True

namespace Manages

variable {Q : β → Assert σ ω ℓ}

theorem mono {t : ExceptT ε (Tx σ ω ℓ) β} {Q' : β → Assert σ ω ℓ} (h : Manages A op t Q' H ws c)
    (hQ : ∀ a H ws c, Q' a H ws c → Q a H ws c) : Manages A op t Q H ws c := by
  refine Minds.mono h ?_
  intro r H ws c hr
  cases r with
  | ok a => exact hQ _ _ _ _ hr
  | error e => trivial

/-- Sequencing through an intermediate assertion. -/
theorem seq {t : ExceptT ε (Tx σ ω ℓ) α} {f : α → ExceptT ε (Tx σ ω ℓ) β} {P : α → Assert σ ω ℓ}
    (hinv : A.inv c) (ht : Manages A op t P H ws c)
    (hf : ∀ a H ws c, A.inv c → P a H ws c → Manages A op (f a) Q H ws c) :
    Manages A op (t >>= f) Q H ws c := by
  refine Minds.bind hinv (Minds.mono ht ?_)
  intro r H ws c hr hi
  cases r with
  | ok a => exact hf a H ws c hi hr
  | error e => exact fun _ _ => trivial

theorem pure {b : β} (h : ∀ c', A.Rely op H c c' → Q b H ws c') :
    Manages A op (Pure.pure b : ExceptT ε (Tx σ ω ℓ) β) Q H ws c := h

theorem throw {e : ε} : Manages A op (throw e : ExceptT ε (Tx σ ω ℓ) β) Q H ws c :=
  fun _ _ => trivial

/-- A snapshot, of some later committed store. -/
theorem select {f : σ → α} {k : α → ExceptT ε (Tx σ ω ℓ) β}
    (h : ∀ c', A.Rely op H c c' → Manages A op (k (f (view ws c'))) Q H ws c') :
    Manages A op (select f >>= k) Q H ws c := h

theorem acquire {l : ℓ} {k : Unit → ExceptT ε (Tx σ ω ℓ) β}
    (h : ∀ c', A.Rely op H c c' → Manages A op (k ()) Q (l :: H) ws c') :
    Manages A op (acquire l >>= k) Q H ws c := h

/-- A write is nobody's business until it is committed. -/
theorem put {w : ω} {k : Unit → ExceptT ε (Tx σ ω ℓ) β}
    (h : ∀ c', A.Rely op H c c' → Manages A op (k ()) Q H (ws ++ [w]) c') :
    Manages A op (put w >>= k) Q H ws c := h

/-- A commit, after which the handler goes on from what it has published. -/
theorem finish {k : Unit → ExceptT ε (Tx σ ω ℓ) β}
    (hC : ∀ c', A.Rely op H c c' → A.Commits op H ws c')
    (hk : ∀ c', A.Rely op H c c' → A.inv (view ws c') → Manages A op (k ()) Q [] [] (view ws c')) :
    Manages A op (finish >>= k) Q H ws c :=
  fun c' hc => ⟨hC c' hc, hk c' hc⟩

/-- The deferred rollback. -/
theorem transaction {body : ExceptT ε (Tx σ ω ℓ) β} (hinv : A.inv c)
    (h : Manages A op body (fun b H ws c => ∀ c', A.Rely op H c c' → Q b H ws c') H ws c) :
    Manages A op (transaction body) Q H ws c := by
  refine Minds.bind hinv (Minds.mono h ?_)
  intro r H ws c hr _
  cases r with
  | ok a => exact hr
  | error e => exact fun _ _ _ _ => trivial

/-- A statement of its own, after which the handler goes on from what it has published. -/
theorem autocommit {body : ExceptT ε (Tx σ ω ℓ) β} (hinv : A.inv c)
    (h : Manages A op body (fun b H ws c => ∀ c', A.Rely op H c c' → A.Commits op H ws c' ∧
      (A.inv (view ws c') → ∀ d, A.Rely op [] (view ws c') d → Q b [] [] d)) H ws c) :
    Manages A op (autocommit body) Q H ws c := by
  refine transaction hinv (seq hinv h ?_)
  intro b H ws c _ hb
  refine finish (fun c' hc => (hb c' hc).1) ?_
  intro c' hc hi
  refine pure ?_
  intro d hd d' hd'
  exact (hb c' hc).2 hi d' (hd.trans hd')

/-- The reply is made of what the handler returns. -/
theorem reply {t : ExceptT ε (Tx σ ω ℓ) α} {f : α → β} (hinv : A.inv c)
    (h : Manages A op t (fun _ _ _ _ => True) H ws c) :
    Minds A op (f <$> t).run (fun _ _ _ _ => True) H ws c := by
  refine Minds.bind hinv (Minds.mono h ?_)
  intro r H ws c _ _
  cases r with
  | ok a => exact fun _ _ => trivial
  | error e => exact fun _ _ => trivial

/-- A handler whose reply is what it returns. -/
theorem whole {t : ExceptT ε (Tx σ ω ℓ) α} (h : Manages A op t (fun _ _ _ _ => True) H ws c) :
    Minds A op t.run (fun _ _ _ _ => True) H ws c :=
  Minds.mono h fun _ _ _ _ _ => trivial

/-- Loops: an assertion about what is done and what is left, which every iteration keeps. -/
theorem forEach {f : α → ExceptT ε (Tx σ ω ℓ) γ} {J : List α → List α → Assert σ ω ℓ}
    (hJ : ∀ done H ws c c', J done [] H ws c → A.Rely op H c c' → J done [] H ws c')
    (hf : ∀ done x rest H ws c, A.inv c → J done (x :: rest) H ws c →
      Manages A op (f x) (fun _ => J (done ++ [x]) rest) H ws c)
    {xs : List α} (done : List α) (hinv : A.inv c) (h : J done xs H ws c) :
    Manages A op (Tx.forEach f xs) (fun _ => J (done ++ xs) []) H ws c := by
  induction xs generalizing done H ws c with
  | nil =>
      refine pure ?_
      intro c' hc
      rw [List.append_nil]
      exact hJ done H ws c c' h hc
  | cons x xs ih =>
      refine seq hinv (hf done x xs H ws c hinv h) ?_
      intro _ H ws c hi ha
      refine seq hi (ih (done ++ [x]) hi ha) ?_
      intro _ H ws c _ hb
      rw [List.append_assoc, List.singleton_append] at hb
      exact pure fun c' hc => hJ _ _ _ _ _ hb hc

end Manages

end Tx

/-! ## Soundness -/

namespace Accord

/-- Every program keeps to the accord, whatever it returns. -/
def Kept [Store σ ω] (A : Accord Λ σ ω ℓ) (prog : Λ → Tx σ ω ℓ α) : Prop :=
  ∀ op c, A.inv c → Tx.Minds A op (prog op) (fun _ _ _ _ => True) [] [] c

end Accord

/-- The invariant of the interleaved system. -/
structure Sys.Minded [Store σ ω] (A : Accord Λ σ ω ℓ) (s : Sys Λ σ ω ℓ α) : Prop where
  inv : A.inv s.db
  minds : ∀ t ∈ s.sessions,
    Tx.Minds A t.label t.prog (fun _ _ _ _ => True) t.locks t.writes s.db
  disjoint : s.sessions.Pairwise Session.Disjoint
  done : ∀ op before after, .committed op before after ∈ s.log → A.rel op before after

namespace Sys.Minded

variable [Store σ ω] {A : Accord Λ σ ω ℓ} {db : σ} {log log' : List (Event Λ σ α)}
  {l₁ l₂ : List (Session Λ σ ω ℓ α)} {t : Session Λ σ ω ℓ α}

lemma remove (h : Minded A ⟨db, l₁ ++ t :: l₂, log⟩)
    (hdone : ∀ op before after, .committed op before after ∈ log' → A.rel op before after) :
    Minded A ⟨db, l₁ ++ l₂, log'⟩ where
  inv := h.inv
  minds b hb := h.minds b (mem_middle.mpr (Or.inr hb))
  disjoint := (pairwise_disjoint_middle.mp h.disjoint).2
  done := hdone

/-- The session `t` becomes `t'`, and the store becomes one the others can rely on. -/
lemma replace {db' : σ} {t' : Session Λ σ ω ℓ α} (h : Minded A ⟨db, l₁ ++ t :: l₂, log⟩)
    (hrely : ∀ b ∈ l₁ ++ l₂, A.Rely b.label b.locks db db') (hinv : A.inv db')
    (hminds : Tx.Minds A t'.label t'.prog (fun _ _ _ _ => True) t'.locks t'.writes db')
    (hdisj : ∀ b ∈ l₁ ++ l₂, t'.Disjoint b)
    (hdone : ∀ op before after, .committed op before after ∈ log' → A.rel op before after) :
    Minded A ⟨db', l₁ ++ t' :: l₂, log'⟩ where
  inv := hinv
  minds b hb := by
    rcases mem_middle.mp hb with rfl | hb
    · exact hminds
    · exact (h.minds b (mem_middle.mpr (Or.inr hb))).rely (hrely b hb)
  disjoint := pairwise_disjoint_middle.mpr ⟨hdisj, (pairwise_disjoint_middle.mp h.disjoint).2⟩
  done := hdone

/-- A step of a session, under the condition where it is a commit. -/
lemma advance [DecidableEq ℓ] {s' : Sys Λ σ ω ℓ α} (h : Minded A ⟨db, l₁ ++ t :: l₂, log⟩)
    (hguard : t.prog.isCommit = true →
      A.guard t.label t.writes ((l₁ ++ l₂).map Session.standing) db)
    (hs : Sys.advance db log l₁ t l₂ = some s') : Minded A s' := by
  obtain ⟨label, prog, writes, locks, published⟩ := t
  have hself := h.minds _ (mem_middle.mpr (Or.inl rfl))
  have hinv : A.inv db := h.inv
  have hdisj := (pairwise_disjoint_middle.mp h.disjoint).1
  have stay : ∀ b ∈ l₁ ++ l₂, A.Rely b.label b.locks db db := fun b _ => .refl hinv
  cases prog with
  | ret a =>
      obtain rfl := Option.some.inj hs
      refine h.remove ?_
      intro op before after hmem
      simp only [List.mem_cons, reduceCtorEq, false_or] at hmem
      exact h.done op before after hmem
  | read k =>
      obtain rfl := Option.some.inj hs
      exact h.replace stay hinv (hself db (.refl hinv)) hdisj h.done
  | lock l k =>
      obtain ⟨hl, hs⟩ := Option.ite_none_right_eq_some.mp hs
      obtain rfl := Option.some.inj hs
      exact h.replace stay hinv (hself db (.refl hinv)) (hl.disjoint hdisj rfl) h.done
  | tryLock l k =>
      simp only [Sys.advance] at hs
      split at hs
      · next hl =>
        obtain rfl := Option.some.inj hs
        exact h.replace stay hinv (hself db (.refl hinv)).1 (hl.disjoint hdisj rfl) h.done
      · obtain rfl := Option.some.inj hs
        exact h.replace stay hinv (hself db (.refl hinv)).2 hdisj h.done
  | write w k =>
      obtain rfl := Option.some.inj hs
      exact h.replace stay hinv (hself db (.refl hinv)) hdisj h.done
  | commit k =>
      obtain rfl := Option.some.inj hs
      obtain ⟨hcommit, hk⟩ := hself db (.refl hinv)
      obtain ⟨hv, hrel, hneeds⟩ := hcommit _ (standing_disjoint hdisj) (hguard rfl)
      have hrely : ∀ b ∈ l₁ ++ l₂, A.Rely b.label b.locks db (view writes db) :=
        fun b hb => ⟨hv, hneeds b.standing (List.mem_map_of_mem hb)⟩
      refine h.replace hrely hv (hk hv) (by simp [Session.Disjoint]) ?_
      intro op before after hmem
      rcases List.mem_cons.mp hmem with heq | hmem
      · cases heq
        exact hrel
      · exact h.done op before after hmem
  | rollback k =>
      obtain rfl := Option.some.inj hs
      exact h.replace stay hinv (hself db (.refl hinv)) (by simp [Session.Disjoint]) h.done

variable [DecidableEq ℓ] {prog : Λ → Tx σ ω ℓ α} {s s' : Sys Λ σ ω ℓ α}

/-- One step under the condition keeps the invariant of the system. -/
theorem move (hprog : A.Kept prog) (h : Minded A s) {a : Sys.Action Λ}
    (hok : Sys.Allowed A.guard a s) (hmove : Sys.move prog a s = some s') : Minded A s' := by
  obtain ⟨db, sessions, log⟩ := s
  cases a with
  | start op =>
      obtain rfl := Option.some.inj hmove
      refine ⟨h.inv, ?_, ?_, ?_⟩
      · intro b hb
        rcases List.mem_append.mp hb with hb | hb
        · exact h.minds b hb
        · obtain rfl := List.mem_singleton.mp hb
          exact hprog op db h.inv
      · refine List.pairwise_append.mpr ⟨h.disjoint, by simp, ?_⟩
        intro a _ b hb l _
        obtain rfl := List.mem_singleton.mp hb
        simp
      · intro op' before after hmem
        simp only [Sys.start, List.mem_cons, reduceCtorEq, false_or] at hmem
        exact h.done op' before after hmem
  | advance i =>
      obtain ⟨t, ht, hadvance⟩ := Option.bind_eq_some_iff.mp hmove
      have hguard := hok t ht
      have hsplit := eq_take_cons_drop ht
      simp only [Sys.others] at hguard
      simp only at hsplit hadvance hguard
      generalize sessions.take i = l₁ at hsplit hadvance hguard
      generalize sessions.drop (i + 1) = l₂ at hsplit hadvance hguard
      subst hsplit
      exact h.advance hguard hadvance
  | fail i =>
      obtain ⟨t, ht, rfl⟩ := Option.map_eq_some_iff.mp hmove
      have hsplit := eq_take_cons_drop ht
      simp only at hsplit
      rw [hsplit] at h
      exact h.remove h.done

end Sys.Minded

/-- **The store keeps the invariant, and every commit does what it is to do**, as long as every commit
meets the condition. -/
theorem Accord.sound [Store σ ω] [DecidableEq ℓ] {A : Accord Λ σ ω ℓ} {prog : Λ → Tx σ ω ℓ α} {db : σ}
    {s : Sys Λ σ ω ℓ α} (hprog : A.Kept prog) (hinit : A.inv db)
    (hs : Go.ReachIf (Sys.move prog) (Sys.Allowed A.guard) (Sys.idle db) s) :
    A.inv s.db ∧
      ∀ op before after, .committed op before after ∈ s.log → A.rel op before after := by
  have hstart : Sys.Minded A (Sys.idle db : Sys Λ σ ω ℓ α) :=
    ⟨hinit, by simp [Sys.idle], by simp [Sys.idle], by simp [Sys.idle]⟩
  have hminded : Sys.Minded A s :=
    Go.ReachIf.invariant hstart (fun _ _ _ h hok hmove => h.move hprog hok hmove) hs
  exact ⟨hminded.inv, hminded.done⟩

end Sql
