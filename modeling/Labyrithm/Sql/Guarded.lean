import Labyrithm.Go.Runs
import Labyrithm.Sql.Rules

/-!
# Interleavings whose commits meet a condition

Programs over one store that keep what they promise only where every commit is made under a condition
on the store, on what the session has written and on what the others hold.  `ReadCommitted.lean` is
the same logic without a condition.

A `Discipline` has an invariant, the condition (`guard`), what a commit is to have done (`rel`), and
for each program and lock what the program relies on while it holds the lock.  `Tx.Follows` is the
obligation of one program, with what it owes at a commit as a parameter; `Tx.Attains` is the same for
a handler that may fail, where a failure owes nothing.

* `Sys.move` — the interleaved system as a function, so that a schedule can be run.
* `Sys.Allowed` — the condition, for one step of the system.
* `Sys.Kept.move` — what one such step keeps and does.
* **`Discipline.serial`** — what the commits do one after the other is what the run does.
-/

namespace Sql

/-! ## The obligation of one program -/

namespace Tx

variable {σ ω ℓ α β γ ε : Type} [Store σ ω]

/-- The program owes `C` at every commit, of its locks, its writes and the committed store, and `Q`
when it returns. -/
def Follows (P : Protocol σ ℓ) (C : Assert σ ω ℓ) : Tx σ ω ℓ α → (α → Assert σ ω ℓ) → Assert σ ω ℓ
  | ret a, Q, H, ws, c => ∀ c', P.Rely H c c' → Q a H ws c'
  | read k, Q, H, ws, c => ∀ c', P.Rely H c c' → Follows P C (k (view ws c')) Q H ws c'
  | lock l k, Q, H, ws, c => ∀ c', P.Rely H c c' → Follows P C k Q (l :: H) ws c'
  | tryLock l k, Q, H, ws, c => ∀ c', P.Rely H c c' →
      Follows P C (k true) Q (l :: H) ws c' ∧ Follows P C (k false) Q H ws c'
  | write w k, Q, H, ws, c => ∀ c', P.Rely H c c' → Follows P C k Q H (ws ++ [w]) c'
  | commit k, Q, H, ws, c => ∀ c', P.Rely H c c' →
      C H ws c' ∧ ∀ c'', P.inv c'' → Follows P C k Q [] [] c''
  | rollback k, Q, _, _, _ => ∀ c'', P.inv c'' → Follows P C k Q [] [] c''

namespace Follows

variable {P : Protocol σ ℓ} {C : Assert σ ω ℓ} {H : List ℓ} {ws : List ω} {c : σ}

theorem rely {t : Tx σ ω ℓ α} {Q : α → Assert σ ω ℓ} {c' : σ} (h : Follows P C t Q H ws c)
    (hc : P.Rely H c c') : Follows P C t Q H ws c' := by
  cases t with
  | ret a => exact fun d hd => h d (hc.trans hd)
  | read k => exact fun d hd => h d (hc.trans hd)
  | lock l k => exact fun d hd => h d (hc.trans hd)
  | tryLock l k => exact fun d hd => h d (hc.trans hd)
  | write w k => exact fun d hd => h d (hc.trans hd)
  | commit k => exact fun d hd => h d (hc.trans hd)
  | rollback k => exact h

/-- The rule of consequence. -/
theorem mono {t : Tx σ ω ℓ α} {Q Q' : α → Assert σ ω ℓ} (h : Follows P C t Q H ws c)
    (hQ : ∀ a H ws c, Q a H ws c → Q' a H ws c) : Follows P C t Q' H ws c := by
  induction t generalizing H ws c with
  | ret a => exact fun d hd => hQ _ _ _ _ (h d hd)
  | read k ih => exact fun d hd => ih _ (h d hd)
  | lock l k ih => exact fun d hd => ih (h d hd)
  | tryLock l k ih => exact fun d hd => ⟨ih true (h d hd).1, ih false (h d hd).2⟩
  | write w k ih => exact fun d hd => ih (h d hd)
  | commit k ih => exact fun d hd => ⟨(h d hd).1, fun e he => ih ((h d hd).2 e he)⟩
  | rollback k ih => exact fun e he => ih (h e he)

/-- The rule of sequencing. -/
theorem bind {t : Tx σ ω ℓ α} {f : α → Tx σ ω ℓ β} {Q : β → Assert σ ω ℓ} (hinv : P.inv c)
    (h : Follows P C t (fun a H ws c => P.inv c → Follows P C (f a) Q H ws c) H ws c) :
    Follows P C (t >>= f) Q H ws c := by
  rw [bind_eq]
  induction t generalizing H ws c with
  | ret a => exact h c (.refl hinv) hinv
  | read k ih => exact fun d hd => ih _ hd.1 (h d hd)
  | lock l k ih => exact fun d hd => ih hd.1 (h d hd)
  | tryLock l k ih => exact fun d hd => ⟨ih true hd.1 (h d hd).1, ih false hd.1 (h d hd).2⟩
  | write w k ih => exact fun d hd => ih hd.1 (h d hd)
  | commit k ih => exact fun d hd => ⟨(h d hd).1, fun e he => ih he ((h d hd).2 e he)⟩
  | rollback k ih => exact fun e he => ih he (h e he)

end Follows

/-! ## Handlers that may fail -/

/-- The handler owes `C` at every commit, and where it succeeds `Q` holds at the end. -/
def Attains (P : Protocol σ ℓ) (C : Assert σ ω ℓ) (t : ExceptT ε (Tx σ ω ℓ) α)
    (Q : α → Assert σ ω ℓ) : Assert σ ω ℓ :=
  Follows P C t.run fun r H ws c =>
    match r with
    | .ok a => Q a H ws c
    | .error _ => True

namespace Attains

variable {P : Protocol σ ℓ} {C : Assert σ ω ℓ} {Q : β → Assert σ ω ℓ} {H : List ℓ} {ws : List ω}
  {c : σ}

theorem mono {t : ExceptT ε (Tx σ ω ℓ) β} {Q' : β → Assert σ ω ℓ} (h : Attains P C t Q' H ws c)
    (hQ : ∀ a H ws c, Q' a H ws c → Q a H ws c) : Attains P C t Q H ws c := by
  refine Follows.mono h fun r H ws c hr => ?_
  cases r with
  | ok a => exact hQ _ _ _ _ hr
  | error e => trivial

/-- Sequencing through an intermediate assertion. -/
theorem seq {t : ExceptT ε (Tx σ ω ℓ) α} {f : α → ExceptT ε (Tx σ ω ℓ) β} {A : α → Assert σ ω ℓ}
    (hinv : P.inv c) (ht : Attains P C t A H ws c)
    (hf : ∀ a H ws c, P.inv c → A a H ws c → Attains P C (f a) Q H ws c) :
    Attains P C (t >>= f) Q H ws c := by
  refine Follows.bind hinv (Follows.mono ht fun r H ws c hr hi => ?_)
  cases r with
  | ok a => exact hf a H ws c hi hr
  | error e => exact fun _ _ => trivial

theorem pure {b : β} (h : ∀ c', P.Rely H c c' → Q b H ws c') :
    Attains P C (Pure.pure b : ExceptT ε (Tx σ ω ℓ) β) Q H ws c := h

theorem throw {e : ε} : Attains P C (throw e : ExceptT ε (Tx σ ω ℓ) β) Q H ws c :=
  fun _ _ => trivial

/-- A snapshot, of some later committed store. -/
theorem select {f : σ → α} {k : α → ExceptT ε (Tx σ ω ℓ) β}
    (h : ∀ c', P.Rely H c c' → Attains P C (k (f (view ws c'))) Q H ws c') :
    Attains P C (select f >>= k) Q H ws c := h

theorem acquire {l : ℓ} {k : Unit → ExceptT ε (Tx σ ω ℓ) β}
    (h : ∀ c', P.Rely H c c' → Attains P C (k ()) Q (l :: H) ws c') :
    Attains P C (acquire l >>= k) Q H ws c := h

/-- A write is nobody's business until it is committed. -/
theorem put {w : ω} {k : Unit → ExceptT ε (Tx σ ω ℓ) β}
    (h : Attains P C (k ()) Q H (ws ++ [w]) c) : Attains P C (put w >>= k) Q H ws c :=
  fun _ hc => Follows.rely h hc

/-- A commit as the last statement. -/
theorem finish {Q : Unit → Assert σ ω ℓ} (hC : ∀ c', P.Rely H c c' → C H ws c')
    (hQ : ∀ c', P.inv c' → Q () [] [] c') :
    Attains P C (finish : ExceptT ε (Tx σ ω ℓ) Unit) Q H ws c :=
  fun c' hc => ⟨hC c' hc, fun _ _ d hd => hQ d hd.1⟩

/-- The deferred rollback. -/
theorem transaction {body : ExceptT ε (Tx σ ω ℓ) β} (hinv : P.inv c)
    (h : Attains P C body (fun b H ws c => ∀ c', P.Rely H c c' → Q b H ws c') H ws c) :
    Attains P C (transaction body) Q H ws c := by
  refine Follows.bind hinv (Follows.mono h fun r H ws c hr _ => ?_)
  cases r with
  | ok a => exact hr
  | error e => exact fun _ _ _ _ => trivial

/-- Loops: an assertion about what is done and what is left, which every iteration keeps. -/
theorem forEach {f : α → ExceptT ε (Tx σ ω ℓ) γ} {J : List α → List α → Assert σ ω ℓ}
    (hJ : ∀ done, (J done []).Stable P)
    (hf : ∀ done x rest H ws c, P.inv c → J done (x :: rest) H ws c →
      Attains P C (f x) (fun _ => J (done ++ [x]) rest) H ws c)
    {xs : List α} (done : List α) (hinv : P.inv c) (h : J done xs H ws c) :
    Attains P C (Tx.forEach f xs) (fun _ => J (done ++ xs) []) H ws c := by
  induction xs generalizing done H ws c with
  | nil =>
      refine pure fun c' hc => ?_
      rw [List.append_nil]
      exact hJ done h hc
  | cons x xs ih =>
      refine seq hinv (hf done x xs H ws c hinv h) fun _ H ws c hi ha => ?_
      refine seq hi (ih (done ++ [x]) hi ha) fun _ H ws c _ hb => ?_
      rw [List.append_assoc, List.singleton_append] at hb
      exact pure fun c' hc => hJ _ hb hc

end Attains

end Tx

/-! ## The system -/

/-- What happens next: a handler starts, the session at a position takes a step, or it fails. -/
inductive Sys.Action (Λ : Type)
  | start (op : Λ)
  | advance (i : ℕ)
  | fail (i : ℕ)

section System

variable {Λ σ ω ℓ α : Type}

/-- The sessions apart from the one at a position. -/
def Sys.others (s : Sys Λ σ ω ℓ α) (i : ℕ) : List (Session Λ σ ω ℓ α) :=
  s.sessions.take i ++ s.sessions.drop (i + 1)

/-- One step of the interleaved system, where it can be taken. -/
def Sys.move [Store σ ω] [DecidableEq ℓ] (prog : Λ → Tx σ ω ℓ α) :
    Sys.Action Λ → Sys Λ σ ω ℓ α → Option (Sys Λ σ ω ℓ α)
  | .start op, s => some (s.start prog op)
  | .advance i, s => s.sessions[i]?.bind fun t =>
      Sys.advance s.db s.log (s.sessions.take i) t (s.sessions.drop (i + 1))
  | .fail i, s => s.sessions[i]?.map fun _ => ⟨s.db, s.others i, s.log⟩

/-- Before anyone has come. -/
def Sys.idle (db : σ) : Sys Λ σ ω ℓ α := ⟨db, [], []⟩

/-- What has been committed, in that order. -/
def Sys.committed (s : Sys Λ σ ω ℓ α) : List Λ :=
  s.log.reverse.filterMap fun
    | .committed op _ _ => some op
    | _ => none

/-- What the others see of a session: what it is for, and its locks. -/
def Session.standing (t : Session Λ σ ω ℓ α) : Λ × List ℓ := (t.label, t.locks)

def Tx.isCommit : Tx σ ω ℓ α → Bool
  | .commit _ => true
  | _ => false

/-- A step is no commit, or one that meets the condition. -/
def Sys.Allowed (guard : Λ → List ω → List (Λ × List ℓ) → σ → Prop) :
    Sys.Action Λ → Sys Λ σ ω ℓ α → Prop
  | .advance i, s => ∀ t ∈ s.sessions[i]?, t.prog.isCommit = true →
      guard t.label t.writes ((s.others i).map Session.standing) s.db
  | .start _, _ => True
  | .fail _, _ => True

instance (guard : Λ → List ω → List (Λ × List ℓ) → σ → Prop) [∀ op ws os c, Decidable (guard op ws os c)]
    (a : Sys.Action Λ) (s : Sys Λ σ ω ℓ α) : Decidable (Sys.Allowed guard a s) :=
  match a with
  | .advance i => inferInstanceAs (Decidable (∀ t ∈ s.sessions[i]?, t.prog.isCommit = true →
      guard t.label t.writes ((s.others i).map Session.standing) s.db))
  | .start _ => isTrue trivial
  | .fail _ => isTrue trivial

/-- What programs over one store agree on where their commits meet a condition. -/
structure Discipline (Λ σ ω ℓ : Type) where
  /-- What is true of the committed store. -/
  inv : σ → Prop
  /-- What a program relies on between two committed stores while it holds a lock. -/
  frame : Λ → ℓ → σ → σ → Prop
  frame_refl : ∀ op l c, frame op l c c
  frame_trans : ∀ op l {a b c}, frame op l a b → frame op l b c → frame op l a c
  /-- The condition on a commit: who makes it, what it has written, the others, and the store. -/
  guard : Λ → List ω → List (Λ × List ℓ) → σ → Prop
  /-- What a commit is to have done. -/
  rel : Λ → σ → σ → Prop

namespace Discipline

variable (D : Discipline Λ σ ω ℓ)

/-- The protocol as one program sees it. -/
def protocol (op : Λ) : Protocol σ ℓ where
  inv := D.inv
  frame := D.frame op
  frame_refl := D.frame_refl op
  frame_trans := D.frame_trans op

/-- What is owed at a commit that meets the condition. -/
def Commits [Store σ ω] (op : Λ) : Assert σ ω ℓ := fun H ws c =>
  ∀ others : List (Λ × List ℓ), (∀ o ∈ others, ∀ l ∈ o.2, l ∉ H) → D.guard op ws others c →
    D.inv (view ws c) ∧ D.rel op c (view ws c) ∧
      ∀ o ∈ others, ∀ l ∈ o.2, D.frame o.1 l c (view ws c)

/-- Every program does what is agreed on, whatever it returns. -/
def Kept [Store σ ω] (prog : Λ → Tx σ ω ℓ α) : Prop :=
  ∀ op c, D.inv c →
    Tx.Follows (D.protocol op) (D.Commits op) (prog op) (fun _ _ _ _ => True) [] [] c

end Discipline

/-! ## Soundness -/

/-- The invariant of the interleaved system. -/
structure Sys.Kept [Store σ ω] (D : Discipline Λ σ ω ℓ) (s : Sys Λ σ ω ℓ α) : Prop where
  inv : D.inv s.db
  follows : ∀ t ∈ s.sessions, Tx.Follows (D.protocol t.label) (D.Commits t.label) t.prog
    (fun _ _ _ _ => True) t.locks t.writes s.db
  disjoint : s.sessions.Pairwise Session.Disjoint

/-- What one step has done: nothing to the store, or a commit. -/
inductive Sys.Outcome (D : Discipline Λ σ ω ℓ) (s s' : Sys Λ σ ω ℓ α) : Prop
  | silent : s'.db = s.db → s'.committed = s.committed → Outcome D s s'
  | commit (op : Λ) : D.rel op s.db s'.db → s'.committed = s.committed ++ [op] → Outcome D s s'

variable {D : Discipline Λ σ ω ℓ} {db : σ} {log : List (Event Λ σ α)}
  {l₁ l₂ : List (Session Λ σ ω ℓ α)} {t : Session Λ σ ω ℓ α}

/-- What the others hold, as a session that shares no lock with them sees it. -/
lemma standing_disjoint {others : List (Session Λ σ ω ℓ α)} (hdisj : ∀ b ∈ others, t.Disjoint b) :
    ∀ o ∈ others.map Session.standing, ∀ l ∈ o.2, l ∉ t.locks := by
  intro o ho l hl hlocks
  obtain ⟨b, hb, rfl⟩ := List.mem_map.mp ho
  exact hdisj b hb l hlocks hl

lemma eq_take_cons_drop {β : Type} {l : List β} {i : ℕ} {b : β} (h : l[i]? = some b) :
    l = l.take i ++ b :: l.drop (i + 1) := by
  obtain ⟨hi, rfl⟩ := List.getElem?_eq_some_iff.mp h
  rw [List.getElem_cons_drop, List.take_append_drop]

lemma Sys.committed_cons (db db' : σ) (l l' : List (Session Λ σ ω ℓ α)) (e : Event Λ σ α) :
    (⟨db', l', e :: log⟩ : Sys Λ σ ω ℓ α).committed =
      (⟨db, l, log⟩ : Sys Λ σ ω ℓ α).committed ++
        match e with
        | .committed op _ _ => [op]
        | _ => [] := by
  cases e <;> simp [Sys.committed]

variable [Store σ ω]

lemma Sys.Kept.remove (h : Sys.Kept D ⟨db, l₁ ++ t :: l₂, log⟩) (log' : List (Event Λ σ α)) :
    Sys.Kept D ⟨db, l₁ ++ l₂, log'⟩ where
  inv := h.inv
  follows b hb := h.follows b (mem_middle.mpr (Or.inr hb))
  disjoint := (pairwise_disjoint_middle.mp h.disjoint).2

/-- The session `t` becomes `t'`, and the store becomes one the others can rely on. -/
lemma Sys.Kept.replace {db' : σ} {t' : Session Λ σ ω ℓ α}
    (h : Sys.Kept D ⟨db, l₁ ++ t :: l₂, log⟩) (log' : List (Event Λ σ α))
    (hrely : ∀ b ∈ l₁ ++ l₂, (D.protocol b.label).Rely b.locks db db') (hinv : D.inv db')
    (hfollows : Tx.Follows (D.protocol t'.label) (D.Commits t'.label) t'.prog (fun _ _ _ _ => True)
      t'.locks t'.writes db')
    (hdisj : ∀ b ∈ l₁ ++ l₂, t'.Disjoint b) : Sys.Kept D ⟨db', l₁ ++ t' :: l₂, log'⟩ where
  inv := hinv
  follows b hb := by
    rcases mem_middle.mp hb with rfl | hb
    · exact hfollows
    · exact (h.follows b (mem_middle.mpr (Or.inr hb))).rely (hrely b hb)
  disjoint := pairwise_disjoint_middle.mpr ⟨hdisj, (pairwise_disjoint_middle.mp h.disjoint).2⟩

/-- A step of a session, under the condition where it is a commit. -/
lemma Sys.Kept.advance [DecidableEq ℓ] {s' : Sys Λ σ ω ℓ α}
    (h : Sys.Kept D ⟨db, l₁ ++ t :: l₂, log⟩)
    (hguard : t.prog.isCommit = true →
      D.guard t.label t.writes ((l₁ ++ l₂).map Session.standing) db)
    (hs : Sys.advance db log l₁ t l₂ = some s') :
    Sys.Kept D s' ∧ Sys.Outcome D ⟨db, l₁ ++ t :: l₂, log⟩ s' := by
  obtain ⟨label, prog, writes, locks, published⟩ := t
  have hself := h.follows _ (mem_middle.mpr (Or.inl rfl))
  have hinv : D.inv db := h.inv
  have hdisj := (pairwise_disjoint_middle.mp h.disjoint).1
  have stay : ∀ b ∈ l₁ ++ l₂, (D.protocol b.label).Rely b.locks db db := fun b _ => .refl hinv
  cases prog with
  | ret a =>
      obtain rfl := Option.some.inj hs
      exact ⟨h.remove _, .silent rfl (by rw [committed_cons db]; simp; rfl)⟩
  | read k =>
      obtain rfl := Option.some.inj hs
      exact ⟨h.replace _ stay hinv (hself db (.refl hinv)) hdisj, .silent rfl rfl⟩
  | lock l k =>
      obtain ⟨hl, hs⟩ := Option.ite_none_right_eq_some.mp hs
      obtain rfl := Option.some.inj hs
      exact ⟨h.replace _ stay hinv (hself db (.refl hinv)) (hl.disjoint hdisj rfl), .silent rfl rfl⟩
  | tryLock l k =>
      simp only [Sys.advance] at hs
      split at hs
      · next hl =>
        obtain rfl := Option.some.inj hs
        exact ⟨h.replace _ stay hinv (hself db (.refl hinv)).1 (hl.disjoint hdisj rfl), .silent rfl rfl⟩
      · obtain rfl := Option.some.inj hs
        exact ⟨h.replace _ stay hinv (hself db (.refl hinv)).2 hdisj, .silent rfl rfl⟩
  | write w k =>
      obtain rfl := Option.some.inj hs
      exact ⟨h.replace _ stay hinv (hself db (.refl hinv)) hdisj, .silent rfl rfl⟩
  | commit k =>
      obtain rfl := Option.some.inj hs
      obtain ⟨hcommit, hk⟩ := hself db (.refl hinv)
      obtain ⟨hv, hrel, hframe⟩ := hcommit _ (standing_disjoint hdisj) (hguard rfl)
      have hrely : ∀ b ∈ l₁ ++ l₂, (D.protocol b.label).Rely b.locks db (view writes db) :=
        fun b hb => ⟨hv, fun l hl => hframe b.standing (List.mem_map_of_mem hb) l hl⟩
      refine ⟨h.replace _ hrely hv (hk _ hv) (by simp [Session.Disjoint]), ?_⟩
      exact .commit label hrel (by rw [committed_cons db])
  | rollback k =>
      obtain rfl := Option.some.inj hs
      exact ⟨h.replace _ stay hinv (hself db hinv) (by simp [Session.Disjoint]), .silent rfl rfl⟩

variable [DecidableEq ℓ] {prog : Λ → Tx σ ω ℓ α} {s s' : Sys Λ σ ω ℓ α}

/-- What one step under the condition keeps, and what it has done. -/
theorem Sys.Kept.move (hprog : D.Kept prog) (h : s.Kept D) {a : Sys.Action Λ}
    (hok : Sys.Allowed D.guard a s) (hmove : Sys.move prog a s = some s') :
    s'.Kept D ∧ Sys.Outcome D s s' := by
  obtain ⟨db, sessions, log⟩ := s
  cases a with
  | start op =>
      obtain rfl := Option.some.inj hmove
      refine ⟨⟨h.inv, fun b hb => ?_, ?_⟩, .silent rfl ?_⟩
      · rcases List.mem_append.mp hb with hb | hb
        · exact h.follows b hb
        · obtain rfl := List.mem_singleton.mp hb
          exact hprog op db h.inv
      · refine List.pairwise_append.mpr ⟨h.disjoint, by simp, fun a _ b hb l _ => ?_⟩
        obtain rfl := List.mem_singleton.mp hb
        simp
      · rw [Sys.start, committed_cons db _ sessions]
        simp
  | advance i =>
      obtain ⟨t, ht, hadvance⟩ := Option.bind_eq_some_iff.mp hmove
      have hguard := hok t ht
      have hsplit := eq_take_cons_drop ht
      simp only [Sys.others] at hguard
      simp only at hsplit hadvance hguard
      generalize sessions.take i = l₁ at hsplit hadvance hguard
      generalize sessions.drop (i + 1) = l₂ at hsplit hadvance hguard
      subst hsplit
      exact h.advance hguard hadvance
  | fail i =>
      obtain ⟨t, ht, rfl⟩ := Option.map_eq_some_iff.mp hmove
      have hsplit := eq_take_cons_drop ht
      simp only at hsplit
      rw [hsplit] at h
      exact ⟨h.remove _, .silent rfl rfl⟩

/-- **The run is what its commits do.**  What holds before anyone has come, and is kept by what a
commit does between two stores with the invariant, holds of the store and the commits so far; and the
store has the invariant. -/
theorem Discipline.serial (hprog : D.Kept prog) (hinit : D.inv db) {P : σ → List Λ → Prop}
    (hP : P db [])
    (hcommit : ∀ ops op c c', P c ops → D.inv c → D.inv c' → D.rel op c c' → P c' (ops ++ [op]))
    (hs : Go.ReachIf (Sys.move prog) (Sys.Allowed D.guard) (Sys.idle db) s) :
    D.inv s.db ∧ P s.db s.committed := by
  have hkept : s.Kept D ∧ P s.db s.committed := by
    refine Go.ReachIf.invariant (P := fun s => s.Kept D ∧ P s.db s.committed) ?_ ?_ hs
    · exact ⟨⟨hinit, by simp [Sys.idle], by simp [Sys.idle]⟩, hP⟩
    intro a s s' ⟨hs, hPs⟩ hok hmove
    obtain ⟨hs', hout⟩ := hs.move hprog hok hmove
    cases hout with
    | silent hdb hcom => exact ⟨hs', hdb ▸ hcom ▸ hPs⟩
    | commit op hrel hcom => exact ⟨hs', hcom ▸ hcommit _ op _ _ hPs hs.inv hs'.inv hrel⟩
  exact ⟨hkept.1.inv, hkept.2⟩

end System

end Sql
