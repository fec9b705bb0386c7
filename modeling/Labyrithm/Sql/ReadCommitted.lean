import Labyrithm.Sql.Transaction
import Mathlib.Data.List.Pairwise

/-!
# Interleaved transactions at READ COMMITTED

`Sys` runs any number of handler programs over one committed store, one program step at a time, in
any order.  A read takes a fresh snapshot: the committed store with the session's own writes on top.
A lock waits until no other session holds it and is given back at commit or rollback.  A commit
publishes all writes of the transaction at once.

The logic over it is rely–guarantee.  A `Protocol` names an invariant of the committed store and,
for each lock, the relation between two committed stores that everyone keeps who does *not* hold the
lock.  `Tx.Safe` is the proof obligation of one program, by recursion on it: at every step the
committed store may have moved, but not in what the session's locks protect; at every commit the
program must keep the invariant, change nothing that a lock it does not hold protects, and make a
step of its own commit relation `R`.

* `Reach.good` — when every program is `Safe`, every reachable system satisfies the invariant, every
  commit is an `R` step and every reply satisfies its postcondition.
* `Reach.history` — the induction rule for facts about the committed store together with the history
  of commits that led to it; `Reach.committed` goes back to the system a commit was made in.
* `Tx.Safe.exec` — the same obligations hold of the program run alone.
-/

namespace Sql

/-- What the programs over one store agree on: an invariant of the committed store, and what
everyone who does not hold a lock leaves as it is. -/
structure Protocol (σ ℓ : Type) where
  inv : σ → Prop
  frame : ℓ → σ → σ → Prop
  frame_refl : ∀ l c, frame l c c
  frame_trans : ∀ l {a b c}, frame l a b → frame l b c → frame l a c

namespace Protocol

variable {σ ℓ : Type} (D : Protocol σ ℓ)

/-- What a session that holds the locks `H` can rely on while the others commit. -/
def Rely (H : List ℓ) (c c' : σ) : Prop := D.inv c' ∧ ∀ l ∈ H, D.frame l c c'

variable {D}

lemma Rely.refl {H : List ℓ} {c : σ} (h : D.inv c) : D.Rely H c c :=
  ⟨h, fun l _ => D.frame_refl l c⟩

lemma Rely.trans {H : List ℓ} {a b c : σ} (h₁ : D.Rely H a b) (h₂ : D.Rely H b c) :
    D.Rely H a c :=
  ⟨h₂.1, fun l hl => D.frame_trans l (h₁.2 l hl) (h₂.2 l hl)⟩

end Protocol

/-! ## The obligation of one program -/

namespace Tx

variable {σ ω ℓ α β ε : Type} [Store σ ω]

/-- The program is safe from here: the session holds `H`, has written `ws`, and the committed store
is `c`.  `Q` is what it must establish when it returns. -/
def Safe (D : Protocol σ ℓ) (R : σ → σ → Prop) :
    Tx σ ω ℓ α → (α → List ℓ → List ω → σ → Prop) → List ℓ → List ω → σ → Prop
  | ret a, Q, H, ws, c => ∀ c', D.Rely H c c' → Q a H ws c'
  | read k, Q, H, ws, c => ∀ c', D.Rely H c c' → Safe D R (k (view ws c')) Q H ws c'
  | lock l k, Q, H, ws, c => ∀ c', D.Rely H c c' → Safe D R k Q (l :: H) ws c'
  | tryLock l k, Q, H, ws, c => ∀ c', D.Rely H c c' →
      Safe D R (k true) Q (l :: H) ws c' ∧ Safe D R (k false) Q H ws c'
  | write w k, Q, H, ws, c => ∀ c', D.Rely H c c' → Safe D R k Q H (ws ++ [w]) c'
  | commit k, Q, H, ws, c => ∀ c', D.Rely H c c' →
      (D.inv (view ws c') ∧ R c' (view ws c') ∧ ∀ l ∉ H, D.frame l c' (view ws c')) ∧
      ∀ c'', D.inv c'' → Safe D R k Q [] [] c''
  | rollback k, Q, _, _, _ => ∀ c'', D.inv c'' → Safe D R k Q [] [] c''

variable {D : Protocol σ ℓ} {R : σ → σ → Prop}

/-- Safety is stable: the other sessions may commit what the held locks allow. -/
theorem Safe.rely {t : Tx σ ω ℓ α} {Q : α → List ℓ → List ω → σ → Prop} {H : List ℓ} {ws : List ω}
    {c c' : σ} (h : Safe D R t Q H ws c) (hc : D.Rely H c c') : Safe D R t Q H ws c' := by
  cases t with
  | ret a => exact fun d hd => h d (hc.trans hd)
  | read k => exact fun d hd => h d (hc.trans hd)
  | lock l k => exact fun d hd => h d (hc.trans hd)
  | tryLock l k => exact fun d hd => h d (hc.trans hd)
  | write w k => exact fun d hd => h d (hc.trans hd)
  | commit k => exact fun d hd => h d (hc.trans hd)
  | rollback k => exact h

/-- The rule of consequence. -/
theorem Safe.mono {t : Tx σ ω ℓ α} {Q Q' : α → List ℓ → List ω → σ → Prop} {H : List ℓ}
    {ws : List ω} {c : σ} (h : Safe D R t Q H ws c)
    (hQ : ∀ a H ws c, Q a H ws c → Q' a H ws c) : Safe D R t Q' H ws c := by
  induction t generalizing H ws c with
  | ret a => exact fun d hd => hQ _ _ _ _ (h d hd)
  | read k ih => exact fun d hd => ih _ (h d hd)
  | lock l k ih => exact fun d hd => ih (h d hd)
  | tryLock l k ih => exact fun d hd => ⟨ih true (h d hd).1, ih false (h d hd).2⟩
  | write w k ih => exact fun d hd => ih (h d hd)
  | commit k ih => exact fun d hd => ⟨(h d hd).1, fun e he => ih ((h d hd).2 e he)⟩
  | rollback k ih => exact fun e he => ih (h e he)

/-- What holds at the return holds at every later store the session can rely on. -/
theorem Safe.later {t : Tx σ ω ℓ α} {Q : α → List ℓ → List ω → σ → Prop} {H : List ℓ}
    {ws : List ω} {c : σ} (h : Safe D R t Q H ws c) :
    Safe D R t (fun a H ws c => ∀ c', D.Rely H c c' → Q a H ws c') H ws c := by
  induction t generalizing H ws c with
  | ret a => exact fun d hd e he => h e (hd.trans he)
  | read k ih => exact fun d hd => ih _ (h d hd)
  | lock l k ih => exact fun d hd => ih (h d hd)
  | tryLock l k ih => exact fun d hd => ⟨ih true (h d hd).1, ih false (h d hd).2⟩
  | write w k ih => exact fun d hd => ih (h d hd)
  | commit k ih => exact fun d hd => ⟨(h d hd).1, fun e he => ih ((h d hd).2 e he)⟩
  | rollback k ih => exact fun e he => ih (h e he)

/-- The rule of sequencing. -/
theorem Safe.bind {t : Tx σ ω ℓ α} {f : α → Tx σ ω ℓ β} {Q : β → List ℓ → List ω → σ → Prop}
    {H : List ℓ} {ws : List ω} {c : σ} (hinv : D.inv c)
    (h : Safe D R t (fun a H ws c => D.inv c → Safe D R (f a) Q H ws c) H ws c) :
    Safe D R (t >>= f) Q H ws c := by
  rw [bind_eq]
  induction t generalizing H ws c with
  | ret a => exact h c (.refl hinv) hinv
  | read k ih => exact fun d hd => ih _ hd.1 (h d hd)
  | lock l k ih => exact fun d hd => ih hd.1 (h d hd)
  | tryLock l k ih => exact fun d hd => ⟨ih true hd.1 (h d hd).1, ih false hd.1 (h d hd).2⟩
  | write w k ih => exact fun d hd => ih hd.1 (h d hd)
  | commit k ih => exact fun d hd => ⟨(h d hd).1, fun e he => ih he ((h d hd).2 e he)⟩
  | rollback k ih => exact fun e he => ih he (h e he)

/-- A program that is safe among others is safe alone: every state it publishes is reached by steps
of `R` through states that satisfy the invariant. -/
theorem Safe.exec {t : Tx σ ω ℓ α} {Q : α → Prop} {H : List ℓ} {ws : List ω} {c : σ}
    (hinv : D.inv c) (h : Safe D R t (fun a _ _ _ => Q a) H ws c) :
    Q (exec t c (view ws c)).1 ∧
      Relation.ReflTransGen (fun x y => D.inv x ∧ D.inv y ∧ R x y) c
        (exec t c (view ws c)).2.1 := by
  induction t generalizing H ws c with
  | ret a => exact ⟨h c (.refl hinv), .refl⟩
  | read k ih => exact ih _ hinv (h c (.refl hinv))
  | lock l k ih => exact ih hinv (h c (.refl hinv))
  | tryLock l k ih => exact ih true hinv (h c (.refl hinv)).1
  | write w k ih =>
      have := ih hinv (h c (.refl hinv))
      rwa [view_append_singleton] at this
  | commit k ih =>
      obtain ⟨⟨hv, hR, -⟩, hk⟩ := h c (.refl hinv)
      have := ih hv (hk _ hv)
      exact ⟨this.1, .head ⟨hinv, hv, hR⟩ this.2⟩
  | rollback k ih => exact ih hinv (h c hinv)

end Tx

/-! ## The interleaved system -/

/-- One handler in progress: what it was asked to do, what is left of it, what it has written since
its last commit, the locks it holds, and the stores before and after each commit it has made. -/
structure Session (Λ σ ω ℓ α : Type) where
  label : Λ
  prog : Tx σ ω ℓ α
  writes : List ω
  locks : List ℓ
  published : List (σ × σ)

/-- What the history of a system records.  A reply comes with the commits its handler made. -/
inductive Event (Λ σ α : Type)
  | started (op : Λ)
  | committed (op : Λ) (before after : σ)
  | replied (op : Λ) (reply : α) (published : List (σ × σ))

/-- The committed store, the sessions in progress and the history, newest event first. -/
structure Sys (Λ σ ω ℓ α : Type) where
  db : σ
  sessions : List (Session Λ σ ω ℓ α)
  log : List (Event Λ σ α)

namespace Sys

variable {Λ σ ω ℓ α : Type} [Store σ ω] [DecidableEq ℓ]

/-- No other session holds `l`. -/
def Free (l : ℓ) (others : List (Session Λ σ ω ℓ α)) : Prop := ∀ t ∈ others, l ∉ t.locks

instance (l : ℓ) (others : List (Session Λ σ ω ℓ α)) : Decidable (Free l others) :=
  inferInstanceAs (Decidable (∀ t ∈ others, l ∉ t.locks))

/-- One step of the session `t` that stands between `l₁` and `l₂`; `none` when it has to wait. -/
def advance (db : σ) (log : List (Event Λ σ α)) (l₁ : List (Session Λ σ ω ℓ α))
    (t : Session Λ σ ω ℓ α) (l₂ : List (Session Λ σ ω ℓ α)) : Option (Sys Λ σ ω ℓ α) :=
  match t.prog with
  | .ret a => some ⟨db, l₁ ++ l₂, .replied t.label a t.published :: log⟩
  | .read k => some ⟨db, l₁ ++ { t with prog := k (view t.writes db) } :: l₂, log⟩
  | .lock l k =>
      if Free l (l₁ ++ l₂) then
        some ⟨db, l₁ ++ { t with prog := k, locks := l :: t.locks } :: l₂, log⟩
      else none
  | .tryLock l k =>
      if Free l (l₁ ++ l₂) then
        some ⟨db, l₁ ++ { t with prog := k true, locks := l :: t.locks } :: l₂, log⟩
      else some ⟨db, l₁ ++ { t with prog := k false } :: l₂, log⟩
  | .write w k => some ⟨db, l₁ ++ { t with prog := k, writes := t.writes ++ [w] } :: l₂, log⟩
  | .commit k =>
      some ⟨view t.writes db,
        l₁ ++ ⟨t.label, k, [], [], t.published ++ [(db, view t.writes db)]⟩ :: l₂,
        .committed t.label db (view t.writes db) :: log⟩
  | .rollback k => some ⟨db, l₁ ++ { t with prog := k, writes := [], locks := [] } :: l₂, log⟩

/-- A new session for `op`. -/
def start (prog : Λ → Tx σ ω ℓ α) (s : Sys Λ σ ω ℓ α) (op : Λ) : Sys Λ σ ω ℓ α :=
  ⟨s.db, s.sessions ++ [⟨op, prog op, [], [], []⟩], .started op :: s.log⟩

end Sys

section Reach

variable {Λ σ ω ℓ α : Type} [Store σ ω] [DecidableEq ℓ]

/-- The systems that can arise from an initial store: sessions start, take a step, or fail (a lost
connection, a deadlock victim), and the environment changes the store in its own way. -/
inductive Reach (prog : Λ → Tx σ ω ℓ α) (env : σ → σ → Prop) (init : σ → Prop) :
    Sys Λ σ ω ℓ α → Prop
  | init {db : σ} : init db → Reach prog env init ⟨db, [], []⟩
  | start {s : Sys Λ σ ω ℓ α} (op : Λ) : Reach prog env init s →
      Reach prog env init (s.start prog op)
  | step {db : σ} {l₁ l₂ : List (Session Λ σ ω ℓ α)} {t : Session Λ σ ω ℓ α}
      {log : List (Event Λ σ α)} {s' : Sys Λ σ ω ℓ α} :
      Reach prog env init ⟨db, l₁ ++ t :: l₂, log⟩ → Sys.advance db log l₁ t l₂ = some s' →
      Reach prog env init s'
  | fail {db : σ} {l₁ l₂ : List (Session Λ σ ω ℓ α)} {t : Session Λ σ ω ℓ α}
      {log : List (Event Λ σ α)} :
      Reach prog env init ⟨db, l₁ ++ t :: l₂, log⟩ → Reach prog env init ⟨db, l₁ ++ l₂, log⟩
  | env {s : Sys Λ σ ω ℓ α} {db' : σ} : Reach prog env init s → env s.db db' →
      Reach prog env init ⟨db', s.sessions, s.log⟩

/-- Fewer changes by the environment lead to fewer systems. -/
lemma Reach.mono {prog : Λ → Tx σ ω ℓ α} {env env' : σ → σ → Prop} {init : σ → Prop}
    {s : Sys Λ σ ω ℓ α} (hs : Reach prog env init s) (himp : ∀ db db', env db db' → env' db db') :
    Reach prog env' init s := by
  induction hs with
  | init h => exact .init h
  | start op _ ih => exact .start op ih
  | step _ hadv ih => exact .step ih hadv
  | fail _ ih => exact .fail ih
  | env _ he ih => exact .env ih (himp _ _ he)

/-- Two sessions hold no lock in common. -/
def Session.Disjoint (a b : Session Λ σ ω ℓ α) : Prop := ∀ l ∈ a.locks, l ∉ b.locks

/-- What the obligations give for one step: the step is silent, replies, or commits. -/
inductive Effect (D : Protocol σ ℓ) (R : Λ → σ → σ → Prop) (Post : Λ → α → Prop) (db : σ)
    (log : List (Event Λ σ α)) : σ → List (Event Λ σ α) → Prop
  | silent : Effect D R Post db log db log
  | reply (op : Λ) (a : α) (ps : List (σ × σ)) : Post op a →
      Effect D R Post db log db (.replied op a ps :: log)
  | commit (op : Λ) (db' : σ) : D.inv db → D.inv db' → R op db db' →
      Effect D R Post db log db' (.committed op db db' :: log)

/-- The invariant of the interleaved system. -/
structure Sys.Good (D : Protocol σ ℓ) (R : Λ → σ → σ → Prop) (Post : Λ → α → Prop)
    (s : Sys Λ σ ω ℓ α) : Prop where
  inv : D.inv s.db
  safe : ∀ t ∈ s.sessions,
    Tx.Safe D (R t.label) t.prog (fun a _ _ _ => Post t.label a) t.locks t.writes s.db
  disjoint : s.sessions.Pairwise Session.Disjoint

end Reach

/-! ## Soundness -/

section Soundness

variable {Λ σ ω ℓ α : Type}

lemma Session.Disjoint.symm {a b : Session Λ σ ω ℓ α} (h : a.Disjoint b) : b.Disjoint a :=
  fun l hl ha => h l ha hl

/-- Nobody else holds a lock of a session that has taken one more, where that one was free. -/
lemma Sys.Free.disjoint {l : ℓ} {others : List (Session Λ σ ω ℓ α)} {t t' : Session Λ σ ω ℓ α}
    (hl : Sys.Free l others) (hdisj : ∀ b ∈ others, t.Disjoint b) (hlocks : t'.locks = l :: t.locks) :
    ∀ b ∈ others, t'.Disjoint b := by
  intro b hb l' hl'
  rw [hlocks] at hl'
  rcases List.mem_cons.mp hl' with rfl | hl'
  · exact hl b hb
  · exact hdisj b hb l' hl'

lemma pairwise_disjoint_middle {l₁ l₂ : List (Session Λ σ ω ℓ α)} {t : Session Λ σ ω ℓ α} :
    (l₁ ++ t :: l₂).Pairwise Session.Disjoint
      ↔ (∀ b ∈ l₁ ++ l₂, t.Disjoint b) ∧ (l₁ ++ l₂).Pairwise Session.Disjoint := by
  rw [List.pairwise_middle fun {a b} (h : Session.Disjoint a b) => h.symm, List.pairwise_cons]

lemma mem_middle {l₁ l₂ : List (Session Λ σ ω ℓ α)} {t b : Session Λ σ ω ℓ α} :
    b ∈ l₁ ++ t :: l₂ ↔ b = t ∨ b ∈ l₁ ++ l₂ := by
  simp only [List.mem_append, List.mem_cons]
  tauto

variable [Store σ ω] {D : Protocol σ ℓ} {R : Λ → σ → σ → Prop} {Post : Λ → α → Prop}

section Step

variable {db : σ} {log : List (Event Λ σ α)} {l₁ l₂ : List (Session Λ σ ω ℓ α)}
  {t : Session Λ σ ω ℓ α}

lemma Sys.Good.self (h : Sys.Good D R Post ⟨db, l₁ ++ t :: l₂, log⟩) :
    Tx.Safe D (R t.label) t.prog (fun a _ _ _ => Post t.label a) t.locks t.writes db :=
  h.safe t (mem_middle.mpr (Or.inl rfl))

/-- A session ends, whatever the reason. -/
lemma Sys.Good.remove (h : Sys.Good D R Post ⟨db, l₁ ++ t :: l₂, log⟩)
    (log' : List (Event Λ σ α)) : Sys.Good D R Post ⟨db, l₁ ++ l₂, log'⟩ where
  inv := h.inv
  safe b hb := h.safe b (mem_middle.mpr (Or.inr hb))
  disjoint := (pairwise_disjoint_middle.mp h.disjoint).2

/-- The session `t` becomes `t'`, and the store becomes one the others can rely on. -/
lemma Sys.Good.replace {db' : σ} {t' : Session Λ σ ω ℓ α}
    (h : Sys.Good D R Post ⟨db, l₁ ++ t :: l₂, log⟩) (log' : List (Event Λ σ α))
    (hrely : ∀ b ∈ l₁ ++ l₂, D.Rely b.locks db db') (hinv : D.inv db')
    (hsafe : Tx.Safe D (R t'.label) t'.prog (fun a _ _ _ => Post t'.label a) t'.locks t'.writes db')
    (hdisj : ∀ b ∈ l₁ ++ l₂, t'.Disjoint b) :
    Sys.Good D R Post ⟨db', l₁ ++ t' :: l₂, log'⟩ where
  inv := hinv
  safe b hb := by
    rcases mem_middle.mp hb with rfl | hb
    · exact hsafe
    · exact (h.safe b (mem_middle.mpr (Or.inr hb))).rely (hrely b hb)
  disjoint := pairwise_disjoint_middle.mpr ⟨hdisj, (pairwise_disjoint_middle.mp h.disjoint).2⟩

/-- Every step of a session keeps the system invariant, and its effect is the one promised. -/
theorem Sys.Good.advance [DecidableEq ℓ] {s' : Sys Λ σ ω ℓ α}
    (h : Sys.Good D R Post ⟨db, l₁ ++ t :: l₂, log⟩) (hs : Sys.advance db log l₁ t l₂ = some s') :
    Sys.Good D R Post s' ∧ Effect D R Post db log s'.db s'.log := by
  obtain ⟨label, prog, writes, locks, published⟩ := t
  have hself := h.self
  have hinv : D.inv db := h.inv
  have hdisj := (pairwise_disjoint_middle.mp h.disjoint).1
  have stay : ∀ b ∈ l₁ ++ l₂, D.Rely b.locks db db := fun b _ => .refl hinv
  cases prog with
  | ret a =>
      simp only [Sys.advance, Option.some.injEq] at hs
      subst hs
      exact ⟨h.remove _, .reply _ _ _ (hself db (.refl hinv))⟩
  | read k =>
      simp only [Sys.advance, Option.some.injEq] at hs
      subst hs
      exact ⟨h.replace _ stay hinv (hself db (.refl hinv)) hdisj, .silent⟩
  | lock l k =>
      simp only [Sys.advance] at hs
      split at hs
      · next hl =>
        simp only [Option.some.injEq] at hs
        subst hs
        exact ⟨h.replace _ stay hinv (hself db (.refl hinv)) (hl.disjoint hdisj rfl), .silent⟩
      · simp at hs
  | tryLock l k =>
      simp only [Sys.advance] at hs
      split at hs
      · next hl =>
        simp only [Option.some.injEq] at hs
        subst hs
        exact ⟨h.replace _ stay hinv (hself db (.refl hinv)).1 (hl.disjoint hdisj rfl), .silent⟩
      · simp only [Option.some.injEq] at hs
        subst hs
        exact ⟨h.replace _ stay hinv (hself db (.refl hinv)).2 hdisj, .silent⟩
  | write w k =>
      simp only [Sys.advance, Option.some.injEq] at hs
      subst hs
      exact ⟨h.replace _ stay hinv (hself db (.refl hinv)) hdisj, .silent⟩
  | commit k =>
      simp only [Sys.advance, Option.some.injEq] at hs
      subst hs
      obtain ⟨⟨hv, hR, hframe⟩, hk⟩ := hself db (.refl hinv)
      refine ⟨h.replace _ ?_ hv (hk _ hv) ?_, .commit _ _ hinv hv hR⟩
      -- whoever else holds a lock relies on what this session, not holding it, left alone
      · exact fun b hb => ⟨hv, fun l hl => hframe l fun hl' => hdisj b hb l hl' hl⟩
      · simp [Session.Disjoint]
  | rollback k =>
      simp only [Sys.advance, Option.some.injEq] at hs
      subst hs
      exact ⟨h.replace _ stay hinv (hself db hinv) (by simp [Session.Disjoint]), .silent⟩

end Step

/-- What has to be proved of a family of programs: each is safe, the environment keeps the
invariant and every frame, and the initial stores satisfy the invariant. -/
structure Verified (D : Protocol σ ℓ) (R : Λ → σ → σ → Prop) (Post : Λ → α → Prop)
    (prog : Λ → Tx σ ω ℓ α) (env : σ → σ → Prop) (init : σ → Prop) : Prop where
  prog : ∀ op c, D.inv c → Tx.Safe D (R op) (prog op) (fun a _ _ _ => Post op a) [] [] c
  env : ∀ c c', D.inv c → env c c' → D.inv c' ∧ ∀ l, D.frame l c c'
  init : ∀ c, init c → D.inv c

variable [DecidableEq ℓ] {prog : Λ → Tx σ ω ℓ α} {env : σ → σ → Prop} {init : σ → Prop}

/-- **Soundness.**  Every reachable system satisfies the invariant. -/
theorem Reach.good (hv : Verified D R Post prog env init) {s : Sys Λ σ ω ℓ α}
    (hs : Reach prog env init s) : s.Good D R Post := by
  induction hs with
  | init h => exact ⟨hv.init _ h, by simp, by simp⟩
  | @start s op _ ih =>
      refine ⟨ih.inv, ?_, ?_⟩
      · intro b hb
        rcases List.mem_append.mp hb with hb | hb
        · exact ih.safe b hb
        · rw [List.mem_singleton] at hb
          subst hb
          exact hv.prog op _ ih.inv
      · refine List.pairwise_append.mpr ⟨ih.disjoint, by simp, ?_⟩
        intro a _ b hb l _
        rw [List.mem_singleton] at hb
        simp [hb]
  | step _ hadv ih => exact (ih.advance hadv).1
  | fail _ ih => exact ih.remove _
  | @env s db' _ henv ih =>
      obtain ⟨hinv, hframe⟩ := hv.env _ _ ih.inv henv
      exact ⟨hinv, fun b hb => (ih.safe b hb).rely ⟨hinv, fun l _ => hframe l⟩, ih.disjoint⟩

/-- **Induction over the history.**  A relation between the committed store and the history that
starts, replies, the environment and `R` commits keep holds in every reachable system. -/
theorem Reach.history (hv : Verified D R Post prog env init)
    (P : σ → List (Event Λ σ α) → Prop) (hinit : ∀ db, init db → P db [])
    (hstart : ∀ db log op, P db log → P db (.started op :: log))
    (hreply : ∀ db log op a ps, P db log → Post op a → P db (.replied op a ps :: log))
    (hcommit : ∀ db db' log op, P db log → D.inv db → D.inv db' → R op db db' →
      P db' (.committed op db db' :: log))
    (henv : ∀ db db' log, P db log → env db db' → P db' log)
    {s : Sys Λ σ ω ℓ α} (hs : Reach prog env init s) : P s.db s.log := by
  induction hs with
  | init h => exact hinit _ h
  | start op _ ih => exact hstart _ _ _ ih
  | @step db l₁ l₂ t log s' hr hadv ih =>
      obtain ⟨db', sessions', log'⟩ := s'
      have heff : Effect D R Post db log db' log' := ((hr.good hv).advance hadv).2
      cases heff with
      | silent => exact ih
      | reply op a ps ha => exact hreply _ _ _ _ _ ih ha
      | commit op _ h₁ h₂ hR => exact hcommit _ _ _ _ ih h₁ h₂ hR
  | fail _ ih => exact ih
  | env _ he ih => exact henv _ _ _ ih he

lemma Sys.advance_log {db : σ} {l₁ l₂ : List (Session Λ σ ω ℓ α)} {t : Session Λ σ ω ℓ α}
    {log : List (Event Λ σ α)} {s' : Sys Λ σ ω ℓ α} (h : Sys.advance db log l₁ t l₂ = some s') :
    s'.log = log ∨ ∃ e, s'.log = e :: log := by
  obtain ⟨label, prog, writes, locks, published⟩ := t
  cases prog <;> simp only [Sys.advance, Option.ite_none_right_eq_some, Option.some.injEq] at h
  case ret | commit => exact Or.inr (h ▸ ⟨_, rfl⟩)
  case lock => exact Or.inl (h.2 ▸ rfl)
  case tryLock => split_ifs at h <;> exact Or.inl (Option.some.inj h ▸ rfl)
  all_goals exact Or.inl (h ▸ rfl)

/-- What is old in a history is the history of an earlier system. -/
theorem Reach.older {s : Sys Λ σ ω ℓ α} (hs : Reach prog env init s)
    {newer older : List (Event Λ σ α)} (hlog : s.log = newer ++ older) :
    ∃ s', Reach prog env init s' ∧ s'.log = older := by
  induction hs generalizing newer with
  | init h =>
      obtain ⟨-, rfl⟩ := List.append_eq_nil_iff.mp hlog.symm
      exact ⟨_, .init h, rfl⟩
  | @start s op hr ih =>
      cases newer with
      | nil => exact ⟨_, .start op hr, hlog⟩
      | cons e newer => exact ih (List.cons.inj hlog).2
  | step hr hadv ih =>
      cases newer with
      | nil => exact ⟨_, .step hr hadv, hlog⟩
      | cons e newer =>
          rcases Sys.advance_log hadv with h | ⟨e', h⟩
          · exact ih (h.symm.trans hlog)
          · exact ih (List.cons.inj (h.symm.trans hlog)).2
  | fail hr ih => exact ih hlog
  | env _ _ ih => exact ih hlog

/-- **Going back.**  A commit in the history was an `R` step, and it was made in a reachable system
whose history is what is older than the commit. -/
theorem Reach.committed (hv : Verified D R Post prog env init) {s : Sys Λ σ ω ℓ α}
    (hs : Reach prog env init s) {post older : List (Event Λ σ α)} {op : Λ} {before after : σ}
    (hlog : s.log = post ++ .committed op before after :: older) :
    R op before after ∧ ∃ s', Reach prog env init s' ∧ s'.db = before ∧ s'.log = older := by
  induction hs generalizing post with
  | init h => simp at hlog
  | start op' _ ih =>
      cases post with
      | nil => simp [Sys.start] at hlog
      | cons e post => exact ih (List.cons.inj hlog).2
  | @step db l₁ l₂ t log s' hr hadv ih =>
      obtain ⟨db', sessions', log'⟩ := s'
      have heff : Effect D R Post db log db' log' := ((hr.good hv).advance hadv).2
      simp only at hlog
      subst hlog
      generalize hl : post ++ .committed op before after :: older = log' at heff
      cases heff with
      | silent => exact ih hl.symm
      | reply op' a ps ha =>
          cases post with
          | nil => simp at hl
          | cons e post => exact ih (List.cons.inj hl).2.symm
      | commit op' _ _ _ hR =>
          cases post with
          | nil =>
              obtain ⟨he, rfl⟩ := List.cons.inj hl
              cases he
              exact ⟨hR, _, hr, rfl, rfl⟩
          | cons e post => exact ih (List.cons.inj hl).2.symm
  | fail _ ih => exact ih hlog
  | env _ _ ih => exact ih hlog

end Soundness

/-! ## Schedules -/

section Schedule

variable {Λ σ ω ℓ α : Type} [Store σ ω] [DecidableEq ℓ] {prog : Λ → Tx σ ω ℓ α}
  {env : σ → σ → Prop} {init : σ → Prop}

/-- Let the first session take up to `n` steps. -/
def Sys.advanceFirst : ℕ → Sys Λ σ ω ℓ α → Sys Λ σ ω ℓ α
  | 0, s => s
  | n + 1, s =>
      match s.sessions with
      | [] => s
      | t :: ts =>
          match Sys.advance s.db s.log [] t ts with
          | none => s
          | some s' => advanceFirst n s'

lemma Reach.advanceFirst (n : ℕ) {s : Sys Λ σ ω ℓ α} (hs : Reach prog env init s) :
    Reach prog env init (s.advanceFirst n) := by
  induction n generalizing s with
  | zero => exact hs
  | succ n ih =>
      obtain ⟨db, sessions, log⟩ := s
      unfold Sys.advanceFirst
      cases sessions with
      | nil => exact hs
      | cons t ts =>
          simp only
          cases hadv : Sys.advance db log [] t ts with
          | none => exact hs
          | some s' =>
              have hfirst : Reach prog env init ⟨db, [] ++ t :: ts, log⟩ := hs
              exact ih (.step hfirst hadv)

/-- Serve the requests one after the other, each with at most `n` steps. -/
def Sys.serve (prog : Λ → Tx σ ω ℓ α) (n : ℕ) (s : Sys Λ σ ω ℓ α) (ops : List Λ) : Sys Λ σ ω ℓ α :=
  ops.foldl (fun s op => (s.start prog op).advanceFirst n) s

theorem Reach.serve (n : ℕ) {s : Sys Λ σ ω ℓ α} (hs : Reach prog env init s) (ops : List Λ) :
    Reach prog env init (s.serve prog n ops) := by
  induction ops generalizing s with
  | nil => exact hs
  | cons op ops ih => exact ih (.advanceFirst n (.start op hs))

end Schedule

end Sql
