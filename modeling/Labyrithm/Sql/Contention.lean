import Labyrithm.Go.Runs
import Labyrithm.Sql.Transaction
import Mathlib.Order.Basic

/-!
# Waiting for locks

`Cluster` runs handler programs as the backends of one server, with the locks of the server in place of
those the programs name: a statement of the program may need several of them one after the other, in
modes that exclude each other or do not, and a backend that does not get a lock at once waits for it.
Between two turns others may change the store in any way an assumption admits.

* `LockRules` — which locks the statements need, and which exclude each other.
* `Cluster.WaitsFor` — the waits-for graph; `Cluster.Deadlocked`, a cycle in it.
* `Tx.Keeps` — a program takes every lock in a situation its discipline allows, whatever it reads.
* `Cluster.Good` — what holds of every cluster of such programs.
* **`not_deadlocked`** — where every backend that waits wants a lock above all those it holds, there is
  no cycle; `Ranked.turn`, that it stays so as long as every wait begins like that.
-/

namespace Sql

/-- Which locks a statement needs: for a lock of the program, and for a row write.  `conflict` are the
pairs of locks that two backends cannot hold at a time. -/
structure LockRules (Λ ω ℓ κ : Type) where
  onLock : Λ → ℓ → κ
  onWrite : Λ → ω → List κ
  conflict : κ → κ → Bool
  conflict_symm : ∀ l l', conflict l l' = conflict l' l

/-- A backend: the rest of its program, the locks its statement still needs, what it has written since
its last commit, and the locks it holds. -/
structure Backend (Λ σ ω ℓ κ α : Type) where
  label : Λ
  prog : Tx σ ω ℓ α
  todo : List κ
  writes : List ω
  locks : List κ
  waiting : Bool

/-- The committed store and the backends; one that is gone leaves its place empty. -/
structure Cluster (Λ σ ω ℓ κ α : Type) where
  db : σ
  backends : List (Option (Backend Λ σ ω ℓ κ α))

/-- A program starts, a backend takes a step or is gone, or others change the store. -/
inductive Turn (Λ σ : Type)
  | start (op : Λ)
  | advance (pid : ℕ)
  | fail (pid : ℕ)
  | store (db : σ)

namespace Cluster

variable {Λ σ ω ℓ κ α : Type}

def backend (s : Cluster Λ σ ω ℓ κ α) (i : ℕ) : Option (Backend Λ σ ω ℓ κ α) := s.backends[i]?.join

def set (s : Cluster Λ σ ω ℓ κ α) (i : ℕ) (b : Option (Backend Λ σ ω ℓ κ α)) :
    Cluster Λ σ ω ℓ κ α :=
  { s with backends := s.backends.set i b }

/-- No other backend than `i` holds a lock that excludes `l`. -/
def Free (R : LockRules Λ ω ℓ κ) (s : Cluster Λ σ ω ℓ κ α) (i : ℕ) (l : κ) : Prop :=
  ∀ j < s.backends.length, j ≠ i → ∀ b ∈ s.backend j, ∀ l' ∈ b.locks, R.conflict l l' = false

instance (R : LockRules Λ ω ℓ κ) (s : Cluster Λ σ ω ℓ κ α) (i : ℕ) (l : κ) :
    Decidable (s.Free R i l) :=
  inferInstanceAs (Decidable (∀ j < s.backends.length, _))

/-- One step of the backend `b`, which is number `i`: it asks for the next lock its statement needs, or
goes on in its program. -/
def advance [Store σ ω] (R : LockRules Λ ω ℓ κ) (s : Cluster Λ σ ω ℓ κ α) (i : ℕ)
    (b : Backend Λ σ ω ℓ κ α) : Option (Cluster Λ σ ω ℓ κ α) :=
  match b.todo with
  | l :: todo =>
      if s.Free R i l then
        some (s.set i (some { b with todo := todo, locks := l :: b.locks, waiting := false }))
      else some (s.set i (some { b with waiting := true }))
  | [] =>
      match b.prog with
      | .ret _ => none
      | .read k => some (s.set i (some { b with prog := k (view b.writes s.db) }))
      | .lock l k =>
          some (s.set i
            (some { b with prog := k, todo := [R.onLock b.label l], waiting := false }))
      | .tryLock l k =>
          if s.Free R i (R.onLock b.label l) then
            some (s.set i
              (some { b with prog := k true, locks := R.onLock b.label l :: b.locks }))
          else some (s.set i (some { b with prog := k false }))
      | .write w k =>
          some (s.set i (some { b with
            prog := k, todo := R.onWrite b.label w, writes := b.writes ++ [w], waiting := false }))
      | .commit k =>
          some (({ s with db := view b.writes s.db } : Cluster Λ σ ω ℓ κ α).set i
            (some { b with prog := k, writes := [], locks := [] }))
      | .rollback k => some (s.set i (some { b with prog := k, writes := [], locks := [] }))

def turn [Store σ ω] (R : LockRules Λ ω ℓ κ) (prog : Λ → Tx σ ω ℓ α) :
    Turn Λ σ → Cluster Λ σ ω ℓ κ α → Option (Cluster Λ σ ω ℓ κ α)
  | .start op, s => some { s with backends := s.backends ++ [some ⟨op, prog op, [], [], [], false⟩] }
  | .advance i, s => (s.backend i).bind (s.advance R i)
  | .fail i, s => some (s.set i none)
  | .store db, s => some { s with db := db }

section Places

variable {s : Cluster Λ σ ω ℓ κ α} {i j : ℕ} {b : Backend Λ σ ω ℓ κ α}

lemma lt_length (h : s.backend i = some b) : i < s.backends.length := by
  unfold backend at h
  by_contra hge
  rw [List.getElem?_eq_none (Nat.le_of_not_lt hge)] at h
  exact nomatch h

lemma backend_set_self (h : s.backend i = some b) (o : Option (Backend Λ σ ω ℓ κ α)) :
    (s.set i o).backend i = o := by
  unfold backend set
  rw [List.getElem?_set_self (lt_length h)]
  rfl

lemma backend_set_ne (h : j ≠ i) (o : Option (Backend Λ σ ω ℓ κ α)) :
    (s.set i o).backend j = s.backend j := by
  unfold backend set
  rw [List.getElem?_set_ne h.symm]

/-- A backend that is left after one is gone was there before. -/
lemma backend_of_set_none {a : Backend Λ σ ω ℓ κ α} (h : (s.set i none).backend j = some a) :
    s.backend j = some a := by
  by_cases hj : j = i
  · subst hj
    by_cases hlt : j < s.backends.length
    · unfold backend set at h
      rw [List.getElem?_set_self hlt] at h
      exact nomatch h
    · unfold backend set at h
      rw [List.getElem?_eq_none (by simpa using Nat.le_of_not_lt hlt)] at h
      exact nomatch h
  · rwa [backend_set_ne hj] at h

/-- A backend of the cluster that has just got a new one. -/
lemma backend_of_start {new a : Backend Λ σ ω ℓ κ α}
    (h : ({ s with backends := s.backends ++ [some new] } : Cluster Λ σ ω ℓ κ α).backend j = some a) :
    s.backend j = some a ∨ a = new := by
  unfold backend at h ⊢
  rcases Nat.lt_or_ge j s.backends.length with hlt | hge
  · rw [List.getElem?_append_left hlt] at h
    exact .inl h
  · rw [List.getElem?_append_right hge] at h
    cases hj : j - s.backends.length with
    | zero =>
        rw [hj] at h
        exact .inr (Option.some.inj h).symm
    | succ n =>
        rw [hj] at h
        exact nomatch h

lemma Free.of_backend {R : LockRules Λ ω ℓ κ} {l : κ} (h : s.Free R i l) (hj : j ≠ i) (hb : s.backend j = some b) :
    ∀ l' ∈ b.locks, R.conflict l l' = false :=
  h j (lt_length hb) hj b hb

end Places

end Cluster

/-! ## Waits-for -/

/-- The lock a backend is waiting for. -/
def Backend.wanted {Λ σ ω ℓ κ α : Type} (b : Backend Λ σ ω ℓ κ α) : Option κ :=
  if b.waiting then b.todo.head? else none

namespace Cluster

variable {Λ σ ω ℓ κ α : Type}

/-- The backend `i` waits for a lock that one of `j` excludes. -/
def WaitsFor (R : LockRules Λ ω ℓ κ) (s : Cluster Λ σ ω ℓ κ α) (i j : ℕ) : Prop :=
  i ≠ j ∧ ∃ a ∈ s.backend i, ∃ b ∈ s.backend j, ∃ l ∈ a.wanted, ∃ l' ∈ b.locks,
    R.conflict l l' = true

instance (R : LockRules Λ ω ℓ κ) (s : Cluster Λ σ ω ℓ κ α) (i j : ℕ) : Decidable (s.WaitsFor R i j) :=
  inferInstanceAs (Decidable (_ ∧ _))

/-- Some backend waits, directly or through others, for itself. -/
def Deadlocked (R : LockRules Λ ω ℓ κ) (s : Cluster Λ σ ω ℓ κ α) : Prop :=
  ∃ i, Relation.TransGen (s.WaitsFor R) i i

/-- Every backend that waits wants a lock of a higher rank than those it holds. -/
def Ranked {ρ : Type} [LT ρ] (rank : κ → ρ) (s : Cluster Λ σ ω ℓ κ α) : Prop :=
  ∀ i b, s.backend i = some b → ∀ l ∈ b.wanted, ∀ held ∈ b.locks, rank held < rank l

section Rank

variable {ρ : Type} [Preorder ρ] {rank : κ → ρ} {R : LockRules Λ ω ℓ κ} {s : Cluster Λ σ ω ℓ κ α}

/-- Along the waits-for graph the wanted locks get higher and higher. -/
lemma Ranked.lt_of_waits (h : s.Ranked rank)
    (hconflict : ∀ l l', R.conflict l l' = true → rank l = rank l') {i j : ℕ}
    (hwaits : Relation.TransGen (s.WaitsFor R) i j) {a b : Backend Λ σ ω ℓ κ α}
    (ha : s.backend i = some a) (hb : s.backend j = some b) {l m : κ} (hl : l ∈ a.wanted)
    (hm : m ∈ b.wanted) : rank l < rank m := by
  induction hwaits generalizing b m with
  | single hedge =>
      obtain ⟨-, a', ha', b', hb', l', hl', held, hheld, hc⟩ := hedge
      obtain rfl := Option.some.inj (ha.symm.trans ha')
      obtain rfl := Option.some.inj (hb.symm.trans hb')
      obtain rfl := Option.some.inj (hl.symm.trans hl')
      rw [hconflict _ _ hc]
      exact h _ b hb m hm held hheld
  | tail _ hedge ih =>
      obtain ⟨-, a', ha', b', hb', l', hl', held, hheld, hc⟩ := hedge
      obtain rfl := Option.some.inj (hb.symm.trans hb')
      have hlast : rank l' < rank m := by
        rw [hconflict _ _ hc]
        exact h _ b hb m hm held hheld
      exact (ih ha' hl').trans hlast

/-- Locks that exclude each other have one rank: then there is no cycle. -/
theorem not_deadlocked (h : s.Ranked rank)
    (hconflict : ∀ l l', R.conflict l l' = true → rank l = rank l') : ¬ s.Deadlocked R := by
  rintro ⟨i, hcycle⟩
  obtain ⟨j, hedge, -⟩ := Relation.TransGen.head'_iff.mp hcycle
  obtain ⟨-, a, ha, -, -, l, hl, -⟩ := hedge
  exact lt_irrefl _ (h.lt_of_waits hconflict hcycle ha ha hl hl)

variable {i : ℕ} {b b' : Backend Λ σ ω ℓ κ α}

lemma Ranked.replace (h : s.Ranked rank) (hb : s.backend i = some b)
    (hwanted : ∀ l ∈ b'.wanted, ∀ held ∈ b'.locks, rank held < rank l) :
    (s.set i (some b')).Ranked rank := by
  intro j c hc
  by_cases hj : j = i
  · subst hj
    rw [backend_set_self hb] at hc
    obtain rfl := Option.some.inj hc
    exact hwanted
  · rw [backend_set_ne hj] at hc
    exact h j c hc

/-- A backend that is not waiting wants nothing. -/
lemma Ranked.replace_idle (h : s.Ranked rank) (hb : s.backend i = some b)
    (hidle : b'.wanted = none) : (s.set i (some b')).Ranked rank :=
  h.replace hb fun l hl => by
    rw [hidle] at hl
    exact nomatch hl

end Rank

end Cluster

/-! ## Disciplines -/

/-- What the programs can assume of the store they read and keep by their writes, and when they may
ask for a lock, by the locks they hold. -/
structure LockDiscipline (σ ω κ : Type) [Store σ ω] where
  store : σ → Prop
  write : ω → Prop
  may : List κ → κ → Prop
  store_apply : ∀ w c, write w → store c → store (Store.apply w c)

namespace LockDiscipline

variable {σ ω κ : Type} [Store σ ω] (D : LockDiscipline σ ω κ)

/-- A backend that holds the first locks may ask for the second ones, one after the other. -/
def Allows : List κ → List κ → Prop
  | _, [] => True
  | H, l :: ls => D.may H l ∧ Allows (l :: H) ls

/-- The locks were all asked for when they were allowed. -/
def Lawful : List κ → Prop
  | [] => True
  | l :: H => D.may H l ∧ Lawful H

variable {D}

lemma store_view {c : σ} (hc : D.store c) {ws : List ω} (hws : ∀ w ∈ ws, D.write w) :
    D.store (view ws c) := by
  induction ws generalizing c with
  | nil => exact hc
  | cons w ws ih =>
      have hfirst : D.store (Store.apply w c) := D.store_apply w c (hws w (by simp)) hc
      exact ih hfirst fun w' hw' => hws w' (by simp [hw'])

/-- Each lock was allowed with some of the others held. -/
lemma Lawful.may {H : List κ} (h : D.Lawful H) {l : κ} (hl : l ∈ H) :
    ∃ H', (∀ l' ∈ H', l' ∈ H) ∧ D.may H' l := by
  induction H with
  | nil => exact (List.not_mem_nil hl).elim
  | cons l' H ih =>
      rcases List.mem_cons.mp hl with rfl | hl
      · exact ⟨H, fun l' hl' => List.mem_cons_of_mem _ hl', h.1⟩
      · obtain ⟨H', hsub, hmay⟩ := ih h.2 hl
        exact ⟨H', fun l'' hl'' => List.mem_cons_of_mem _ (hsub l'' hl''), hmay⟩

end LockDiscipline

namespace Tx

variable {Λ σ ω ℓ κ α β γ ε : Type} [Store σ ω]

/-- From here on the program of `op`, which holds `H`, keeps the discipline.  `Q` is what holds of its
value and its locks when it returns. -/
def Keeps (R : LockRules Λ ω ℓ κ) (op : Λ) (D : LockDiscipline σ ω κ) :
    Tx σ ω ℓ α → (α → List κ → Prop) → List κ → Prop
  | ret a, Q, H => Q a H
  | read k, Q, H => ∀ v, D.store v → Keeps R op D (k v) Q H
  | lock l k, Q, H => D.may H (R.onLock op l) ∧ Keeps R op D k Q (R.onLock op l :: H)
  | tryLock l k, Q, H =>
      (D.may H (R.onLock op l) ∧ Keeps R op D (k true) Q (R.onLock op l :: H)) ∧
        Keeps R op D (k false) Q H
  | write w k, Q, H => D.write w ∧ D.Allows H (R.onWrite op w) ∧
      Keeps R op D k Q ((R.onWrite op w).reverse ++ H)
  | commit k, Q, _ => Keeps R op D k Q []
  | rollback k, Q, _ => Keeps R op D k Q []

variable {R : LockRules Λ ω ℓ κ} {op : Λ} {D : LockDiscipline σ ω κ} {H : List κ}

/-- The rule of consequence. -/
theorem Keeps.mono {t : Tx σ ω ℓ α} {Q Q' : α → List κ → Prop} (h : Keeps R op D t Q H)
    (hQ : ∀ a H, Q a H → Q' a H) : Keeps R op D t Q' H := by
  induction t generalizing H with
  | ret a => exact hQ a H h
  | read k ih => exact fun v hv => ih v (h v hv)
  | lock l k ih => exact ⟨h.1, ih h.2⟩
  | tryLock l k ih => exact ⟨⟨h.1.1, ih true h.1.2⟩, ih false h.2⟩
  | write w k ih => exact ⟨h.1, h.2.1, ih h.2.2⟩
  | commit k ih => exact ih h
  | rollback k ih => exact ih h

/-- The rule of sequencing. -/
theorem Keeps.bind {t : Tx σ ω ℓ α} {f : α → Tx σ ω ℓ β} {Q : β → List κ → Prop}
    (h : Keeps R op D t (fun a H => Keeps R op D (f a) Q H) H) : Keeps R op D (t >>= f) Q H := by
  rw [bind_eq]
  induction t generalizing H with
  | ret a => exact h
  | read k ih => exact fun v hv => ih v (h v hv)
  | lock l k ih => exact ⟨h.1, ih h.2⟩
  | tryLock l k ih => exact ⟨⟨h.1.1, ih true h.1.2⟩, ih false h.2⟩
  | write w k ih => exact ⟨h.1, h.2.1, ih h.2.2⟩
  | commit k ih => exact ih h
  | rollback k ih => exact ih h

/-- A handler that keeps the discipline; of its errors nothing is asked. -/
def Orderly (R : LockRules Λ ω ℓ κ) (op : Λ) (D : LockDiscipline σ ω κ) (t : ExceptT ε (Tx σ ω ℓ) α)
    (Q : α → List κ → Prop) (H : List κ) : Prop :=
  Keeps R op D t.run (fun r H => ∀ a, r = .ok a → Q a H) H

namespace Orderly

variable {Q : β → List κ → Prop}

theorem mono {t : ExceptT ε (Tx σ ω ℓ) β} {Q' : β → List κ → Prop} (h : Orderly R op D t Q' H)
    (hQ : ∀ a H, Q' a H → Q a H) : Orderly R op D t Q H :=
  Keeps.mono h fun _ H hr a ha => hQ a H (hr a ha)

/-- Sequencing. -/
theorem bind {t : ExceptT ε (Tx σ ω ℓ) α} {f : α → ExceptT ε (Tx σ ω ℓ) β}
    (h : Orderly R op D t (fun a H => Orderly R op D (f a) Q H) H) : Orderly R op D (t >>= f) Q H := by
  refine Keeps.bind (Keeps.mono h fun r H hr => ?_)
  cases r with
  | ok a => exact hr a rfl
  | error e => exact fun a ha => nomatch ha

/-- Sequencing through an intermediate assertion. -/
theorem seq {t : ExceptT ε (Tx σ ω ℓ) α} {f : α → ExceptT ε (Tx σ ω ℓ) β} {P : α → List κ → Prop}
    (ht : Orderly R op D t P H) (hf : ∀ a H, P a H → Orderly R op D (f a) Q H) :
    Orderly R op D (t >>= f) Q H :=
  bind (ht.mono hf)

theorem pure {b : β} (h : Q b H) : Orderly R op D (Pure.pure b : ExceptT ε (Tx σ ω ℓ) β) Q H := by
  intro a ha
  obtain rfl := Except.ok.inj ha
  exact h

theorem throw {e : ε} : Orderly R op D (throw e : ExceptT ε (Tx σ ω ℓ) β) Q H :=
  fun _ ha => nomatch ha

theorem select {f : σ → α} {k : α → ExceptT ε (Tx σ ω ℓ) β}
    (h : ∀ v, D.store v → Orderly R op D (k (f v)) Q H) : Orderly R op D (select f >>= k) Q H := h

theorem acquire {l : ℓ} {k : Unit → ExceptT ε (Tx σ ω ℓ) β} (hmay : D.may H (R.onLock op l))
    (h : Orderly R op D (k ()) Q (R.onLock op l :: H)) : Orderly R op D (acquire l >>= k) Q H :=
  ⟨hmay, h⟩

theorem put {w : ω} {k : Unit → ExceptT ε (Tx σ ω ℓ) β} (hwrite : D.write w)
    (hmay : D.Allows H (R.onWrite op w))
    (h : Orderly R op D (k ()) Q ((R.onWrite op w).reverse ++ H)) :
    Orderly R op D (put w >>= k) Q H :=
  ⟨hwrite, hmay, h⟩

theorem finish {k : Unit → ExceptT ε (Tx σ ω ℓ) β} (h : Orderly R op D (k ()) Q []) :
    Orderly R op D (finish >>= k) Q H := h

/-- The deferred rollback. -/
theorem transaction {body : ExceptT ε (Tx σ ω ℓ) β} (h : Orderly R op D body Q H) :
    Orderly R op D (transaction body) Q H := by
  refine Keeps.bind (Keeps.mono h fun r H hr => ?_)
  cases r with
  | ok a => exact hr
  | error e => exact fun a ha => nomatch ha

/-- Loops: an assertion about what is left to visit and the results so far. -/
theorem forEach {f : α → ExceptT ε (Tx σ ω ℓ) γ} {J : List α → List γ → List κ → Prop}
    (hf : ∀ x rest as H, J (x :: rest) as H →
      Orderly R op D (f x) (fun a => J rest (as ++ [a])) H)
    {xs : List α} (as : List γ) (h : J xs as H) :
    Orderly R op D (forEach f xs) (fun bs => J [] (as ++ bs)) H := by
  induction xs generalizing as H with
  | nil => exact pure (by simpa using h)
  | cons x xs ih =>
      refine seq (hf x xs as H h) fun a H ha => ?_
      exact seq (ih (as ++ [a]) ha) fun bs H hb => pure (by simpa using hb)

end Orderly

end Tx

/-! ## The cluster -/

section Cluster

variable {Λ σ ω ℓ κ α : Type} [Store σ ω]

/-- The backend keeps the discipline and always has. -/
structure Backend.Good (R : LockRules Λ ω ℓ κ) (D : LockDiscipline σ ω κ) (b : Backend Λ σ ω ℓ κ α) :
    Prop where
  writes : ∀ w ∈ b.writes, D.write w
  allows : D.Allows b.locks b.todo
  keeps : Tx.Keeps R b.label D b.prog (fun _ _ => True) (b.todo.reverse ++ b.locks)
  lawful : D.Lawful b.locks

/-- All backends keep the discipline, and no two of them hold locks that exclude each other. -/
structure Cluster.Good (R : LockRules Λ ω ℓ κ) (D : LockDiscipline σ ω κ) (s : Cluster Λ σ ω ℓ κ α) :
    Prop where
  store : D.store s.db
  backend : ∀ i b, s.backend i = some b → b.Good R D
  exclusive : ∀ i j a b, i ≠ j → s.backend i = some a → s.backend j = some b →
    ∀ l ∈ a.locks, ∀ l' ∈ b.locks, R.conflict l l' = false

namespace Cluster

variable {s s' : Cluster Λ σ ω ℓ κ α} {i : ℕ} {b b' : Backend Λ σ ω ℓ κ α}
  {R : LockRules Λ ω ℓ κ} {D : LockDiscipline σ ω κ}

/-- The backend `b` becomes `b'`, which may hold one more lock if that is free. -/
lemma Good.replace (h : s.Good R D) (hb : s.backend i = some b) (hgood : b'.Good R D)
    (hlocks : ∀ l ∈ b'.locks, l ∈ b.locks ∨ s.Free R i l) : (s.set i (some b')).Good R D := by
  have hother : ∀ j c, j ≠ i → s.backend j = some c → ∀ l ∈ b'.locks, ∀ l' ∈ c.locks,
      R.conflict l l' = false := by
    intro j c hj hc l hl l' hl'
    rcases hlocks l hl with hl | hfree
    · exact h.exclusive i j b c hj.symm hb hc l hl l' hl'
    · exact hfree.of_backend hj hc l' hl'
  constructor
  · exact h.store
  · intro j c hc
    by_cases hj : j = i
    · subst hj
      rw [backend_set_self hb] at hc
      obtain rfl := Option.some.inj hc
      exact hgood
    · rw [backend_set_ne hj] at hc
      exact h.backend j c hc
  · intro j k c d hjk hc hd l hl l' hl'
    by_cases hj : j = i
    · subst hj
      rw [backend_set_self hb] at hc
      rw [backend_set_ne hjk.symm] at hd
      obtain rfl := Option.some.inj hc
      exact hother k d hjk.symm hd l hl l' hl'
    · rw [backend_set_ne hj] at hc
      by_cases hk : k = i
      · subst hk
        rw [backend_set_self hb] at hd
        obtain rfl := Option.some.inj hd
        rw [R.conflict_symm]
        exact hother j c hj hc l' hl' l hl
      · rw [backend_set_ne hk] at hd
        exact h.exclusive j k c d hjk hc hd l hl l' hl'

lemma Good.withStore (h : s.Good R D) {db : σ} (hdb : D.store db) :
    ({ s with db := db } : Cluster Λ σ ω ℓ κ α).Good R D :=
  ⟨hdb, h.backend, h.exclusive⟩

/-- One step of a backend. -/
lemma Good.advance (h : s.Good R D) (hb : s.backend i = some b)
    (hstep : s.advance R i b = some s') : s'.Good R D := by
  obtain ⟨hwrites, hallows, hkeeps, hlawful⟩ := h.backend i b hb
  obtain ⟨label, prog, todo, writes, locks, waiting⟩ := b
  have hsame : ∀ l ∈ locks, l ∈ locks ∨ s.Free R i l := fun l hl => .inl hl
  have hnone : ∀ l ∈ ([] : List κ), l ∈ locks ∨ s.Free R i l := fun l hl => nomatch hl
  cases todo with
  | cons l todo =>
      dsimp only [Cluster.advance] at hstep
      by_cases hfree : s.Free R i l
      · rw [if_pos hfree] at hstep
        obtain rfl := Option.some.inj hstep
        refine h.replace hb ⟨hwrites, hallows.2, ?_, hallows.1, hlawful⟩ fun l' hl' => ?_
        · simpa using hkeeps
        · rcases List.mem_cons.mp hl' with rfl | hl'
          · exact .inr hfree
          · exact .inl hl'
      · rw [if_neg hfree] at hstep
        obtain rfl := Option.some.inj hstep
        exact h.replace hb ⟨hwrites, hallows, hkeeps, hlawful⟩ hsame
  | nil =>
      have hview : D.store (view writes s.db) := LockDiscipline.store_view h.store hwrites
      cases prog with
      | ret a => exact nomatch hstep
      | read k =>
          obtain rfl := Option.some.inj hstep
          exact h.replace hb ⟨hwrites, trivial, hkeeps _ hview, hlawful⟩ hsame
      | lock l k =>
          obtain rfl := Option.some.inj hstep
          exact h.replace hb ⟨hwrites, ⟨hkeeps.1, trivial⟩, hkeeps.2, hlawful⟩ hsame
      | tryLock l k =>
          dsimp only [Cluster.advance] at hstep
          by_cases hfree : s.Free R i (R.onLock label l)
          · rw [if_pos hfree] at hstep
            obtain rfl := Option.some.inj hstep
            refine h.replace hb ⟨hwrites, trivial, hkeeps.1.2, hkeeps.1.1, hlawful⟩ fun l' hl' => ?_
            rcases List.mem_cons.mp hl' with rfl | hl'
            · exact .inr hfree
            · exact .inl hl'
          · rw [if_neg hfree] at hstep
            obtain rfl := Option.some.inj hstep
            exact h.replace hb ⟨hwrites, trivial, hkeeps.2, hlawful⟩ hsame
      | write w k =>
          obtain rfl := Option.some.inj hstep
          refine h.replace hb ⟨fun w' hw' => ?_, hkeeps.2.1, hkeeps.2.2, hlawful⟩ hsame
          rcases List.mem_append.mp hw' with hw' | hw'
          · exact hwrites w' hw'
          · obtain rfl := List.mem_singleton.mp hw'
            exact hkeeps.1
      | commit k =>
          obtain rfl := Option.some.inj hstep
          exact (h.withStore hview).replace hb ⟨fun w hw => (List.not_mem_nil hw).elim, trivial,
            hkeeps, trivial⟩ hnone
      | rollback k =>
          obtain rfl := Option.some.inj hstep
          exact h.replace hb ⟨fun w hw => (List.not_mem_nil hw).elim, trivial, hkeeps, trivial⟩ hnone

/-- Every turn keeps it, where the programs keep the discipline from their start and others leave a
store the discipline admits. -/
theorem Good.turn {prog : Λ → Tx σ ω ℓ α}
    (hprog : ∀ op, Tx.Keeps R op D (prog op) (fun _ _ => True) []) (h : s.Good R D) {t : Turn Λ σ}
    (hstore : ∀ db, t = .store db → D.store db) (hturn : Cluster.turn R prog t s = some s') :
    s'.Good R D := by
  cases t with
  | start op =>
      obtain rfl := Option.some.inj hturn
      have hnew : Backend.Good R D (⟨op, prog op, [], [], [], false⟩ : Backend Λ σ ω ℓ κ α) :=
        ⟨fun w hw => (List.not_mem_nil hw).elim, trivial, hprog op, trivial⟩
      constructor
      · exact h.store
      · intro j a ha
        rcases backend_of_start ha with ha | rfl
        · exact h.backend j a ha
        · exact hnew
      · intro j k a b hjk ha hb l hl l' hl'
        rcases backend_of_start ha with ha | rfl
        · rcases backend_of_start hb with hb | rfl
          · exact h.exclusive j k a b hjk ha hb l hl l' hl'
          · exact (List.not_mem_nil hl').elim
        · exact (List.not_mem_nil hl).elim
  | advance i =>
      obtain ⟨b, hb, hstep⟩ := Option.bind_eq_some_iff.mp hturn
      exact h.advance hb hstep
  | fail i =>
      obtain rfl := Option.some.inj hturn
      exact ⟨h.store, fun j a ha => h.backend j a (backend_of_set_none ha), fun j k a b hjk ha hb =>
        h.exclusive j k a b hjk (backend_of_set_none ha) (backend_of_set_none hb)⟩
  | store db =>
      obtain rfl := Option.some.inj hturn
      exact h.withStore (hstore db rfl)

/-! ## Waiting in order -/

/-- A backend that has to wait for its next lock holds only locks of a lower rank. -/
def WaitsInOrder {ρ : Type} [LT ρ] (R : LockRules Λ ω ℓ κ) (rank : κ → ρ) (s : Cluster Λ σ ω ℓ κ α)
    (i : ℕ) : Prop :=
  ∀ b, s.backend i = some b → ∀ l ∈ b.todo.head?, ¬ s.Free R i l →
    ∀ held ∈ b.locks, rank held < rank l

section Ranked

variable {ρ : Type} [Preorder ρ] {rank : κ → ρ}

lemma Ranked.advance (h : s.Ranked rank) (hb : s.backend i = some b)
    (horder : s.WaitsInOrder R rank i) (hstep : s.advance R i b = some s') : s'.Ranked rank := by
  have horder' := horder b hb
  obtain ⟨label, prog, todo, writes, locks, waiting⟩ := b
  have hidle : ∀ b' : Backend Λ σ ω ℓ κ α, b'.todo = [] → b'.wanted = none := by
    intro b' htodo
    simp [Backend.wanted, htodo]
  cases todo with
  | cons l todo =>
      dsimp only [Cluster.advance] at hstep
      by_cases hfree : s.Free R i l
      · rw [if_pos hfree] at hstep
        obtain rfl := Option.some.inj hstep
        exact h.replace_idle hb rfl
      · rw [if_neg hfree] at hstep
        obtain rfl := Option.some.inj hstep
        refine h.replace hb fun l' hl' => ?_
        obtain rfl := Option.some.inj hl'
        exact horder' l rfl hfree
  | nil =>
      cases prog with
      | ret a => exact nomatch hstep
      | read k =>
          obtain rfl := Option.some.inj hstep
          exact h.replace_idle hb (hidle _ rfl)
      | lock l k =>
          obtain rfl := Option.some.inj hstep
          exact h.replace_idle hb rfl
      | tryLock l k =>
          dsimp only [Cluster.advance] at hstep
          split_ifs at hstep
          · obtain rfl := Option.some.inj hstep
            exact h.replace_idle hb (hidle _ rfl)
          · obtain rfl := Option.some.inj hstep
            exact h.replace_idle hb (hidle _ rfl)
      | write w k =>
          obtain rfl := Option.some.inj hstep
          exact h.replace_idle hb rfl
      | commit k =>
          obtain rfl := Option.some.inj hstep
          exact h.replace_idle (s := { s with db := _ }) hb (hidle _ rfl)
      | rollback k =>
          obtain rfl := Option.some.inj hstep
          exact h.replace_idle hb (hidle _ rfl)

/-- As long as every wait begins in order, every backend waits in order. -/
theorem Ranked.turn {prog : Λ → Tx σ ω ℓ α} (h : s.Ranked rank) {t : Turn Λ σ}
    (horder : ∀ i, t = .advance i → s.WaitsInOrder R rank i)
    (hturn : Cluster.turn R prog t s = some s') : s'.Ranked rank := by
  cases t with
  | start op =>
      obtain rfl := Option.some.inj hturn
      intro j a ha
      rcases backend_of_start ha with ha | rfl
      · exact h j a ha
      · exact fun l hl => nomatch hl
  | advance i =>
      obtain ⟨b, hb, hstep⟩ := Option.bind_eq_some_iff.mp hturn
      exact h.advance hb (horder i rfl) hstep
  | fail i =>
      obtain rfl := Option.some.inj hturn
      exact fun j a ha => h j a (backend_of_set_none ha)
  | store db =>
      obtain rfl := Option.some.inj hturn
      exact h

end Ranked

end Cluster

end Cluster

end Sql
