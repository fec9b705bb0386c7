import Labyrithm.Sql.ReadCommitted

/-!
# Rules for handlers that may fail

`Tx.Ensures` is `Tx.Safe` for an `ExceptT` handler: an assertion for the value it returns and a
predicate on the errors it ends in.  An assertion speaks of the locks the session holds, the writes
it has not committed and the committed store; it is of use only when it is `Stable`, that is when the
commits the session can rely on keep it.

The primitive rules are in continuation style: each takes the first statement off a `do` block and
leaves the rest, at whatever store the session then finds.

`Tx.Alone` is the total-correctness counterpart for a handler that runs with nobody else around: it
succeeds, and what it returns and leaves behind satisfies `Q`.
-/

namespace Sql

/-- A statement about a session in the middle of a transaction. -/
abbrev Assert (σ ω ℓ : Type) := List ℓ → List ω → σ → Prop

/-- The other sessions cannot falsify the assertion. -/
def Assert.Stable {σ ω ℓ : Type} (D : Protocol σ ℓ) (A : Assert σ ω ℓ) : Prop :=
  ∀ ⦃H ws c c'⦄, A H ws c → D.Rely H c c' → A H ws c'

namespace Tx

variable {σ ω ℓ α β γ ε : Type} [Store σ ω]

/-- The handler is safe, returns only where `Q` holds, and fails only with errors in `E`. -/
def Ensures (D : Protocol σ ℓ) (R : σ → σ → Prop) (t : ExceptT ε (Tx σ ω ℓ) α)
    (Q : α → Assert σ ω ℓ) (E : ε → Prop) : Assert σ ω ℓ :=
  Safe D R t.run fun r H ws c =>
    match r with
    | .ok a => Q a H ws c
    | .error e => E e

variable {D : Protocol σ ℓ} {R : σ → σ → Prop} {Q : β → Assert σ ω ℓ} {E : ε → Prop}
  {H : List ℓ} {ws : List ω} {c : σ}

namespace Ensures

theorem rely {t : ExceptT ε (Tx σ ω ℓ) β} {c' : σ} (h : Ensures D R t Q E H ws c)
    (hc : D.Rely H c c') : Ensures D R t Q E H ws c' :=
  Safe.rely h hc

theorem mono {t : ExceptT ε (Tx σ ω ℓ) β} {Q' : β → Assert σ ω ℓ}
    (h : Ensures D R t Q' E H ws c) (hQ : ∀ a H ws c, Q' a H ws c → Q a H ws c) :
    Ensures D R t Q E H ws c := by
  refine Safe.mono h fun r H ws c hr => ?_
  cases r with
  | ok a => exact hQ _ _ _ _ hr
  | error e => exact hr

/-- Sequencing. -/
theorem bind {t : ExceptT ε (Tx σ ω ℓ) α} {f : α → ExceptT ε (Tx σ ω ℓ) β} (hinv : D.inv c)
    (h : Ensures D R t (fun a H ws c => D.inv c → Ensures D R (f a) Q E H ws c) E H ws c) :
    Ensures D R (t >>= f) Q E H ws c := by
  refine Safe.bind hinv (Safe.mono h fun r H ws c hr hi => ?_)
  cases r with
  | ok a => exact hr hi
  | error e => exact fun _ _ => hr

/-- Sequencing through an intermediate assertion. -/
theorem seq {t : ExceptT ε (Tx σ ω ℓ) α} {f : α → ExceptT ε (Tx σ ω ℓ) β} {P : α → Assert σ ω ℓ}
    (hinv : D.inv c) (ht : Ensures D R t P E H ws c)
    (hf : ∀ a H ws c, D.inv c → P a H ws c → Ensures D R (f a) Q E H ws c) :
    Ensures D R (t >>= f) Q E H ws c :=
  bind hinv (ht.mono fun _ _ _ _ hP hi => hf _ _ _ _ hi hP)

theorem pure {b : β} (h : ∀ c', D.Rely H c c' → Q b H ws c') :
    Ensures D R (Pure.pure b : ExceptT ε (Tx σ ω ℓ) β) Q E H ws c := h

theorem throw {e : ε} (h : E e) :
    Ensures D R (throw e : ExceptT ε (Tx σ ω ℓ) β) Q E H ws c := fun _ _ => h

/-- A snapshot: the rest runs on what the session sees of some later committed store. -/
theorem select {f : σ → α} {k : α → ExceptT ε (Tx σ ω ℓ) β}
    (h : ∀ c', D.Rely H c c' → Ensures D R (k (f (view ws c'))) Q E H ws c') :
    Ensures D R (select f >>= k) Q E H ws c := h

theorem acquire {l : ℓ} {k : Unit → ExceptT ε (Tx σ ω ℓ) β}
    (h : ∀ c', D.Rely H c c' → Ensures D R (k ()) Q E (l :: H) ws c') :
    Ensures D R (acquire l >>= k) Q E H ws c := h

theorem tryAcquire {l : ℓ} {k : Bool → ExceptT ε (Tx σ ω ℓ) β}
    (ht : ∀ c', D.Rely H c c' → Ensures D R (k true) Q E (l :: H) ws c')
    (hf : ∀ c', D.Rely H c c' → Ensures D R (k false) Q E H ws c') :
    Ensures D R (tryAcquire l >>= k) Q E H ws c :=
  fun c' hc => ⟨ht c' hc, hf c' hc⟩

theorem put {w : ω} {k : Unit → ExceptT ε (Tx σ ω ℓ) β}
    (h : ∀ c', D.Rely H c c' → Ensures D R (k ()) Q E H (ws ++ [w]) c') :
    Ensures D R (put w >>= k) Q E H ws c := h

/-- A commit: the session has to have kept the protocol, and starts afresh. -/
theorem finish {k : Unit → ExceptT ε (Tx σ ω ℓ) β}
    (hc : ∀ c', D.Rely H c c' →
      D.inv (view ws c') ∧ R c' (view ws c') ∧ ∀ l ∉ H, D.frame l c' (view ws c'))
    (hk : ∀ c', D.inv c' → Ensures D R (k ()) Q E [] [] c') :
    Ensures D R (finish >>= k) Q E H ws c :=
  fun c' hr => ⟨hc c' hr, fun d hd => hk d hd⟩

/-- The deferred rollback: the errors of the body are the errors of the transaction. -/
theorem transaction {body : ExceptT ε (Tx σ ω ℓ) β} (hinv : D.inv c)
    (h : Ensures D R body Q E H ws c) : Ensures D R (transaction body) Q E H ws c := by
  refine Safe.bind hinv (Safe.mono (Safe.later h) fun r H ws c hr hi => ?_)
  cases r with
  | ok a => exact hr
  | error e => exact fun _ _ _ _ => hr c (.refl hi)

/-- Errors under another name. -/
theorem rethrow {g : ε → ε} {E' : ε → Prop} {body : ExceptT ε (Tx σ ω ℓ) β} (hinv : D.inv c)
    (h : Ensures D R body Q E' H ws c) (hE : ∀ e, E' e → E (g e)) :
    Ensures D R (rethrow g body) Q E H ws c := by
  refine Safe.bind hinv (Safe.mono (Safe.later h) fun r H ws c hr hi => ?_)
  cases r with
  | ok a => exact hr
  | error e => exact fun c' hc => hE e (hr c' hc)

/-- Loops: an assertion about what is left to visit and the results collected so far, which every
iteration keeps. -/
theorem forEach {f : α → ExceptT ε (Tx σ ω ℓ) γ} {J : List α → List γ → Assert σ ω ℓ}
    (hJ : ∀ as, (J [] as).Stable D)
    (hf : ∀ x rest as H ws c, D.inv c → J (x :: rest) as H ws c →
      Ensures D R (f x) (fun a => J rest (as ++ [a])) E H ws c)
    {xs : List α} (as : List γ) (hinv : D.inv c) (h : J xs as H ws c) :
    Ensures D R (forEach f xs) (fun bs => J [] (as ++ bs)) E H ws c := by
  induction xs generalizing as H ws c with
  | nil => exact pure fun c' hc => by simpa using hJ _ h hc
  | cons x xs ih =>
      refine seq hinv (hf x xs as H ws c hinv h) fun a H ws c hi ha => ?_
      refine seq hi (ih (as ++ [a]) hi ha) ?_
      intro bs H ws c hi hb
      exact pure fun c' hc => by simpa using hJ _ hb hc

end Ensures

/-! ## The handler alone -/

/-- With nobody else around the handler succeeds, and `Q` holds of what it returns, of the committed
store and of what it sees at the end. -/
def Alone (t : ExceptT ε (Tx σ ω ℓ) α) (Q : α → σ → σ → Prop) (c v : σ) : Prop :=
  ∃ a, (exec t.run c v).1 = .ok a ∧ Q a (exec t.run c v).2.1 (exec t.run c v).2.2

/-- A statement of its own publishes what it has written, unless it fails. -/
theorem exec_autocommit (body : ExceptT ε (Tx σ ω ℓ) α) (c : σ) :
    exec (autocommit body).run c c =
      match exec body.run c c with
      | (.ok a, _, v) => (.ok a, v, v)
      | (.error e, c', _) => (.error e, c', c') := by
  show exec ((body.run >>= _) >>= _) c c = _
  rw [exec_bind, exec_bind]
  rcases exec body.run c c with ⟨r, c', v⟩
  cases r with
  | ok a => rfl
  | error e => rfl

namespace Alone

variable {Q : β → σ → σ → Prop} {c v : σ}

theorem mono {t : ExceptT ε (Tx σ ω ℓ) β} {Q' : β → σ → σ → Prop} (h : Alone t Q' c v)
    (hQ : ∀ b c v, Q' b c v → Q b c v) : Alone t Q c v := by
  obtain ⟨b, hb, hq⟩ := h
  exact ⟨b, hb, hQ _ _ _ hq⟩

theorem bind {t : ExceptT ε (Tx σ ω ℓ) α} {f : α → ExceptT ε (Tx σ ω ℓ) β}
    (h : Alone t (fun a c v => Alone (f a) Q c v) c v) : Alone (t >>= f) Q c v := by
  obtain ⟨a, ha, b, hb, hq⟩ := h
  have hrun : exec (t >>= f).run c v = exec (f a).run (exec t.run c v).2.1 (exec t.run c v).2.2 := by
    show exec (t.run >>= _) c v = _
    rw [exec_bind, ha]
    rfl
  exact ⟨b, by rw [hrun, hb], by rw [hrun]; exact hq⟩

/-- Sequencing through an intermediate assertion. -/
theorem seq {t : ExceptT ε (Tx σ ω ℓ) α} {f : α → ExceptT ε (Tx σ ω ℓ) β} {P : α → σ → σ → Prop}
    (ht : Alone t P c v) (hf : ∀ a c v, P a c v → Alone (f a) Q c v) : Alone (t >>= f) Q c v :=
  bind (ht.mono fun a c v hP => hf a c v hP)

theorem pure {b : β} (h : Q b c v) : Alone (Pure.pure b : ExceptT ε (Tx σ ω ℓ) β) Q c v :=
  ⟨b, rfl, h⟩

theorem select {f : σ → α} {k : α → ExceptT ε (Tx σ ω ℓ) β} (h : Alone (k (f v)) Q c v) :
    Alone (select f >>= k) Q c v := h

theorem acquire {l : ℓ} {k : Unit → ExceptT ε (Tx σ ω ℓ) β} (h : Alone (k ()) Q c v) :
    Alone (acquire l >>= k) Q c v := h

theorem put {w : ω} {k : Unit → ExceptT ε (Tx σ ω ℓ) β}
    (h : Alone (k ()) Q c (Store.apply w v)) : Alone (put w >>= k) Q c v := h

theorem finish {k : Unit → ExceptT ε (Tx σ ω ℓ) β} (h : Alone (k ()) Q v v) :
    Alone (finish >>= k) Q c v := h

theorem transaction {body : ExceptT ε (Tx σ ω ℓ) β} (h : Alone body Q c v) :
    Alone (transaction body) Q c v := by
  obtain ⟨b, hb, hq⟩ := h
  have hrun : exec (Tx.transaction body).run c v
      = (.ok b, (exec body.run c v).2.1, (exec body.run c v).2.2) := by
    show exec (body.run >>= _) c v = _
    rw [exec_bind, hb]
    rfl
  exact ⟨b, by rw [hrun], by rw [hrun]; exact hq⟩

theorem forEach {f : α → ExceptT ε (Tx σ ω ℓ) γ} {J : List α → σ → σ → Prop}
    (hf : ∀ x rest c v, J (x :: rest) c v → Alone (f x) (fun _ => J rest) c v) {xs : List α}
    (h : J xs c v) : Alone (forEach f xs) (fun _ => J []) c v := by
  induction xs generalizing c v with
  | nil => exact pure h
  | cons x xs ih => exact seq (hf x xs c v h) fun a c v ha => seq (ih ha) fun _ _ _ hb => pure hb

end Alone

end Tx

end Sql
