import Mathlib.Algebra.Order.Field.Basic
import Mathlib.Algebra.Order.Field.Rat
import Mathlib.Tactic.Linarith
import Mathlib.Tactic.Positivity
import Labyrithm.Go.Time

/-!
# Token buckets

`golang.org/x/time/rate` as what it is documented to be, with exact arithmetic: a limiter is a bucket of
`burst` tokens that starts full and gets `limit` tokens a second; an event takes one, or is refused.  A
bucket is worth what it has at the times to come, and two of equal worth cannot be told apart.

* `Limiter.Like` — two buckets have the same tokens from some time on.
* `allow_like` — such buckets allow the same, and stay such.
* `fullFrom_allow` — a bucket that is left alone for as long as it takes to fill is full.
-/

namespace Go

/-- `rate.Limiter`; the time of the last event that was allowed is zero at first. -/
structure Limiter where
  limit : ℚ
  burst : ℤ
  tokens : ℚ
  last : ℤ
  deriving DecidableEq, Repr

/-- A duration in seconds. -/
def inSeconds (d : ℤ) : ℚ := d / second

/-- `rate.Every`, of a positive duration. -/
def every (interval : ℤ) : ℚ := 1 / inSeconds interval

namespace Limiter

/-- `rate.NewLimiter`. -/
def new (r : ℚ) (b : ℤ) : Limiter := ⟨r, b, b, 0⟩

/-- The tokens at a time. -/
def tokensAt (l : Limiter) (t : ℤ) : ℚ := min l.burst (l.tokens + l.limit * inSeconds (max 0 (t - l.last)))

/-- `Allow`. -/
def allow (l : Limiter) (t : ℤ) : Limiter × Bool :=
  if 1 ≤ l.tokensAt t then ({ l with tokens := l.tokensAt t - 1, last := t }, true) else (l, false)

/-- The bucket is full from a time on. -/
def FullFrom (l : Limiter) (t : ℤ) : Prop := ∀ u, t ≤ u → l.tokensAt u = l.burst

/-- Two buckets have the same tokens from a time on. -/
structure Like (l l' : Limiter) (t : ℤ) : Prop where
  limit : l.limit = l'.limit
  burst : l.burst = l'.burst
  tokens : ∀ u, t ≤ u → l.tokensAt u = l'.tokensAt u

/-! ## Full buckets -/

section Full

variable {l : Limiter} {r : ℚ} {b t u : ℤ}

lemma inSeconds_nonneg {d : ℤ} (h : 0 ≤ d) : 0 ≤ inSeconds d := by
  have hd : (0 : ℚ) ≤ d := by exact_mod_cast h
  unfold inSeconds second
  positivity

lemma inSeconds_mono {d d' : ℤ} (h : d ≤ d') : inSeconds d ≤ inSeconds d' := by
  have hd : (d : ℚ) ≤ d' := Int.cast_le.mpr h
  unfold inSeconds second
  gcongr

/-- A new bucket is full. -/
lemma fullFrom_new (hr : 0 ≤ r) (t : ℤ) : (new r b).FullFrom t := by
  intro u _
  have hadded : 0 ≤ r * inSeconds (max 0 (u - 0)) := mul_nonneg hr (inSeconds_nonneg (le_max_left _ _))
  exact min_eq_left (by simpa [new] using hadded)

lemma FullFrom.mono (h : l.FullFrom t) (htu : t ≤ u) : l.FullFrom u := fun v hv => h v (htu.trans hv)

@[simp] lemma allow_limit : (l.allow t).1.limit = l.limit := by
  unfold allow
  split_ifs <;> rfl

@[simp] lemma allow_burst : (l.allow t).1.burst = l.burst := by
  unfold allow
  split_ifs <;> rfl

/-- A bucket without room for a token. -/
lemma allow_of_burst (h : l.burst ≤ 0) (t : ℤ) : l.allow t = (l, false) := by
  have hburst : (l.burst : ℚ) ≤ 0 := by exact_mod_cast h
  have htokens : l.tokensAt t ≤ 0 := (min_le_left _ _).trans hburst
  exact if_neg (by linarith)

/-- A bucket that is left alone for as long as it takes to fill is full. -/
lemma fullFrom_allow {d : ℤ} (hr : 0 ≤ l.limit) (hd : 0 ≤ d) (hfill : l.burst ≤ l.limit * inSeconds d)
    (h : l.FullFrom (t + d)) : (l.allow t).1.FullFrom (t + d) := by
  intro u hu
  rw [allow]
  split_ifs with hallowed
  · have htime : inSeconds d ≤ inSeconds (max 0 (u - t)) := inSeconds_mono (by omega)
    have hadded : l.limit * inSeconds d ≤ l.limit * inSeconds (max 0 (u - t)) :=
      mul_le_mul_of_nonneg_left htime hr
    refine min_eq_left ?_
    change (l.burst : ℚ) ≤ l.tokensAt t - 1 + l.limit * inSeconds (max 0 (u - t))
    linarith
  · exact h u hu

end Full

/-! ## Buckets of equal worth -/

section Like

variable {l l' : Limiter} {t u : ℤ}

lemma Like.refl (l : Limiter) (t : ℤ) : l.Like l t := ⟨rfl, rfl, fun _ _ => rfl⟩

lemma Like.mono (h : l.Like l' t) (htu : t ≤ u) : l.Like l' u :=
  ⟨h.limit, h.burst, fun v hv => h.tokens v (htu.trans hv)⟩

/-- A full bucket is as good as a new one. -/
lemma like_of_fullFrom (hlimit : l.limit = l'.limit) (hburst : l.burst = l'.burst) (h : l.FullFrom t)
    (h' : l'.FullFrom t) : l.Like l' t :=
  ⟨hlimit, hburst, fun u hu => by rw [h u hu, h' u hu, hburst]⟩

lemma Like.trans {l'' : Limiter} (h : l.Like l' t) (h' : l'.Like l'' t) : l.Like l'' t :=
  ⟨h.limit.trans h'.limit, h.burst.trans h'.burst, fun u hu => (h.tokens u hu).trans (h'.tokens u hu)⟩

/-- Buckets of equal worth allow the same, and are of equal worth after it. -/
lemma allow_like (h : l.Like l' t) : (l.allow t).2 = (l'.allow t).2 ∧ (l.allow t).1.Like (l'.allow t).1 t := by
  have htokens : l.tokensAt t = l'.tokensAt t := h.tokens t le_rfl
  rw [allow, allow, htokens]
  split_ifs
  · refine ⟨rfl, h.limit, h.burst, fun u _ => ?_⟩
    simp only [tokensAt, h.limit, h.burst]
  · exact ⟨rfl, h⟩

end Like

end Limiter

end Go
