import Labyrithm.Go.Map
import Labyrithm.Go.Rate

/-!
# Rate limits

`LimiterStore` of `backend/internal/api/middleware.go` keeps a limiter for every key and forgets the
limiters that have not been asked for as long as `idleEviction`; the next request for such a key gets a new
one, which is full.  A request is one step, so the time at which its limiter is seen is the one at which it
is asked.

* `LimiterStore.limiterOf` — the limiter that a request for a key would get.
* `LimiterStore.Settled` — every limiter is full by the time at which it may be forgotten.
* `LimiterStore.Like` — two stores whose limiters are of equal worth.
* `outcomes_of_like` — the two allow the same requests, whatever one of them forgets in between.

**`eviction_unobservable`** — where an idle limiter has the time to fill, requests are allowed and refused
as if no limiter was ever forgotten, and so it is for the declared stores.
-/

namespace Labyrithm

namespace Api

open Go

/-! ## The store -/

/-- `entry`. -/
structure Entry where
  limiter : Limiter
  seen : ℤ

structure LimiterStore where
  limiters : Map String Entry
  r : ℚ
  b : ℤ

/-- `idleEviction`. -/
def idleEviction : ℤ := 15 * minute

namespace LimiterStore

/-- `NewLimiterStore`. -/
def new (r : ℚ) (b : ℤ) : LimiterStore where
  limiters := ∅
  r := r
  b := b

/-- The limiter that there is for a key, or a new one. -/
def limiterOf (s : LimiterStore) (key : String) : Limiter :=
  match s.limiters.get? key with
  | some e => e.limiter
  | none => .new s.r s.b

/-- An entry is written. -/
def put (s : LimiterStore) (key : String) (e : Entry) : LimiterStore :=
  { s with limiters := s.limiters.insert key e }

/-- `Get`. -/
def get (s : LimiterStore) (key : String) (now : ℤ) : LimiterStore × Limiter :=
  (s.put key ⟨s.limiterOf key, now⟩, s.limiterOf key)

/-- `Get(key).Allow()`; the limiter in the store is the one that is asked. -/
def allow (s : LimiterStore) (key : String) (now : ℤ) : LimiterStore × Bool :=
  let (s, limiter) := s.get key now
  let (limiter, ok) := limiter.allow now
  (s.put key ⟨limiter, now⟩, ok)

/-- `Delete`. -/
def delete (s : LimiterStore) (key : String) : LimiterStore :=
  { s with limiters := s.limiters.erase key }

/-- `evictIdle`. -/
def evictIdle (s : LimiterStore) (now : ℤ) : LimiterStore :=
  { s with limiters := s.limiters.eraseIf fun e => sub now e.seen ≥ idleEviction }

/-- `rateLimitMiddleware`: whether the request goes on to its handler. -/
def rateLimit (s : LimiterStore) (key clientIP : String) (now : ℤ) : LimiterStore × Bool :=
  let key := if key = "" then clientIP else key
  if key ≠ "" then s.allow key now else (s, true)

end LimiterStore

/-- What happens to a store. -/
inductive StoreEvent
  | request (key clientIP : String)
  | delete (key : String)
  | evictIdle
  deriving DecidableEq, Repr

/-- Which of the requests go on to their handlers. -/
def outcomes : LimiterStore → List (ℤ × StoreEvent) → List Bool
  | _, [] => []
  | s, (now, .request key clientIP) :: events =>
      (s.rateLimit key clientIP now).2 :: outcomes (s.rateLimit key clientIP now).1 events
  | s, (_, .delete key) :: events => outcomes (s.delete key) events
  | s, (now, .evictIdle) :: events => outcomes (s.evictIdle now) events

/-- The same without evictions. -/
def withoutEviction (events : List (ℤ × StoreEvent)) : List (ℤ × StoreEvent) :=
  events.filter fun e => e.2 ≠ .evictIdle

/-! ## The declared stores -/

section Stores

def millisecond : ℤ := 1000000

def loginIPLimiter : LimiterStore := .new (every (100 * millisecond)) 300

def loginUserLimiter : LimiterStore := .new (every (2 * second)) 25

def runLimiter : LimiterStore := .new (every (5 * second)) 12

def submissionLimiter : LimiterStore := .new (every (6 * second)) 10

def submissionStatusLimiter : LimiterStore := .new (every (1 * second)) 60

def adminLimiter : LimiterStore := .new (every (500 * millisecond)) 120

def readLimiter : LimiterStore := .new (every (250 * millisecond)) 180

def streamLimiter : LimiterStore := .new (every (2 * second)) 25

def healthLimiter : LimiterStore := .new (every (200 * millisecond)) 60

def enrollIPLimiter : LimiterStore := .new (every (200 * millisecond)) 300

def agentHeartbeatLimiter : LimiterStore := .new (every (5 * second)) 12

def agentEventsLimiter : LimiterStore := .new (every (30 * second)) 4

def proctorSelfLimiter : LimiterStore := .new (every (1500 * millisecond)) 40

def declaredStores : List LimiterStore :=
  [loginIPLimiter, loginUserLimiter, runLimiter, submissionLimiter, submissionStatusLimiter, adminLimiter,
    readLimiter, streamLimiter, healthLimiter, enrollIPLimiter, agentHeartbeatLimiter, agentEventsLimiter,
    proctorSelfLimiter]

end Stores

/-! ## Entries -/

namespace LimiterStore

section Entries

variable {s : LimiterStore} {key key' : String} {e : Entry} {now : ℤ}

lemma allow_eq : s.allow key now =
    ((s.put key ⟨s.limiterOf key, now⟩).put key ⟨((s.limiterOf key).allow now).1, now⟩,
      ((s.limiterOf key).allow now).2) := by
  unfold allow get
  dsimp only

lemma limiterOf_delete :
    (s.delete key).limiterOf key' = if key' = key then .new s.r s.b else s.limiterOf key' := by
  unfold limiterOf delete
  rw [Map.get?_erase]
  split_ifs <;> rfl

/-- What an entry has to be idle for. -/
lemma idle_iff : sub now e.seen ≥ idleEviction ↔ e.seen + idleEviction ≤ now := by
  unfold sub idleEviction minute second
  omega

lemma get?_evictIdle : (s.evictIdle now).limiters.get? key
    = (s.limiters.get? key).filter fun e => !decide (e.seen + idleEviction ≤ now) := by
  unfold evictIdle
  rw [Map.get?_eraseIf]
  simp only [idle_iff]

end Entries

/-! ## Limiters that may be forgotten -/

/-- Every limiter is one of the store, has not been seen later than `now`, and is full by the time at
which it may be forgotten. -/
structure Settled (s : LimiterStore) (now : ℤ) : Prop where
  limit : ∀ key, (s.limiterOf key).limit = s.r
  burst : ∀ key, (s.limiterOf key).burst = s.b
  seen : ∀ key e, s.limiters.get? key = some e → e.seen ≤ now
  full : ∀ key e, s.limiters.get? key = some e → e.limiter.FullFrom (e.seen + idleEviction)

/-- The limiters of two stores are of equal worth. -/
structure Like (s s' : LimiterStore) (now : ℤ) : Prop where
  r : s.r = s'.r
  b : s.b = s'.b
  limiters : ∀ key, (s.limiterOf key).Like (s'.limiterOf key) now

section Requests

variable {s s' : LimiterStore} {key : String} {t now : ℤ}

lemma get?_allow (key' : String) : (s.allow key now).1.limiters.get? key' =
    if key' = key then some ⟨((s.limiterOf key).allow now).1, now⟩ else s.limiters.get? key' := by
  rw [allow_eq]
  unfold put
  rw [Map.get?_insert, Map.get?_insert]
  split_ifs <;> rfl

lemma limiterOf_allow (key' : String) : (s.allow key now).1.limiterOf key' =
    if key' = key then ((s.limiterOf key).allow now).1 else s.limiterOf key' := by
  unfold limiterOf
  rw [get?_allow]
  split_ifs <;> rfl

lemma Settled.mono (h : s.Settled t) (htn : t ≤ now) : s.Settled now :=
  ⟨h.limit, h.burst, fun key e he => (h.seen key e he).trans htn, h.full⟩

/-- The limiter of a key that is asked now may not be forgotten before it is full. -/
lemma Settled.fullFrom_limiterOf (h : s.Settled t) (htn : t ≤ now) (hr : 0 ≤ s.r) (key : String) :
    (s.limiterOf key).FullFrom (now + idleEviction) := by
  unfold limiterOf
  cases hget : s.limiters.get? key with
  | none => exact Limiter.fullFrom_new hr _
  | some e =>
      have hseen := h.seen key e hget
      exact (h.full key e hget).mono (by omega)

lemma Settled.allow (h : s.Settled t) (htn : t ≤ now) (hr : 0 ≤ s.r)
    (hfill : s.b ≤ s.r * inSeconds idleEviction) (key : String) : (s.allow key now).1.Settled now where
  limit key' := by
    rw [limiterOf_allow]
    split_ifs
    · rw [Limiter.allow_limit]
      exact h.limit key
    · exact h.limit key'
  burst key' := by
    rw [limiterOf_allow]
    split_ifs
    · rw [Limiter.allow_burst]
      exact h.burst key
    · exact h.burst key'
  seen key' e he := by
    rw [get?_allow] at he
    split_ifs at he with hkey
    · obtain rfl := Option.some.inj he
      exact le_rfl
    · exact (h.seen key' e he).trans htn
  full key' e he := by
    rw [get?_allow] at he
    split_ifs at he with hkey
    · obtain rfl := Option.some.inj he
      refine Limiter.fullFrom_allow ?_ (by decide) ?_ (h.fullFrom_limiterOf htn hr key)
      · rwa [h.limit key]
      · rwa [h.limit key, h.burst key]
    · exact h.full key' e he

lemma Settled.delete (h : s.Settled t) (htn : t ≤ now) (key : String) : (s.delete key).Settled now where
  limit key' := by
    rw [limiterOf_delete]
    split_ifs
    · rfl
    · exact h.limit key'
  burst key' := by
    rw [limiterOf_delete]
    split_ifs
    · rfl
    · exact h.burst key'
  seen key' e he := by
    unfold LimiterStore.delete at he
    rw [Map.get?_erase] at he
    exact (h.seen key' e (Option.ite_none_left_eq_some.mp he).2).trans htn
  full key' e he := by
    unfold LimiterStore.delete at he
    rw [Map.get?_erase] at he
    exact h.full key' e (Option.ite_none_left_eq_some.mp he).2

/-- A limiter is as it was, or new. -/
lemma limiterOf_evictIdle (s : LimiterStore) (now : ℤ) (key : String) :
    (s.evictIdle now).limiterOf key = s.limiterOf key ∨
    (s.evictIdle now).limiterOf key = .new s.r s.b
      ∧ ∃ e, s.limiters.get? key = some e ∧ e.seen + idleEviction ≤ now := by
  unfold limiterOf
  rw [get?_evictIdle]
  cases s.limiters.get? key with
  | none => exact .inl rfl
  | some e =>
      by_cases hidle : e.seen + idleEviction ≤ now
      · refine .inr ⟨?_, e, rfl, hidle⟩
        rw [Option.filter_some, if_neg (by simpa using hidle)]
        rfl
      · rw [Option.filter_some, if_pos (by simpa using hidle)]
        exact .inl rfl

lemma Settled.evictIdle (h : s.Settled t) (htn : t ≤ now) : (s.evictIdle now).Settled now where
  limit key := by
    obtain hkept | ⟨hnew, -⟩ := s.limiterOf_evictIdle now key
    · rw [hkept]
      exact h.limit key
    · rw [hnew]
      rfl
  burst key := by
    obtain hkept | ⟨hnew, -⟩ := s.limiterOf_evictIdle now key
    · rw [hkept]
      exact h.burst key
    · rw [hnew]
      rfl
  seen key e he := by
    rw [get?_evictIdle, Option.filter_eq_some_iff] at he
    exact (h.seen key e he.1).trans htn
  full key e he := by
    rw [get?_evictIdle, Option.filter_eq_some_iff] at he
    exact h.full key e he.1

/-! ## Stores of equal worth -/

lemma Like.mono (h : s.Like s' t) (htn : t ≤ now) : s.Like s' now :=
  ⟨h.r, h.b, fun key => (h.limiters key).mono htn⟩

lemma Like.allow (h : s.Like s' t) (htn : t ≤ now) (key : String) :
    (s.allow key now).2 = (s'.allow key now).2 ∧ (s.allow key now).1.Like (s'.allow key now).1 now := by
  obtain ⟨hsame, hlike⟩ := Limiter.allow_like ((h.limiters key).mono htn)
  refine ⟨hsame, h.r, h.b, fun key' => ?_⟩
  rw [limiterOf_allow, limiterOf_allow]
  split_ifs
  · exact hlike
  · exact (h.limiters key').mono htn

lemma Like.delete (h : s.Like s' t) (htn : t ≤ now) (key : String) :
    (s.delete key).Like (s'.delete key) now := by
  refine ⟨h.r, h.b, fun key' => ?_⟩
  rw [limiterOf_delete, limiterOf_delete, h.r, h.b]
  split_ifs
  · exact .refl _ _
  · exact (h.limiters key').mono htn

/-- **What is forgotten is full.** -/
lemma Like.evictIdle (h : s.Like s' t) (hs : s.Settled t) (htn : t ≤ now) (hr : 0 ≤ s.r) :
    (s.evictIdle now).Like s' now := by
  refine ⟨h.r, h.b, fun key => ?_⟩
  obtain hkept | ⟨hnew, e, he, hidle⟩ := s.limiterOf_evictIdle now key
  · rw [hkept]
    exact (h.limiters key).mono htn
  · have hlimiter : s.limiterOf key = e.limiter := by
      unfold limiterOf
      rw [he]
    have hfull : (s.limiterOf key).FullFrom now := by
      rw [hlimiter]
      exact (hs.full key e he).mono hidle
    rw [hnew]
    refine Limiter.Like.trans ?_ ((h.limiters key).mono htn)
    exact Limiter.like_of_fullFrom (hs.limit key).symm (hs.burst key).symm (Limiter.fullFrom_new hr _) hfull

lemma Like.rateLimit (h : s.Like s' t) (htn : t ≤ now) (key clientIP : String) :
    (s.rateLimit key clientIP now).2 = (s'.rateLimit key clientIP now).2
      ∧ (s.rateLimit key clientIP now).1.Like (s'.rateLimit key clientIP now).1 now := by
  unfold LimiterStore.rateLimit
  dsimp only
  generalize (if key = "" then clientIP else key) = key
  split_ifs
  · exact h.allow htn key
  · exact ⟨rfl, h.mono htn⟩

lemma Settled.rateLimit (h : s.Settled t) (htn : t ≤ now) (hr : 0 ≤ s.r)
    (hfill : s.b ≤ s.r * inSeconds idleEviction) (key clientIP : String) :
    (s.rateLimit key clientIP now).1.Settled now := by
  unfold LimiterStore.rateLimit
  dsimp only
  generalize (if key = "" then clientIP else key) = key
  split_ifs
  · exact h.allow htn hr hfill key
  · exact h.mono htn

lemma rateLimit_r (key clientIP : String) : (s.rateLimit key clientIP now).1.r = s.r := by
  unfold LimiterStore.rateLimit
  dsimp only
  split_ifs <;> rfl

lemma rateLimit_b (key clientIP : String) : (s.rateLimit key clientIP now).1.b = s.b := by
  unfold LimiterStore.rateLimit
  dsimp only
  split_ifs <;> rfl

end Requests

end LimiterStore

/-! ## Runs -/

section Runs

variable {s s' : LimiterStore} {t : ℤ}

/-- Two stores of equal worth allow the same requests, whatever the first one forgets. -/
theorem outcomes_of_like (events : List (ℤ × StoreEvent)) (hs : s.Settled t) (h : s.Like s' t)
    (hr : 0 ≤ s.r) (hfill : s.b ≤ s.r * inSeconds idleEviction) (hlate : ∀ e ∈ events, t ≤ e.1)
    (hsorted : events.Pairwise fun e e' => e.1 ≤ e'.1) :
    outcomes s events = outcomes s' (withoutEviction events) := by
  induction events generalizing s s' t with
  | nil => rfl
  | cons e events ih =>
      obtain ⟨now, event⟩ := e
      have htn : t ≤ now := hlate _ List.mem_cons_self
      obtain ⟨hnext, hrest⟩ := List.pairwise_cons.mp hsorted
      cases event with
      | request key clientIP =>
          obtain ⟨hsame, hlike⟩ := h.rateLimit htn key clientIP
          refine congrArg₂ List.cons hsame (ih (hs.rateLimit htn hr hfill key clientIP) hlike ?_ ?_ hnext hrest)
          · rwa [LimiterStore.rateLimit_r]
          · rwa [LimiterStore.rateLimit_r, LimiterStore.rateLimit_b]
      | delete key => exact ih (hs.delete htn key) (h.delete htn key) hr hfill hnext hrest
      | evictIdle => exact ih (hs.evictIdle htn) (h.evictIdle hs htn hr) hr hfill hnext hrest

end Runs

/-! ## Stores that refuse everything -/

/-- No limiter has room for a token. -/
structure LimiterStore.Refusing (s : LimiterStore) : Prop where
  b : s.b ≤ 0
  burst : ∀ key, (s.limiterOf key).burst ≤ 0

section Refusing

variable {s s' : LimiterStore}

lemma LimiterStore.Refusing.allow (h : s.Refusing) (key : String) (now : ℤ) :
    (s.allow key now).2 = false ∧ (s.allow key now).1.Refusing := by
  have hrefused := Limiter.allow_of_burst (h.burst key) now
  refine ⟨congrArg Prod.snd hrefused, h.b, fun key' => ?_⟩
  rw [limiterOf_allow]
  split_ifs
  · rw [Limiter.allow_burst]
    exact h.burst key
  · exact h.burst key'

lemma LimiterStore.Refusing.rateLimit (h : s.Refusing) (key clientIP : String) (now : ℤ) :
    (s.rateLimit key clientIP now).2 = decide ((if key = "" then clientIP else key) = "")
      ∧ (s.rateLimit key clientIP now).1.Refusing := by
  unfold LimiterStore.rateLimit
  dsimp only
  generalize (if key = "" then clientIP else key) = key
  split_ifs with hkey
  · obtain ⟨hrefused, hnext⟩ := h.allow key now
    exact ⟨by simp [hrefused, hkey], hnext⟩
  · exact ⟨by simpa using hkey, h⟩

lemma LimiterStore.Refusing.delete (h : s.Refusing) (key : String) : (s.delete key).Refusing := by
  refine ⟨h.b, fun key' => ?_⟩
  rw [limiterOf_delete]
  split_ifs
  · exact h.b
  · exact h.burst key'

lemma LimiterStore.Refusing.evictIdle (h : s.Refusing) (now : ℤ) : (s.evictIdle now).Refusing := by
  refine ⟨h.b, fun key => ?_⟩
  obtain hkept | ⟨hnew, -⟩ := s.limiterOf_evictIdle now key
  · rw [hkept]
    exact h.burst key
  · rw [hnew]
    exact h.b

lemma outcomes_of_refusing (events : List (ℤ × StoreEvent)) (h : s.Refusing) (h' : s'.Refusing) :
    outcomes s events = outcomes s' (withoutEviction events) := by
  induction events generalizing s s' with
  | nil => rfl
  | cons e events ih =>
      obtain ⟨now, event⟩ := e
      cases event with
      | request key clientIP =>
          obtain ⟨hrefused, hnext⟩ := h.rateLimit key clientIP now
          obtain ⟨hrefused', hnext'⟩ := h'.rateLimit key clientIP now
          exact congrArg₂ List.cons (hrefused.trans hrefused'.symm) (ih hnext hnext')
      | delete key => exact ih (h.delete key) (h'.delete key)
      | evictIdle => exact ih (h.evictIdle now) h'

end Refusing

/-! ## Evictions -/

/-- A new store. -/
lemma settled_new {r : ℚ} (b : ℤ) (now : ℤ) : (LimiterStore.new r b).Settled now where
  limit _ := rfl
  burst _ := rfl
  seen key e he := by simp [LimiterStore.new] at he
  full key e he := by simp [LimiterStore.new] at he

/-- **Eviction is unobservable**: the declared stores give a limiter that is idle the time to fill, and any
store that does allows and refuses as it would with no eviction at all. -/
theorem eviction_unobservable :
    (∀ s ∈ declaredStores, (s.b : ℚ) ≤ s.r * inSeconds idleEviction)
      ∧ ∀ (r : ℚ) (b : ℤ), b ≤ r * inSeconds idleEviction → ∀ events : List (ℤ × StoreEvent),
        events.Pairwise (fun e e' => e.1 ≤ e'.1) →
          outcomes (.new r b) events = outcomes (.new r b) (withoutEviction events) := by
  refine ⟨by decide +kernel, fun r b hfill events hsorted => ?_⟩
  obtain hb | hb := le_or_gt b 0
  · have hrefusing : (LimiterStore.new r b).Refusing := ⟨hb, fun _ => hb⟩
    exact outcomes_of_refusing events hrefusing hrefusing
  · have hr : 0 ≤ r := by
      have hidle : 0 < inSeconds idleEviction := by decide +kernel
      have hpos : (0 : ℚ) < b := by exact_mod_cast hb
      by_contra hneg
      have hle : r * inSeconds idleEviction ≤ 0 := mul_nonpos_of_nonpos_of_nonneg (not_le.mp hneg).le hidle.le
      linarith
    cases events with
    | nil => rfl
    | cons e events =>
        have hlate : ∀ x ∈ e :: events, e.1 ≤ x.1 := by
          intro x hx
          obtain rfl | hx := List.mem_cons.mp hx
          · exact le_rfl
          · exact (List.pairwise_cons.mp hsorted).1 x hx
        exact outcomes_of_like _ (settled_new b e.1) ⟨rfl, rfl, fun _ => .refl _ _⟩ hr hfill hlate hsorted

/-- A limiter that is forgotten between two requests. -/
theorem eviction_unobservable_sample :
    outcomes runLimiter [(0, .request "u" ""), (idleEviction, .evictIdle), (idleEviction, .request "u" "")]
      = outcomes runLimiter (withoutEviction
        [(0, .request "u" ""), (idleEviction, .evictIdle), (idleEviction, .request "u" "")]) :=
  eviction_unobservable.2 _ _ (eviction_unobservable.1 runLimiter (by simp [declaredStores])) _
    (by decide +kernel)

end Api

end Labyrithm
