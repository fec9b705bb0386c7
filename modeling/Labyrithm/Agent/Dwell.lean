import Labyrithm.Go.Map
import Mathlib.Algebra.Order.Ring.Nat

/-!
# Dwell

`DwellTracker` of `competitor-desktop/src-tauri/src/signals/dwell.rs` adds up, in whole milliseconds, how
long each application was the current one.  Both `sample` and `drain` credit the time since the last call
to the application that was current until now, and `drain` hands out the totals.  An `Instant` is a number
of nanoseconds; `duration_since` is 0 for an earlier one, `as u64` keeps the last 64 bits, and so does an
addition in a release build.

* `held` — how long an application was current up to the last drain, read off the calls alone.
* `Conserves` — what is drained for an application is that time, less than a millisecond short for every
  call, and for all of them no more than has passed.
* `credit_total_le`, `le_credit_total` — what one call credits.

**`dwell_conserved`** — nothing is ever drained twice or for two applications; nothing is lost unless there
are 2^64 milliseconds from one drain to the next (`dwell_truncated`).
-/

namespace Labyrithm

namespace Agent

open Go (Map)

/-- The nanoseconds of a millisecond. -/
def nanosPerMilli : ℕ := 1000000

/-- `now.duration_since(since).as_millis() as u64`. -/
def elapsedMillis (since now : ℕ) : ℕ := (now - since) / nanosPerMilli % 2 ^ 64

structure DwellTracker where
  totals : Map String ℕ
  current : Option String
  since : ℕ

namespace DwellTracker

/-- `DwellTracker::new`, at an instant. -/
def new (now : ℕ) : DwellTracker := ⟨∅, none, now⟩

/-- The total of an application, 0 where it has none. -/
def total (d : DwellTracker) (app : String) : ℕ := (d.totals.get? app).getD 0

/-- Both calls begin with it: the time since the last one goes to the current application. -/
def credit (d : DwellTracker) (now : ℕ) : DwellTracker where
  totals :=
    match d.current with
    | some current => d.totals.insert current ((d.total current + elapsedMillis d.since now) % 2 ^ 64)
    | none => d.totals
  current := d.current
  since := now

/-- `sample`. -/
def sample (d : DwellTracker) (appID : String) (now : ℕ) : DwellTracker :=
  { d.credit now with current := if appID.isEmpty then none else some appID }

/-- `drain`, with the totals that are handed out. -/
def drain (d : DwellTracker) (now : ℕ) : Map String ℕ × DwellTracker :=
  ((d.credit now).totals, { d.credit now with totals := ∅ })

end DwellTracker

/-- A call of the tracker. -/
inductive DwellCall
  | sample (appID : String) (now : ℕ)
  | drain (now : ℕ)
  deriving DecidableEq, Repr

namespace DwellCall

def now : DwellCall → ℕ
  | sample _ now => now
  | drain now => now

def isDrain : DwellCall → Bool
  | sample _ _ => false
  | drain _ => true

/-- The current application after a call. -/
def currentAfter (current : Option String) : DwellCall → Option String
  | sample appID _ => if appID.isEmpty then none else some appID
  | drain _ => current

end DwellCall

namespace DwellTracker

/-- The tracker after a call. -/
def next (d : DwellTracker) : DwellCall → DwellTracker
  | .sample appID now => d.sample appID now
  | .drain now => (d.drain now).2

/-- What a call hands out. -/
def out (d : DwellTracker) : DwellCall → List (Map String ℕ)
  | .sample _ _ => []
  | .drain now => [(d.drain now).1]

/-- What the drains of a run hand out, one after the other. -/
def drains (d : DwellTracker) : List DwellCall → List (Map String ℕ)
  | [] => []
  | call :: calls => d.out call ++ (d.next call).drains calls

end DwellTracker

/-! ## What the calls say -/

/-- The milliseconds drained for an application. -/
def drainedFor (app : String) (windows : List (Map String ℕ)) : ℕ :=
  (windows.map fun totals => (totals.get? app).getD 0).sum

/-- The milliseconds drained for all applications. -/
def drainedInAll (windows : List (Map String ℕ)) : ℕ :=
  (windows.map fun totals => Map.sum (fun _ ms => ms) totals).sum

/-- The calls up to the last drain. -/
def upToLastDrain : List DwellCall → List DwellCall
  | [] => []
  | call :: calls =>
      if (call :: calls).any DwellCall.isDrain then call :: upToLastDrain calls else []

/-- How long an application is current until the last of the calls. -/
def currentFor (app : String) : Option String → ℕ → List DwellCall → ℕ
  | _, _, [] => 0
  | current, since, call :: calls =>
      (if current = some app then call.now - since else 0)
        + currentFor app (call.currentAfter current) call.now calls

/-- How long an application is the current one, up to the last drain. -/
def held (app : String) (calls : List DwellCall) : ℕ := currentFor app none 0 (upToLastDrain calls)

/-- The time from the first sample to the last drain. -/
def span (calls : List DwellCall) : ℕ :=
  match (upToLastDrain calls).find? (!·.isDrain), (upToLastDrain calls).getLast? with
  | some first, some last => last.now - first.now
  | _, _ => 0

/-- Fewer than 2^64 milliseconds from the start of a window to each of its calls; every drain starts
the next window. -/
def DrainedInTime (start : ℕ) : List DwellCall → Prop
  | [] => True
  | call :: calls =>
      call.now - start < 2 ^ 64 * nanosPerMilli
        ∧ DrainedInTime (if call.isDrain then call.now else start) calls

/-- No window up to the last drain is 2^64 milliseconds long; the first one starts with the first call. -/
def ShortWindows (calls : List DwellCall) : Prop :=
  ∀ first ∈ (upToLastDrain calls).head?, DrainedInTime first.now (upToLastDrain calls)

/-- What is drained for an application is at most the time it was current. -/
def NothingTwice (calls : List DwellCall) (windows : List (Map String ℕ)) : Prop :=
  ∀ app, drainedFor app windows * nanosPerMilli ≤ held app calls

/-- What is drained falls short by less than a millisecond, at most 999999 ns, for every call. -/
def NothingLost (calls : List DwellCall) (windows : List (Map String ℕ)) : Prop :=
  ∀ app, held app calls ≤ drainedFor app windows * nanosPerMilli + calls.length * (nanosPerMilli - 1)

/-- What is drained for all applications is at most the time that has passed. -/
def NothingShared (calls : List DwellCall) (windows : List (Map String ℕ)) : Prop :=
  drainedInAll windows * nanosPerMilli ≤ span calls

def Conserves (calls : List DwellCall) (windows : List (Map String ℕ)) : Prop :=
  NothingTwice calls windows ∧ NothingLost calls windows ∧ NothingShared calls windows

/-! ## One call -/

section Credit

variable {d : DwellTracker} {app : String} {now start : ℕ}

lemma elapsedMillis_le (since now : ℕ) : elapsedMillis since now * nanosPerMilli ≤ now - since := by
  have hmod : elapsedMillis since now ≤ (now - since) / nanosPerMilli := Nat.mod_le _ _
  calc elapsedMillis since now * nanosPerMilli
      ≤ (now - since) / nanosPerMilli * nanosPerMilli := Nat.mul_le_mul_right _ hmod
    _ ≤ now - since := Nat.div_mul_le_self _ _

attribute [local simp] DwellTracker.total DwellTracker.credit in
lemma total_credit_self (h : d.current = some app) :
    (d.credit now).total app = (d.total app + elapsedMillis d.since now) % 2 ^ 64 := by
  simp [DwellTracker.total, DwellTracker.credit, h, Go.Map.get?_insert]

lemma total_credit_of_ne (h : d.current ≠ some app) : (d.credit now).total app = d.total app := by
  unfold DwellTracker.total DwellTracker.credit
  cases hcurrent : d.current with
  | none => rfl
  | some current =>
      have hne : app ≠ current := fun heq => h (by rw [hcurrent, heq])
      simp [Go.Map.get?_insert, hne]

/-- No more is credited than has passed. -/
lemma credit_total_le (d : DwellTracker) (app : String) (now : ℕ) :
    (d.credit now).total app * nanosPerMilli
      ≤ d.total app * nanosPerMilli + (if d.current = some app then now - d.since else 0) := by
  split_ifs with h
  · rw [total_credit_self h]
    have hmod := Nat.mod_le (d.total app + elapsedMillis d.since now) (2 ^ 64)
    calc (d.total app + elapsedMillis d.since now) % 2 ^ 64 * nanosPerMilli
        ≤ (d.total app + elapsedMillis d.since now) * nanosPerMilli := Nat.mul_le_mul_right _ hmod
      _ = d.total app * nanosPerMilli + elapsedMillis d.since now * nanosPerMilli := Nat.add_mul _ _ _
      _ ≤ d.total app * nanosPerMilli + (now - d.since) :=
          Nat.add_le_add_left (elapsedMillis_le _ _) _
  · rw [total_credit_of_ne h]
    exact Nat.le_add_right _ _

/-- Less than a millisecond is lost, unless the window is 2^64 milliseconds long. -/
lemma le_credit_total (htotal : start + d.total app * nanosPerMilli ≤ d.since) (hnow : d.since ≤ now)
    (hwindow : now - start < 2 ^ 64 * nanosPerMilli) :
    d.total app * nanosPerMilli + (if d.current = some app then now - d.since else 0)
      ≤ (d.credit now).total app * nanosPerMilli + (nanosPerMilli - 1) := by
  split_ifs with h
  · rw [total_credit_self h, elapsedMillis]
    unfold nanosPerMilli at *
    omega
  · rw [total_credit_of_ne h]
    omega

lemma sum_insert_total (m : Map String ℕ) (app : String) (ms : ℕ) :
    Map.sum (fun _ ms => ms) (m.insert app ms) + (m.get? app).getD 0
      = ms + Map.sum (fun _ ms => ms) m := by
  have hinsert : Map.sum (fun _ ms => ms) (m.insert app ms)
      = ms + Map.sum (fun _ ms => ms) (m.erase app) := rfl
  cases hget : m.get? app with
  | none => rw [hinsert, Go.Map.erase_of_get? hget, Option.getD_none, Nat.add_zero]
  | some old => rw [hinsert, Go.Map.sum_erase hget, Option.getD_some]; omega

/-- One application is credited, and no more than has passed. -/
lemma credit_sum_le (d : DwellTracker) (now : ℕ) :
    Map.sum (fun _ ms => ms) (d.credit now).totals * nanosPerMilli
      ≤ Map.sum (fun _ ms => ms) d.totals * nanosPerMilli + (now - d.since) := by
  cases hcurrent : d.current with
  | none =>
      have htotals : (d.credit now).totals = d.totals := by simp [DwellTracker.credit, hcurrent]
      rw [htotals]
      exact Nat.le_add_right _ _
  | some current =>
      have htotals : (d.credit now).totals
          = d.totals.insert current ((d.total current + elapsedMillis d.since now) % 2 ^ 64) := by
        simp [DwellTracker.credit, hcurrent]
      have hsum := sum_insert_total d.totals current
        ((d.total current + elapsedMillis d.since now) % 2 ^ 64)
      have hmod := Nat.mod_le (d.total current + elapsedMillis d.since now) (2 ^ 64)
      have helapsed := elapsedMillis_le d.since now
      have hnew : Map.sum (fun _ ms => ms) (d.credit now).totals
          ≤ Map.sum (fun _ ms => ms) d.totals + elapsedMillis d.since now := by
        rw [htotals]
        unfold DwellTracker.total at *
        omega
      calc Map.sum (fun _ ms => ms) (d.credit now).totals * nanosPerMilli
          ≤ (Map.sum (fun _ ms => ms) d.totals + elapsedMillis d.since now) * nanosPerMilli :=
            Nat.mul_le_mul_right _ hnew
        _ = Map.sum (fun _ ms => ms) d.totals * nanosPerMilli
              + elapsedMillis d.since now * nanosPerMilli := Nat.add_mul _ _ _
        _ ≤ Map.sum (fun _ ms => ms) d.totals * nanosPerMilli + (now - d.since) :=
            Nat.add_le_add_left (elapsedMillis_le _ _) _

end Credit

/-! ## One step of a run -/

section Step

variable {d : DwellTracker} {app : String} {call : DwellCall}

@[simp] lemma next_current : (d.next call).current = call.currentAfter d.current := by
  cases call <;> rfl

@[simp] lemma next_since : (d.next call).since = call.now := by cases call <;> rfl

attribute [local simp] drainedFor DwellTracker.out DwellTracker.next DwellTracker.drain DwellCall.now in
lemma drainedFor_append (app : String) (l l' : List (Map String ℕ)) :
    drainedFor app (l ++ l') = drainedFor app l + drainedFor app l' := by simp [drainedFor]

lemma drainedInAll_append (l l' : List (Map String ℕ)) :
    drainedInAll (l ++ l') = drainedInAll l + drainedInAll l' := by simp [drainedInAll]

/-- What is credited is handed out or kept. -/
lemma out_add_total :
    drainedFor app (d.out call) + (d.next call).total app = (d.credit call.now).total app := by
  cases call with
  | sample appID now => exact Nat.zero_add _
  | drain now => simp [drainedFor, DwellTracker.out, DwellTracker.next, DwellTracker.drain,
      DwellTracker.total, DwellCall.now]

lemma out_add_sum (d : DwellTracker) (call : DwellCall) :
    drainedInAll (d.out call) + Map.sum (fun _ ms => ms) (d.next call).totals
      = Map.sum (fun _ ms => ms) (d.credit call.now).totals := by
  cases call with
  | sample appID now => exact Nat.zero_add _
  | drain now => simp [drainedInAll, DwellTracker.out, DwellTracker.next, DwellTracker.drain,
      DwellCall.now]

/-- A drain keeps nothing. -/
lemma total_next_of_isDrain (h : call.isDrain) : (d.next call).total app = 0 := by
  cases call with
  | sample appID now => cases h
  | drain now => rfl

lemma out_of_not_isDrain (h : ¬ call.isDrain) : d.out call = [] := by
  cases call with
  | sample appID now => rfl
  | drain now => exact absurd rfl h

end Step

/-! ## The last drain -/

section LastDrain

variable {call : DwellCall} {calls : List DwellCall}

attribute [local simp] upToLastDrain in
lemma upToLastDrain_of_any (h : (call :: calls).any DwellCall.isDrain) :
    upToLastDrain (call :: calls) = call :: upToLastDrain calls := by rw [upToLastDrain, if_pos h]

lemma upToLastDrain_of_not_any (h : ¬ calls.any DwellCall.isDrain) : upToLastDrain calls = [] := by
  cases calls with
  | nil => rfl
  | cons call calls => rw [upToLastDrain, if_neg h]

lemma drains_of_not_any (h : ¬ calls.any DwellCall.isDrain) (d : DwellTracker) :
    d.drains calls = [] := by
  induction calls generalizing d with
  | nil => rfl
  | cons call calls ih =>
      rw [List.any_cons, Bool.or_eq_true, not_or] at h
      rw [DwellTracker.drains, out_of_not_isDrain h.1, ih h.2, List.append_nil]

lemma upToLastDrain_le (calls : List DwellCall) : upToLastDrain calls <+: calls := by
  induction calls with
  | nil => exact List.prefix_refl _
  | cons call calls ih =>
      rw [upToLastDrain]
      split_ifs
      · exact List.cons_prefix_cons.mpr ⟨rfl, ih⟩
      · exact List.nil_prefix

lemma upToLastDrain_ne_nil (h : calls.any DwellCall.isDrain) : upToLastDrain calls ≠ [] := by
  cases calls with
  | nil => simp at h
  | cons call calls =>
      rw [upToLastDrain_of_any h]
      exact List.cons_ne_nil _ _

end LastDrain

/-! ## Runs -/

section Run

variable {app : String} {calls : List DwellCall} {stop : ℕ}

/-- The drains of a run give an application what it had and at most the time it is current. -/
lemma drainedFor_le (app : String) (d : DwellTracker) (calls : List DwellCall) :
    drainedFor app (d.drains calls) * nanosPerMilli
      ≤ d.total app * nanosPerMilli + currentFor app d.current d.since (upToLastDrain calls) := by
  induction calls generalizing d with
  | nil => simp [DwellTracker.drains, drainedFor]
  | cons call calls ih =>
      by_cases hany : (call :: calls).any DwellCall.isDrain
      · have hcredit := credit_total_le d app call.now
        have hrest := ih (d.next call)
        rw [next_current, next_since] at hrest
        rw [← out_add_total, Nat.add_mul] at hcredit
        rw [upToLastDrain_of_any hany, currentFor, DwellTracker.drains, drainedFor_append, Nat.add_mul]
        omega
      · rw [drains_of_not_any hany]
        simp [drainedFor]

/-- And that time less a millisecond for every call, where the windows are short enough. -/
lemma le_drainedFor {d : DwellTracker} {start : ℕ} (htotal : start + d.total app * nanosPerMilli ≤ d.since)
    (hsince : ∀ call ∈ calls, d.since ≤ call.now) (hsorted : calls.Pairwise fun a b => a.now ≤ b.now)
    (hwindows : DrainedInTime start (upToLastDrain calls)) (hany : calls.any DwellCall.isDrain) :
    d.total app * nanosPerMilli + currentFor app d.current d.since (upToLastDrain calls)
      ≤ drainedFor app (d.drains calls) * nanosPerMilli
        + (upToLastDrain calls).length * (nanosPerMilli - 1) := by
  induction calls generalizing d start with
  | nil => simp at hany
  | cons call calls ih =>
      obtain ⟨hlater, hsorted⟩ := List.pairwise_cons.mp hsorted
      rw [upToLastDrain_of_any hany] at hwindows
      obtain ⟨hwindow, hwindows⟩ := hwindows
      have hnow : d.since ≤ call.now := hsince call List.mem_cons_self
      have hcredit := le_credit_total htotal hnow hwindow
      have hupper := credit_total_le d app call.now
      rw [← out_add_total, Nat.add_mul] at hcredit hupper
      rw [upToLastDrain_of_any hany, currentFor, DwellTracker.drains, drainedFor_append, Nat.add_mul,
        List.length_cons, Nat.add_mul, Nat.one_mul]
      by_cases hmore : calls.any DwellCall.isDrain
      · have hkept : (if call.isDrain then call.now else start) + (d.next call).total app * nanosPerMilli
            ≤ call.now := by
          split_ifs with hdrain
          · rw [total_next_of_isDrain hdrain, Nat.zero_mul, Nat.add_zero]
          · split_ifs at hupper <;> omega
        have hrest := ih (by rwa [next_since]) (by rwa [next_since]) hsorted hwindows hmore
        rw [next_current, next_since] at hrest
        omega
      · -- this call is the last drain
        have hdrain : call.isDrain := by simpa [hmore] using hany
        rw [total_next_of_isDrain hdrain, Nat.zero_mul, Nat.add_zero] at hcredit
        rw [upToLastDrain_of_not_any hmore, currentFor]
        omega

/-- All applications together are given what they had and at most the time that passes. -/
lemma drainedInAll_le {d : DwellTracker} (hsince : ∀ call ∈ calls, d.since ≤ call.now)
    (hsorted : calls.Pairwise fun a b => a.now ≤ b.now)
    (hstop : ∀ call ∈ upToLastDrain calls, call.now ≤ stop) :
    drainedInAll (d.drains calls) * nanosPerMilli
      ≤ Map.sum (fun _ ms => ms) d.totals * nanosPerMilli + (stop - d.since) := by
  induction calls generalizing d with
  | nil => simp [DwellTracker.drains, drainedInAll]
  | cons call calls ih =>
      obtain ⟨hlater, hsorted⟩ := List.pairwise_cons.mp hsorted
      have hnow : d.since ≤ call.now := hsince call List.mem_cons_self
      by_cases hany : (call :: calls).any DwellCall.isDrain
      · rw [upToLastDrain_of_any hany, List.forall_mem_cons] at hstop
        have hcredit := credit_sum_le d call.now
        have hrest := ih (d := d.next call) (by rwa [next_since]) hsorted hstop.2
        rw [← out_add_sum, Nat.add_mul] at hcredit
        rw [next_since] at hrest
        rw [DwellTracker.drains, drainedInAll_append, Nat.add_mul]
        have hcall := hstop.1
        omega
      · rw [drains_of_not_any hany]
        simp [drainedInAll]

/-- Before the first sample nothing is credited. -/
lemma drainedInAll_le_span {d : DwellTracker} (hcurrent : d.current = none) (htotals : d.totals = ∅)
    (hsorted : calls.Pairwise fun a b => a.now ≤ b.now) :
    drainedInAll (d.drains calls) * nanosPerMilli ≤ span calls := by
  induction calls generalizing d with
  | nil => simp [DwellTracker.drains, drainedInAll]
  | cons call calls ih =>
      obtain ⟨hlater, hsorted'⟩ := List.pairwise_cons.mp hsorted
      have hcredit : (d.credit call.now).totals = ∅ := by simp [DwellTracker.credit, hcurrent, htotals]
      have hsum := out_add_sum d call
      rw [hcredit, Go.Map.sum_empty, Nat.add_eq_zero_iff] at hsum
      rw [DwellTracker.drains, drainedInAll_append, hsum.1, Nat.zero_add]
      by_cases hmore : calls.any DwellCall.isDrain
      · have hany : (call :: calls).any DwellCall.isDrain := by simp [hmore]
        obtain ⟨last, hlast⟩ := Option.ne_none_iff_exists'.mp
          (mt List.getLast?_eq_none_iff.mp (upToLastDrain_ne_nil hmore))
        have hstop : ∀ c ∈ upToLastDrain calls, c.now ≤ last.now := by
          obtain ⟨l, hl⟩ := List.getLast?_eq_some_iff.mp hlast
          have hsub := hsorted'.sublist (upToLastDrain_le calls).sublist
          rw [hl, List.pairwise_append] at hsub
          intro c hc
          rw [hl, List.mem_append, List.mem_singleton] at hc
          obtain hc | rfl := hc
          · exact hsub.2.2 c hc last (List.mem_singleton_self _)
          · exact le_refl _
        have hend : (upToLastDrain (call :: calls)).getLast? = some last := by
          rw [upToLastDrain_of_any hany, List.getLast?_cons, hlast, Option.getD_some]
        cases call with
        | sample appID now =>
            have hspan : span (.sample appID now :: calls)
                = last.now - (DwellCall.sample appID now).now := by
              rw [span, hend, upToLastDrain_of_any hany]
              rfl
            have hrest := drainedInAll_le (d := d.next (.sample appID now)) (by rwa [next_since])
              hsorted' hstop
            rw [next_since, hsum.2, Nat.zero_mul, Nat.zero_add] at hrest
            rw [hspan]
            exact hrest
        | drain now =>
            have hspan : span (.drain now :: calls) = span calls := by
              rw [span, hend, upToLastDrain_of_any hany, span, hlast]
              rfl
            rw [hspan]
            exact ih hcurrent rfl hsorted'
      · rw [drains_of_not_any hmore]
        simp [drainedInAll]

/-- Until the first call it does not matter when the tracker was made. -/
lemma drains_new (t t' : ℕ) (calls : List DwellCall) :
    (DwellTracker.new t).drains calls = (DwellTracker.new t').drains calls := by
  cases calls with
  | nil => rfl
  | cons call calls => cases call <;> rfl

lemma currentFor_none (t t' : ℕ) : currentFor app none t calls = currentFor app none t' calls := by
  cases calls with
  | nil => rfl
  | cons call calls => simp [currentFor]

end Run

/-- **Dwell is conserved**: no time is drained twice or for two applications, and less than a millisecond
is lost by each call where no window is 2^64 milliseconds long. -/
theorem dwell_conserved (created : ℕ) (calls : List DwellCall)
    (h : calls.Pairwise fun a b => a.now ≤ b.now) :
    NothingTwice calls ((DwellTracker.new created).drains calls)
      ∧ NothingShared calls ((DwellTracker.new created).drains calls)
      ∧ (ShortWindows calls → NothingLost calls ((DwellTracker.new created).drains calls)) := by
  refine ⟨fun app => ?_, drainedInAll_le_span rfl rfl h, fun hshort app => ?_⟩
  · have hle := drainedFor_le app (DwellTracker.new 0) calls
    have hzero : (DwellTracker.new 0).total app = 0 := rfl
    rw [hzero, Nat.zero_mul, Nat.zero_add] at hle
    rw [drains_new created 0]
    exact hle
  · by_cases hany : calls.any DwellCall.isDrain
    · cases calls with
      | nil => simp at hany
      | cons call calls =>
          have hzero : (DwellTracker.new call.now).total app = 0 := rfl
          have hlater : ∀ c ∈ call :: calls, call.now ≤ c.now :=
            List.forall_mem_cons.mpr ⟨le_refl _, (List.pairwise_cons.mp h).1⟩
          have hstart : call.now + (DwellTracker.new call.now).total app * nanosPerMilli
              ≤ (DwellTracker.new call.now).since := by
            rw [hzero, Nat.zero_mul]
            exact le_refl _
          have hwindows : DrainedInTime call.now (upToLastDrain (call :: calls)) :=
            hshort call (by rw [upToLastDrain_of_any hany, List.head?_cons]; rfl)
          have hle := le_drainedFor hstart hlater h hwindows hany
          have hlength : (upToLastDrain (call :: calls)).length * (nanosPerMilli - 1)
              ≤ (call :: calls).length * (nanosPerMilli - 1) :=
            Nat.mul_le_mul_right _ (upToLastDrain_le _).length_le
          have hheld : held app (call :: calls)
              = currentFor app none call.now (upToLastDrain (call :: calls)) := currentFor_none _ _
          rw [hzero, Nat.zero_mul, Nat.zero_add] at hle
          rw [drains_new created call.now, hheld]
          exact hle.trans (Nat.add_le_add_left hlength _)
    · rw [held, upToLastDrain_of_not_any hany]
      exact Nat.zero_le _

/-- An editor, a browser and the editor again, with a drain in between. -/
def sampleCalls : List DwellCall :=
  [.sample "editor" 0, .sample "browser" 1500000, .drain 3700000, .sample "editor" 4600000, .drain 9300000]

theorem dwell_conserved_sample :
    (((DwellTracker.new 0).drains sampleCalls).map fun window => (window.get? "editor", window.get? "browser"))
        = [(some 1, some 2), (some 4, some 0)]
      ∧ NothingTwice sampleCalls ((DwellTracker.new 0).drains sampleCalls)
      ∧ NothingShared sampleCalls ((DwellTracker.new 0).drains sampleCalls)
      ∧ NothingLost sampleCalls ((DwellTracker.new 0).drains sampleCalls) := by
  have hsorted : sampleCalls.Pairwise fun a b => a.now ≤ b.now := by decide
  have hshort : ShortWindows sampleCalls := by
    intro first hfirst
    obtain rfl := Option.some.inj hfirst
    simp [sampleCalls, upToLastDrain, DwellCall.isDrain, DrainedInTime, DwellCall.now, nanosPerMilli]
  obtain ⟨htwice, hshared, hlost⟩ := dwell_conserved 0 sampleCalls hsorted
  exact ⟨by decide +kernel, htwice, hshared, hlost hshort⟩

/-- **A window of 2^64 milliseconds** is drained as one of 0. -/
theorem dwell_truncated :
    ¬ ∀ (created : ℕ) (calls : List DwellCall), (calls.Pairwise fun a b => a.now ≤ b.now) →
      Conserves calls ((DwellTracker.new created).drains calls) := by
  intro h
  have hlost := (h 0 [.sample "editor" 0, .drain (2 ^ 64 * nanosPerMilli)] (by decide)).2.1 "editor"
  revert hlost
  decide +kernel

end Agent

end Labyrithm
