import Labyrithm.Clock.Snapshot
import Mathlib.Data.List.Induction
import Mathlib.Data.List.Nodup

/-!
# The clock of the portal

`ContestProvider` of `competitor-frontend/src/components/portal/contest-provider.tsx`: the portal asks
the server for the state of the contest now and then, and counts down by itself in between, with the
difference of the two clocks as it was when the answer came.  Ticks and answers may come in any order.
Instants are in nanoseconds for the server and in milliseconds for the portal; the two clocks run at the
same speed.

* `PortalClock.tick`, `PortalClock.refreshed` — the code.
* `PortalClock.step`, `PortalClock.run` — what may happen, in any order.
* `Shows` — a tick that shows time left.

**`countdown_close`** — whatever came before the last answer, the time shown is that of the server and the
time that the answer took, up to a second and two milliseconds.
**`alerts_once`** — in every run each threshold is told once, if some tick is within it, and a refresh for
the end is asked for once until there is time left again.
-/

namespace Labyrithm

namespace Portal

open Go Clock

/-! ## Alerts -/

inductive Variant
  | info
  | warning
  | destructive
  | success
  deriving DecidableEq, Repr

structure Threshold where
  seconds : ℤ
  label : String
  variant : Variant
  deriving DecidableEq, Repr

def CONTEST_THRESHOLDS_SECONDS : List Threshold :=
  [⟨30 * 60, "30 minutes", .info⟩, ⟨15 * 60, "15 minutes", .warning⟩,
    ⟨10 * 60, "10 minutes", .warning⟩, ⟨5 * 60, "5 minutes", .destructive⟩,
    ⟨60, "1 minute", .destructive⟩]

/-- What an alert is about. -/
inductive Alert
  | started
  | paused
  | resumed
  | ended
  | frozen
  | threshold (t : Threshold)
  deriving DecidableEq, Repr

/-- `ContestAlert`, without its id. -/
structure ContestAlert where
  title : String
  description : String
  variant : Variant

def Alert.toast : Alert → ContestAlert
  | .started =>
      ⟨"Contest Started!",
        "The round is now live. Problem statements and submissions are unlocked.", .success⟩
  | .paused =>
      ⟨"Contest Paused", "Judges have paused the contest clock. Code execution is on hold.", .warning⟩
  | .resumed =>
      ⟨"Contest Resumed", "The competition round is active again. You may continue working.", .info⟩
  | .ended =>
      ⟨"Contest Concluded",
        "The round has ended. Submissions are closed and workspace is in practice mode.", .info⟩
  | .frozen =>
      ⟨"Scoreboard Frozen",
        "Public standings are now frozen. Your submissions will continue to be evaluated.", .info⟩
  | .threshold t =>
      ⟨t.label ++ " Remaining",
        if t.seconds ≤ 5 * 60 then
          "Only " ++ t.label ++ " left in the round! Ensure your final code is submitted."
        else t.label ++ " remaining before submissions close.", t.variant⟩

/-! ## The provider -/

/-- `new Date(text).getTime()`, of a text with an instant of the server's. -/
def toMs (t : ℤ) : ℤ := t / 1000000

/-- The state and the refs of `ContestProvider`, with the alerts that were set and the refreshes that a
tick has asked for. -/
structure PortalClock where
  state : ContestState
  clockOffset : ℤ
  remainingSeconds : ℤ
  elapsedSeconds : ℤ
  startsInSeconds : ℤ
  isFrozen : Bool
  previousFrozen : Bool
  firedThresholds : List ℤ
  endRefreshTriggered : Bool
  alerts : List Alert
  endRefreshes : ℕ

namespace PortalClock

/-- The first render, at a time of the portal. -/
def new (initialState : ContestState) (dateNow : ℤ) : PortalClock where
  state := initialState
  clockOffset := toMs initialState.serverTime - dateNow
  remainingSeconds := initialState.remainingSeconds
  elapsedSeconds := initialState.elapsedSeconds
  startsInSeconds := 0
  isFrozen := initialState.isFrozen
  previousFrozen := initialState.isFrozen
  firedThresholds := []
  endRefreshTriggered := false
  alerts := []
  endRefreshes := 0

variable (c : PortalClock)

/-- `setAlertToast`. -/
def alert (a : Alert) : PortalClock := { c with alerts := c.alerts ++ [a] }

/-- `checkStatusTransitions`. -/
def checkStatusTransitions (prevStatus currentStatus : Status) : PortalClock :=
  if prevStatus = currentStatus then c
  else if prevStatus = .notStarted ∧ currentStatus = .running then c.alert .started
  else if currentStatus = .paused then c.alert .paused
  else if prevStatus = .paused ∧ currentStatus = .running then c.alert .resumed
  else if currentStatus = .ended then c.alert .ended
  else c

/-- `refresh`, once there is an answer. -/
def refreshed (next : ContestState) (dateNow : ℤ) : PortalClock :=
  checkStatusTransitions { c with state := next, clockOffset := toMs next.serverTime - dateNow }
    c.state.status next.status

/-- A threshold that has been reached for the first time. -/
def fireThreshold (remaining : ℤ) (c : PortalClock) (t : Threshold) : PortalClock :=
  if remaining ≤ t.seconds ∧ t.seconds ∉ c.firedThresholds then
    { c with firedThresholds := c.firedThresholds ++ [t.seconds] }.alert (.threshold t)
  else c

/-- No time is left, or there is time again. -/
def endRefresh (remaining : ℤ) : PortalClock :=
  if remaining = 0 ∧ c.endRefreshTriggered = false then
    { c with endRefreshTriggered := true, endRefreshes := c.endRefreshes + 1 }
  else if remaining > 0 then { c with endRefreshTriggered := false }
  else c

/-- The seconds until the end. -/
def remainingAt (endTime dateNow : ℤ) : ℤ := max 0 ((toMs endTime - (dateNow + c.clockOffset)) / 1000)

/-- A tick while the contest runs, up to the thresholds. -/
def count (endTime dateNow : ℤ) : PortalClock :=
  let remaining := c.remainingAt endTime dateNow
  let d := { c with startsInSeconds := 0, remainingSeconds := remaining }.endRefresh remaining
  let d := { d with
    elapsedSeconds :=
      match c.state.startTime with
      | some startTime => max 0 ((dateNow + c.clockOffset - toMs startTime) / 1000)
      | none => d.elapsedSeconds
    isFrozen := c.state.isFrozen }
  let d := if !d.previousFrozen && c.state.isFrozen then d.alert .frozen else d
  { d with previousFrozen := c.state.isFrozen }

/-- A tick while the contest runs. -/
def tickRunning (endTime dateNow : ℤ) : PortalClock :=
  let remaining := c.remainingAt endTime dateNow
  let d := c.count endTime dateNow
  if remaining > 0 then CONTEST_THRESHOLDS_SECONDS.foldl (fireThreshold remaining) d else d

/-- `calculateTick`. -/
def tick (dateNow : ℤ) : PortalClock :=
  match c.state.status with
  | .notStarted =>
      { c with
        remainingSeconds := c.state.durationSeconds
        elapsedSeconds := 0
        isFrozen := false
        startsInSeconds :=
          match c.state.startTime with
          | some startTime => max 0 ((toMs startTime - (dateNow + c.clockOffset)) / 1000)
          | none => 0 }
  | .running =>
      match c.state.endTime with
      | some endTime => c.tickRunning endTime dateNow
      | none =>
          { c with
            startsInSeconds := 0
            remainingSeconds := c.state.durationSeconds
            elapsedSeconds := 0
            isFrozen := false }
  | .paused =>
      { c with
        startsInSeconds := 0
        remainingSeconds := c.state.remainingSeconds
        elapsedSeconds := c.state.elapsedSeconds
        isFrozen := c.state.isFrozen }
  | .ended =>
      { c with
        startsInSeconds := 0
        remainingSeconds := 0
        elapsedSeconds := c.state.durationSeconds
        isFrozen := false }

/-- `isEnded`. -/
def isEnded : Bool := c.state.status = .ended || (c.state.status = .running && c.remainingSeconds = 0)

end PortalClock

/-- A tick, or an answer, each at a time of the portal. -/
inductive ClockEvent
  | tick (dateNow : ℤ)
  | answer (next : ContestState) (dateNow : ℤ)

namespace PortalClock

def step (c : PortalClock) : ClockEvent → PortalClock
  | .tick dateNow => c.tick dateNow
  | .answer next dateNow => c.refreshed next dateNow

def run (c : PortalClock) (events : List ClockEvent) : PortalClock := events.foldl step c

end PortalClock

/-! ## Ticks -/

section Ticks

variable {c d : PortalClock} (remaining dateNow endTime : ℤ)

/-- The thresholds that were told. -/
def told (alerts : List Alert) : List ℤ :=
  alerts.filterMap fun
    | .threshold t => some t.seconds
    | _ => none

@[simp] lemma told_append (alerts alerts' : List Alert) :
    told (alerts ++ alerts') = told alerts ++ told alerts' :=
  List.filterMap_append

/-- What is the same in two states of the clock, but for what they show and have told. -/
structure SameRefs (c d : PortalClock) : Prop where
  state : d.state = c.state
  clockOffset : d.clockOffset = c.clockOffset
  endRefreshTriggered : d.endRefreshTriggered = c.endRefreshTriggered
  endRefreshes : d.endRefreshes = c.endRefreshes

lemma fireThreshold_same (c : PortalClock) (t : Threshold) : SameRefs c (c.fireThreshold remaining t) := by
  rw [PortalClock.fireThreshold]
  split_ifs <;> exact ⟨rfl, rfl, rfl, rfl⟩

lemma fire_same (c : PortalClock) (ts : List Threshold) :
    SameRefs c (ts.foldl (PortalClock.fireThreshold remaining) c) ∧
    (ts.foldl (PortalClock.fireThreshold remaining) c).remainingSeconds = c.remainingSeconds := by
  induction ts generalizing c with
  | nil => exact ⟨⟨rfl, rfl, rfl, rfl⟩, rfl⟩
  | cons t ts ih =>
      obtain ⟨hsame, hremaining⟩ := ih (c.fireThreshold remaining t)
      have hone := fireThreshold_same remaining c t
      have hone' : (c.fireThreshold remaining t).remainingSeconds = c.remainingSeconds := by
        rw [PortalClock.fireThreshold]
        split_ifs <;> rfl
      exact ⟨⟨hsame.state.trans hone.state, hsame.clockOffset.trans hone.clockOffset,
        hsame.endRefreshTriggered.trans hone.endRefreshTriggered,
        hsame.endRefreshes.trans hone.endRefreshes⟩, hremaining.trans hone'⟩

/-- What was told is what is remembered, and was told once. -/
structure Told (c : PortalClock) : Prop where
  eq : told c.alerts = c.firedThresholds
  nodup : c.firedThresholds.Nodup

lemma Told.fireThreshold (h : Told c) (t : Threshold) : Told (c.fireThreshold remaining t) := by
  rw [PortalClock.fireThreshold]
  split_ifs with hnew
  · refine ⟨?_, ?_⟩
    · simp only [PortalClock.alert, told_append, h.eq]
      rfl
    · simp only [PortalClock.alert, List.nodup_append]
      refine ⟨h.nodup, List.nodup_singleton _, fun y hy z hz heq => hnew.2 ?_⟩
      rw [List.mem_singleton] at hz
      rwa [← hz, ← heq]
  · exact h

/-- The thresholds that are passed are told. -/
lemma Told.fire (h : Told c) (ts : List Threshold) :
    Told (ts.foldl (PortalClock.fireThreshold remaining) c) ∧
      ∀ x, x ∈ (ts.foldl (PortalClock.fireThreshold remaining) c).firedThresholds ↔
        x ∈ c.firedThresholds ∨ ∃ t ∈ ts, remaining ≤ t.seconds ∧ t.seconds = x := by
  induction ts generalizing c with
  | nil => exact ⟨h, fun x => by simp⟩
  | cons t ts ih =>
      obtain ⟨htold, hmem⟩ := ih (h.fireThreshold remaining t)
      refine ⟨htold, fun x => ?_⟩
      rw [List.foldl_cons, hmem]
      have hone : x ∈ (c.fireThreshold remaining t).firedThresholds ↔
          x ∈ c.firedThresholds ∨ remaining ≤ t.seconds ∧ t.seconds = x := by
        rw [PortalClock.fireThreshold]
        split_ifs with hnew
        · simp only [PortalClock.alert, List.mem_append, List.mem_singleton]
          exact or_congr_right ⟨fun heq => ⟨hnew.1, heq.symm⟩, fun heq => heq.2.symm⟩
        · refine ⟨.inl, fun hx => hx.elim id fun hpassed => ?_⟩
          by_contra hx
          exact hnew ⟨hpassed.1, fun hfired => hx (hpassed.2 ▸ hfired)⟩
      rw [hone, or_assoc]
      simp

lemma endRefresh_frame (c : PortalClock) : (c.endRefresh remaining).state = c.state ∧
    (c.endRefresh remaining).clockOffset = c.clockOffset := by
  rw [PortalClock.endRefresh]
  split_ifs <;> exact ⟨rfl, rfl⟩

/-- The alert for the frozen standings tells no threshold. -/
lemma count_spec (c : PortalClock) :
    SameRefs (c.endRefresh (c.remainingAt endTime dateNow)) (c.count endTime dateNow) ∧
    (c.count endTime dateNow).remainingSeconds = c.remainingAt endTime dateNow ∧
    (c.count endTime dateNow).firedThresholds = c.firedThresholds ∧
    told (c.count endTime dateNow).alerts = told c.alerts := by
  simp only [PortalClock.count, PortalClock.endRefresh]
  split_ifs <;>
    exact ⟨⟨rfl, rfl, rfl, rfl⟩, rfl, rfl, by simp [PortalClock.alert, told]⟩

lemma tickRunning_spec (c : PortalClock) :
    SameRefs (c.endRefresh (c.remainingAt endTime dateNow)) (c.tickRunning endTime dateNow) ∧
    (c.tickRunning endTime dateNow).remainingSeconds = c.remainingAt endTime dateNow := by
  obtain ⟨hsame, hremaining, -, -⟩ := count_spec dateNow endTime c
  rw [PortalClock.tickRunning]
  split_ifs
  · obtain ⟨hfire, hleft⟩ := fire_same (c.remainingAt endTime dateNow) (c.count endTime dateNow)
      CONTEST_THRESHOLDS_SECONDS
    exact ⟨⟨hfire.state.trans hsame.state, hfire.clockOffset.trans hsame.clockOffset,
      hfire.endRefreshTriggered.trans hsame.endRefreshTriggered,
      hfire.endRefreshes.trans hsame.endRefreshes⟩, hleft.trans hremaining⟩
  · exact ⟨hsame, hremaining⟩

/-- A tick does not change what the server said. -/
lemma tick_state (c : PortalClock) : (c.tick dateNow).state = c.state ∧ (c.tick dateNow).clockOffset = c.clockOffset := by
  rw [PortalClock.tick]
  split
  · exact ⟨rfl, rfl⟩
  · split
    · obtain ⟨hsame, -⟩ := tickRunning_spec dateNow _ c
      obtain ⟨hstate, hoffset⟩ := endRefresh_frame (c.remainingAt _ dateNow) c
      exact ⟨hsame.state.trans hstate, hsame.clockOffset.trans hoffset⟩
    · exact ⟨rfl, rfl⟩
  · exact ⟨rfl, rfl⟩
  · exact ⟨rfl, rfl⟩

lemma run_ticks (c : PortalClock) (ticks : List ℤ) : (c.run (ticks.map .tick)).state = c.state ∧
    (c.run (ticks.map .tick)).clockOffset = c.clockOffset := by
  induction ticks generalizing c with
  | nil => exact ⟨rfl, rfl⟩
  | cons dateNow ticks ih =>
      obtain ⟨hstate, hoffset⟩ := ih (c.tick dateNow)
      exact ⟨hstate.trans (tick_state dateNow c).1, hoffset.trans (tick_state dateNow c).2⟩

lemma refreshed_spec (c : PortalClock) (next : ContestState) : (c.refreshed next dateNow).state = next ∧
    (c.refreshed next dateNow).clockOffset = toMs next.serverTime - dateNow ∧
    (c.refreshed next dateNow).firedThresholds = c.firedThresholds ∧
    told (c.refreshed next dateNow).alerts = told c.alerts ∧
    (c.refreshed next dateNow).endRefreshTriggered = c.endRefreshTriggered ∧
    (c.refreshed next dateNow).endRefreshes = c.endRefreshes := by
  rw [PortalClock.refreshed, PortalClock.checkStatusTransitions]
  split_ifs <;> exact ⟨rfl, rfl, rfl, by simp [PortalClock.alert, told], rfl, rfl⟩

end Ticks

/-! ## The two countdowns -/

section Countdown

/-- The instant of the portal's own clock. -/
def dateNow (skew t : ℤ) : ℤ := toMs (t + skew)

variable {c : PortalClock} {snap : Snapshot} {startTime endTime skew sent received now : ℤ} {ticks : List ℤ}

/-- The time that is left for the server, in seconds. -/
lemma getState_remaining (hstatus : snap.status = .running) (hstart : snap.startTime = some startTime)
    (hend : snap.endTime = some endTime) (hfits : endTime - now < 2 ^ 63) :
    (snap.getState now).remainingSeconds = seconds (max 0 (endTime - now)) := by
  change (snap.progress now).2.1 = _
  simp only [Times.progress, hstatus, hstart, hend]
  split_ifs with hover
  · rw [max_eq_left (by omega), seconds_zero]
  · exact secondsBetween_eq hfits

/-- The time that a tick shows. -/
lemma tick_remaining {t : ℤ} (hstatus : c.state.status = .running) (hend : c.state.endTime = some endTime) :
    (c.tick t).remainingSeconds = c.remainingAt endTime t := by
  simp only [PortalClock.tick, hstatus, hend]
  exact (tickRunning_spec t endTime c).2

/-- The time that the portal shows some ticks after an answer. -/
lemma answered_remaining (hrunning : (snap.getState sent).status = .running)
    (hend : snap.endTime = some endTime) :
    let c' := ((c.refreshed (snap.getState sent) (dateNow skew received)).run (ticks.map .tick)).tick
      (dateNow skew now)
    c'.state = snap.getState sent ∧
      c'.remainingSeconds =
        max 0 ((toMs endTime - toMs sent - (dateNow skew now - dateNow skew received)) / 1000) := by
  intro c'
  obtain ⟨hstate, hoffset⟩ :=
    run_ticks (c.refreshed (snap.getState sent) (dateNow skew received)) ticks
  obtain ⟨hstate', hoffset', -⟩ := refreshed_spec (dateNow skew received) c (snap.getState sent)
  rw [hstate'] at hstate
  rw [hoffset'] at hoffset
  refine ⟨(tick_state _ _).1.trans hstate, ?_⟩
  rw [tick_remaining (by rw [hstate, hrunning]) (by rw [hstate]; exact hend), PortalClock.remainingAt,
    hoffset]
  have hserver : (snap.getState sent).serverTime = sent := rfl
  rw [hserver]
  congr 2
  omega

/-- **The countdown of the portal is the server's.**  The server answers at one instant and the portal
reads the answer at a later one; whatever it knew before, and however many ticks come after, a tick shows the
time left for the server, up to a second, with the time that the answer was on its way and two milliseconds
added; it is not less than the server's once the answer took two milliseconds, and the round does not seem
over before its last second, give or take a millisecond. -/
theorem countdown_close (c : PortalClock) (ticks : List ℤ) (hstart : snap.startTime = some startTime)
    (hend : snap.endTime = some endTime) (hrunning : (snap.getState sent).status = .running)
    (hsent : sent ≤ received) (hfits : endTime - now < 2 ^ 63) :
    let c' := ((c.refreshed (snap.getState sent) (dateNow skew received)).run (ticks.map .tick)).tick
      (dateNow skew now)
    let server := (snap.getState now).remainingSeconds
    let delay := received - sent
    server ≤ c'.remainingSeconds + 1 ∧
      (2000000 ≤ delay → server ≤ c'.remainingSeconds) ∧
      c'.remainingSeconds ≤ server + 1 + (delay + 2000000) / second ∧
      (c'.isEnded → endTime - now + delay < second + 1000000) := by
  intro c' server delay
  obtain ⟨hstate, hshown⟩ := @answered_remaining c snap endTime skew sent received now ticks hrunning hend
  have hserver : server = seconds (max 0 (endTime - now)) :=
    getState_remaining (Times.running_of_progress hrunning) hstart hend hfits
  -- the server is not a microsecond before the second that it shows
  obtain ⟨hlow, hhigh⟩ :
      max 0 (endTime - now) / second ≤ server ∧ server ≤ (max 0 (endTime - now) + 1000) / second := by
    rw [hserver]
    exact seconds_near (le_max_left _ _) (max_lt (by norm_num) hfits)
  have hended : c'.isEnded → c'.remainingSeconds = 0 := by
    intro hended
    simpa [PortalClock.isEnded, show c'.state.status = .running from hstate ▸ hrunning] using hended
  -- each of the two differences is off by less than a millisecond
  have hms : ∀ x : ℤ, toMs x * 1000000 ≤ x ∧ x < toMs x * 1000000 + 1000000 := by
    intro x
    rw [toMs]
    omega
  obtain ⟨hend₁, hend₂⟩ := hms endTime
  obtain ⟨hsent₁, hsent₂⟩ := hms sent
  obtain ⟨hnow₁, hnow₂⟩ := hms (now + skew)
  obtain ⟨hreceived₁, hreceived₂⟩ := hms (received + skew)
  replace hshown : c'.remainingSeconds = _ := hshown
  rw [hshown] at hended ⊢
  simp only [dateNow] at hended ⊢
  simp only [second, delay] at *
  generalize toMs endTime = e at *
  generalize toMs sent = s at *
  generalize toMs (now + skew) = n at *
  generalize toMs (received + skew) = r at *
  refine ⟨?_, fun hdelay => ?_, ?_, fun h => ?_⟩
  · omega
  · omega
  · omega
  · have := hended h
    omega

/-- The portal is a second behind, and read the answer after two seconds: it still counts two seconds more. -/
theorem countdown_close_sample :
    let snap := parseSnapshot { Settings.migrated with
      status := some .running
      startTime := some (format 0)
      endTime := some (format (60 * second)) }
    let c := PortalClock.new (snap.getState 0) 0
    let c' := ((c.refreshed (snap.getState (10 * second)) (dateNow (-second) (12 * second))).run
      ([11500, 12500].map .tick)).tick (dateNow (-second) (20 * second))
    c'.remainingSeconds = 42 ∧ (snap.getState (20 * second)).remainingSeconds = 40 ∧
      (snap.getState (20 * second)).remainingSeconds ≤ c'.remainingSeconds + 1 := by
  intro snap c c'
  refine ⟨by decide, by decide +kernel, ?_⟩
  exact (@countdown_close snap 0 (60 * second) (-second) (10 * second) (12 * second) (20 * second) c
    [11500, 12500] (by decide) (by decide) (by decide) (by decide) (by decide)).1

end Countdown

/-! ## What is told in a run -/

section Alerts

variable {c : PortalClock} {dateNow x : ℤ} {P : PortalClock → Prop}

namespace PortalClock

/-- The round runs towards an end. -/
def Counts (c : PortalClock) : Prop := c.state.status = .running ∧ c.state.endTime ≠ none

/-- There is time left, but no more than that of a threshold. -/
def Within (x : ℤ) (c : PortalClock) : Prop := c.Counts ∧ 0 < c.remainingSeconds ∧ c.remainingSeconds ≤ x

def TimeLeft (c : PortalClock) : Prop := c.Counts ∧ 0 < c.remainingSeconds

def TimeUp (c : PortalClock) : Prop := c.Counts ∧ c.remainingSeconds = 0

end PortalClock

/-- Some tick of a run shows it. -/
def Shown (P : PortalClock → Prop) (c : PortalClock) (events : List ClockEvent) : Prop :=
  ∃ before dateNow after, events = before ++ .tick dateNow :: after ∧ P ((c.run before).tick dateNow)

@[simp] lemma not_shown_nil : ¬ Shown P c [] := by
  rintro ⟨before, dateNow, after, heq, -⟩
  simp at heq

lemma shown_snoc (events : List ClockEvent) (event : ClockEvent) : Shown P c (events ++ [event]) ↔
    Shown P c events ∨ ∃ dateNow, event = .tick dateNow ∧ P ((c.run events).tick dateNow) := by
  constructor
  · rintro ⟨before, dateNow, after, heq, hshown⟩
    rcases List.eq_nil_or_concat after with rfl | ⟨after, last, rfl⟩
    · obtain ⟨rfl, hevent⟩ := List.append_inj' heq rfl
      exact .inr ⟨dateNow, by simpa using hevent, hshown⟩
    · rw [List.concat_eq_append, ← List.cons_append, ← List.append_assoc] at heq
      exact .inl ⟨before, dateNow, after, (List.append_inj' heq rfl).1, hshown⟩
  · rintro (⟨before, dateNow, after, rfl, hshown⟩ | ⟨dateNow, rfl, hshown⟩)
    · exact ⟨before, dateNow, after ++ [event], by simp, hshown⟩
    · exact ⟨events, dateNow, [], rfl, hshown⟩

@[simp] lemma run_snoc (events : List ClockEvent) (event : ClockEvent) :
    c.run (events ++ [event]) = (c.run events).step event := by
  simp [PortalClock.run]

/-- What a tick tells: the thresholds that it is within and that were not told before. -/
lemma tick_told (dateNow : ℤ) (h : Told c) : Told (c.tick dateNow) ∧ ∀ x, x ∈ (c.tick dateNow).firedThresholds ↔
    x ∈ c.firedThresholds ∨
      x ∈ CONTEST_THRESHOLDS_SECONDS.map (·.seconds) ∧ (c.tick dateNow).Within x := by
  have hquiet : ∀ d : PortalClock, d.alerts = c.alerts → d.firedThresholds = c.firedThresholds → ¬ d.Counts →
      Told d ∧ ∀ x, x ∈ d.firedThresholds ↔
        x ∈ c.firedThresholds ∨ x ∈ CONTEST_THRESHOLDS_SECONDS.map (·.seconds) ∧ d.Within x := by
    intro d halerts hfired hcounts
    refine ⟨⟨?_, ?_⟩, fun x => ?_⟩
    · rw [halerts, hfired, h.eq]
    · rw [hfired]
      exact h.nodup
    · rw [hfired]
      exact ⟨.inl, fun hx => hx.elim id fun hx => absurd hx.2.1 hcounts⟩
  cases hstatus : c.state.status with
  | notStarted | paused | ended =>
      refine hquiet _ ?_ ?_ fun hcounts => ?_
      · simp only [PortalClock.tick, hstatus]
      · simp only [PortalClock.tick, hstatus]
      · have := hcounts.1
        rw [(tick_state dateNow c).1, hstatus] at this
        cases this
  | running =>
      cases hend : c.state.endTime with
      | none =>
          refine hquiet _ ?_ ?_ fun hcounts => hcounts.2 ?_
          · simp only [PortalClock.tick, hstatus, hend]
          · simp only [PortalClock.tick, hstatus, hend]
          · rw [(tick_state dateNow c).1, hend]
      | some endTime =>
          have hcounts : (c.tick dateNow).Counts := by
            rw [PortalClock.Counts, (tick_state dateNow c).1, hstatus, hend]
            exact ⟨rfl, nofun⟩
          have hremaining := tick_remaining (t := dateNow) hstatus hend
          have hwithin : ∀ x, (c.tick dateNow).Within x ↔
              0 < c.remainingAt endTime dateNow ∧ c.remainingAt endTime dateNow ≤ x := by
            intro x
            rw [PortalClock.Within, hremaining]
            exact and_iff_right hcounts
          simp only [hwithin]
          simp only [PortalClock.tick, hstatus, hend]
          obtain ⟨-, -, hfired, halerts⟩ := count_spec dateNow endTime c
          have htold : Told (c.count endTime dateNow) := by
            refine ⟨?_, ?_⟩
            · rw [halerts, hfired, h.eq]
            · rw [hfired]
              exact h.nodup
          rw [PortalClock.tickRunning]
          split_ifs with hpos
          · obtain ⟨htold', hmem⟩ := htold.fire (c.remainingAt endTime dateNow) CONTEST_THRESHOLDS_SECONDS
            refine ⟨htold', fun x => ?_⟩
            rw [hmem, hfired, List.mem_map]
            refine or_congr_right ⟨?_, ?_⟩
            · rintro ⟨t, ht, hle, rfl⟩
              exact ⟨⟨t, ht, rfl⟩, hpos, hle⟩
            · rintro ⟨⟨t, ht, rfl⟩, -, hle⟩
              exact ⟨t, ht, hle, rfl⟩
          · refine ⟨htold, fun x => ?_⟩
            rw [hfired]
            exact ⟨.inl, fun hx => hx.elim id fun hx => absurd hx.2.1 hpos⟩

/-- In every run the thresholds told are those that some tick was within. -/
lemma run_told (h : Told c) (events : List ClockEvent) : Told (c.run events) ∧
    ∀ x, x ∈ (c.run events).firedThresholds ↔
      x ∈ c.firedThresholds ∨
        x ∈ CONTEST_THRESHOLDS_SECONDS.map (·.seconds) ∧ Shown (PortalClock.Within x) c events := by
  induction events using List.reverseRecOn with
  | nil => exact ⟨h, fun x => by simp [PortalClock.run]⟩
  | append_singleton events event ih =>
      obtain ⟨htold, hmem⟩ := ih
      cases event with
      | answer next dateNow =>
          obtain ⟨-, -, hfired, halerts, -, -⟩ := refreshed_spec dateNow (c.run events) next
          rw [run_snoc, PortalClock.step]
          refine ⟨⟨?_, ?_⟩, fun x => ?_⟩
          · rw [halerts, hfired, htold.eq]
          · rw [hfired]
            exact htold.nodup
          · rw [hfired, hmem, shown_snoc]
            simp
      | tick dateNow =>
          obtain ⟨htold', hmem'⟩ := tick_told dateNow htold
          rw [run_snoc, PortalClock.step]
          refine ⟨htold', fun x => ?_⟩
          rw [hmem', hmem, shown_snoc, or_assoc, ← and_or_left]
          simp

/-- A tick asks for a refresh when the time is up, unless one was asked for since there was time. -/
lemma tick_endRefresh (hleft : ¬ (c.tick dateNow).TimeLeft) :
    ((c.tick dateNow).endRefreshes = c.endRefreshes ∧
      (c.tick dateNow).endRefreshTriggered = c.endRefreshTriggered) ∨
    (c.endRefreshTriggered = false ∧ (c.tick dateNow).endRefreshes = c.endRefreshes + 1 ∧
      (c.tick dateNow).endRefreshTriggered = true ∧ (c.tick dateNow).TimeUp) := by
  cases hstatus : c.state.status with
  | notStarted | paused | ended =>
      left
      simp only [PortalClock.tick, hstatus]
      exact ⟨trivial, trivial⟩
  | running =>
      cases hend : c.state.endTime with
      | none =>
          left
          simp only [PortalClock.tick, hstatus, hend]
          exact ⟨trivial, trivial⟩
      | some endTime =>
          have hcounts : (c.tick dateNow).Counts := by
            rw [PortalClock.Counts, (tick_state dateNow c).1, hstatus, hend]
            exact ⟨rfl, nofun⟩
          obtain ⟨hsame, hremaining⟩ := tickRunning_spec dateNow endTime c
          rw [PortalClock.TimeLeft, and_iff_right hcounts] at hleft
          rw [PortalClock.TimeUp, and_iff_right hcounts]
          have htick : c.tick dateNow = c.tickRunning endTime dateNow := by
            simp only [PortalClock.tick, hstatus, hend]
          rw [htick] at hleft ⊢
          rw [hsame.endRefreshes, hsame.endRefreshTriggered, hremaining, PortalClock.endRefresh]
          rw [hremaining] at hleft
          have hzero : c.remainingAt endTime dateNow = 0 :=
            le_antisymm (not_lt.mp hleft) (le_max_left _ _)
          split_ifs with hasks
          · exact .inr ⟨hasks.2, rfl, rfl, hzero⟩
          · exact .inl ⟨rfl, rfl⟩

/-- While no tick shows time left, a refresh is asked for at most once. -/
lemma run_endRefresh (events : List ClockEvent) (hleft : ¬ Shown PortalClock.TimeLeft c events) :
    (c.run events).endRefreshes ≤ c.endRefreshes + 1 ∧
      ((c.run events).endRefreshTriggered = false → (c.run events).endRefreshes = c.endRefreshes) := by
  induction events using List.reverseRecOn with
  | nil => exact ⟨Nat.le_succ _, fun _ => rfl⟩
  | append_singleton events event ih =>
      rw [shown_snoc, not_or] at hleft
      obtain ⟨hle, hquiet⟩ := ih hleft.1
      cases event with
      | answer next dateNow =>
          obtain ⟨-, -, -, -, htriggered, hcount⟩ := refreshed_spec dateNow (c.run events) next
          rw [run_snoc, PortalClock.step, htriggered, hcount]
          exact ⟨hle, hquiet⟩
      | tick dateNow =>
          have hleft' : ¬ ((c.run events).tick dateNow).TimeLeft := fun h => hleft.2 ⟨dateNow, rfl, h⟩
          rw [run_snoc, PortalClock.step]
          rcases tick_endRefresh hleft' with ⟨hcount, htriggered⟩ | ⟨hasks, hcount, htriggered, -⟩
          · rw [hcount, htriggered]
            exact ⟨hle, hquiet⟩
          · rw [hcount, htriggered]
            exact ⟨Nat.succ_le_succ (hquiet hasks).le, nofun⟩

/-- **Nothing is told twice.**  In every run of ticks and answers, the alerts for the thresholds are those
that some tick was within, each set once, whatever the answers changed in between; and in a stretch of the
run with no tick that shows time left, at most one refresh is asked for. -/
theorem alerts_once (initialState : ContestState) (dateNow : ℤ) (events : List ClockEvent) :
    let c := PortalClock.new initialState dateNow
    (told (c.run events).alerts).Nodup ∧
      (∀ x, x ∈ told (c.run events).alerts ↔
        x ∈ CONTEST_THRESHOLDS_SECONDS.map (·.seconds) ∧ Shown (PortalClock.Within x) c events) ∧
      ∀ before stretch, events = before ++ stretch →
        ¬ Shown PortalClock.TimeLeft (c.run before) stretch →
        (c.run events).endRefreshes ≤ (c.run before).endRefreshes + 1 := by
  intro c
  have hnew : Told c := ⟨rfl, List.nodup_nil⟩
  obtain ⟨htold, hmem⟩ := run_told hnew events
  refine ⟨?_, fun x => ?_, ?_⟩
  · rw [htold.eq]
    exact htold.nodup
  · rw [htold.eq, hmem]
    have hnone : x ∉ c.firedThresholds := List.not_mem_nil
    exact or_iff_right hnone
  · rintro before stretch rfl hleft
    have hrun : c.run (before ++ stretch) = (c.run before).run stretch := List.foldl_append
    rw [hrun]
    exact (run_endRefresh stretch hleft).1

end Alerts

end Portal

end Labyrithm
