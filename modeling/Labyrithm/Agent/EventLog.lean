import Mathlib.Data.List.Sort
import Labyrithm.Go.Json
import Labyrithm.Go.Time

/-!
# The log of events

`backend/internal/agent/eventlog.go`: what an organizer reads of the rows that `Timeline` returns.  The
entries come newest first, and the walk over them goes from the oldest to the newest, with the signals it
last met.  The payload of an entry is decoded whatever its event is: the agent's reports carry their
signals, an event of the browser any object (`recordBrowserEvent` of `api/telemetry.go`).

`line older e` is one round of the walk, with the changes that the entry is given; `FromReports` is that
these come from the agent's reports alone.

* `diffSignals_eq_nil_iff` — between which two sets of signals there is nothing to tell.
* `decode_foreign` — an object without the name of a signal is a report of no signals at all.

**`fromReports_iff`** — what the log says comes from the agent's reports alone if and only if the other
payloads that decode show no change themselves and stand for the report before them.
-/

namespace Labyrithm

namespace Agent

namespace EventLog

/-! ## Signals -/

structure PortMatch where
  port : ℤ
  ruleID : String
  product : String
  confirmed : Bool
  deriving DecidableEq, Repr

/-- `Signals`. -/
structure Signals where
  foregroundDwell : Go.Map String ℤ
  foregroundApp : String
  ports : Go.Slice PortMatch
  internetReachable : Bool
  processMatches : Go.Slice String
  extensionMatches : Go.Slice String
  totalProcesses : ℤ
  lanIP : String

def Signals.zero : Signals where
  foregroundDwell := ∅
  foregroundApp := ""
  ports := ⟨[], []⟩
  internetReachable := false
  processMatches := ⟨[], []⟩
  extensionMatches := ⟨[], []⟩
  totalProcesses := 0
  lanIP := ""

/-- The fields of `PortMatch`, by their names in a document. -/
def portFields : List (String × Go.Decoder PortMatch) :=
  [("port", fun p j => (Go.decodeInt p.port j).map fun n => { p with port := n }),
    ("rule_id", fun p j => (Go.decodeString p.ruleID j).map fun s => { p with ruleID := s }),
    ("product", fun p j => (Go.decodeString p.product j).map fun s => { p with product := s }),
    ("confirmed", fun p j => (Go.decodeBool p.confirmed j).map fun b => { p with confirmed := b })]

def decodePort : Go.Decoder PortMatch := Go.decodeStruct portFields

/-- The fields of `Signals`. -/
def signalFields : List (String × Go.Decoder Signals) :=
  [("foreground_dwell", fun s j =>
      (Go.decodeMap 0 Go.decodeInt s.foregroundDwell j).map fun m => { s with foregroundDwell := m }),
    ("foreground_app", fun s j =>
      (Go.decodeString s.foregroundApp j).map fun a => { s with foregroundApp := a }),
    ("ports", fun s j =>
      (Go.decodeSlice ⟨0, "", "", false⟩ decodePort s.ports j).map fun l => { s with ports := l }),
    ("internet_reachable", fun s j =>
      (Go.decodeBool s.internetReachable j).map fun b => { s with internetReachable := b }),
    ("process_matches", fun s j =>
      (Go.decodeSlice "" Go.decodeString s.processMatches j).map fun l =>
        { s with processMatches := l }),
    ("extension_matches", fun s j =>
      (Go.decodeSlice "" Go.decodeString s.extensionMatches j).map fun l =>
        { s with extensionMatches := l }),
    ("total_processes", fun s j =>
      (Go.decodeInt s.totalProcesses j).map fun n => { s with totalProcesses := n }),
    ("lan_ip", fun s j => (Go.decodeString s.lanIP j).map fun a => { s with lanIP := a })]

def decodeSignals : Go.Decoder Signals := Go.decodeStruct signalFields

/-! ## Texts -/

/-- What comes after the last of some characters, unless they end the text. -/
def afterLast (p : Char → Bool) (s : List Char) : List Char :=
  let tail := (s.reverse.takeWhile fun ch => !p ch).reverse
  if tail = [] then s else tail

def appName (id : String) : String :=
  let id := afterLast (fun ch => ch = '/' || ch = '\\') id.toList
  let lower := Go.toLower id
  let id :=
    if ".exe".toList <:+ lower ∨ ".app".toList <:+ lower then id.take (id.length - 4) else id
  String.ofList (afterLast (fun ch => ch = '.') id)

def humanSeconds (seconds : ℤ) : String :=
  if seconds < 60 then
    let seconds := if seconds < 1 then 1 else seconds
    toString seconds ++ "s"
  else if seconds < 3600 then
    toString (seconds.tdiv 60) ++ "m " ++ toString (seconds.tmod 60) ++ "s"
  else toString (seconds.tdiv 3600) ++ "h " ++ toString ((seconds.tmod 3600).tdiv 60) ++ "m"

def humanMillis (ms : ℤ) : String := humanSeconds ((Go.duration ms 1000000).tdiv Go.second)

/-- `capitalize`, which takes the first byte alone: what is left of a character of several bytes is shown
as one U+FFFD for each of them, as `encoding/json` writes it. -/
def capitalize (s : String) : String :=
  match s.toList with
  | [] => s
  | ch :: rest =>
      if ch.utf8Size = 1 then String.ofList (ch.toUpper :: rest)
      else String.ofList (List.replicate ch.utf8Size '\ufffd' ++ rest)

/-- `sort.Strings`. -/
def sorted (l : List String) : List String := l.insertionSort (· ≤ ·)

/-- What is in `next` but not in `base`. -/
def added (base next : List String) : List String := sorted (next.filter fun n => n ∉ base)

def addedKeys (base next : Go.Map String String) : List String := added base.keys next.keys

def portLabels (ports : List PortMatch) : Go.Map String String :=
  ports.foldl (fun labels p =>
    if p.confirmed then
      let product := if p.product = "" then p.ruleID else p.product
      labels.insert (p.ruleID ++ ":" ++ toString p.port) (product ++ " on :" ++ toString p.port)
    else labels) ∅

/-- The text of a port that a report has. -/
def label (labels : Go.Map String String) (p : String) : String := (labels.get? p).getD ""

/-! ## Differences -/

/-- The differences, one list for each kind. -/
def differences (prev cur : Signals) : List (List String) :=
  let prevPorts := portLabels prev.ports.elems
  let curPorts := portLabels cur.ports.elems
  [if cur.foregroundApp ≠ "" ∧ cur.foregroundApp ≠ prev.foregroundApp then
      ["switched to " ++ appName cur.foregroundApp] else [],
    ((added prev.foregroundDwell.keys cur.foregroundDwell.keys).filter
      fun app => app ≠ cur.foregroundApp).map fun app => "opened " ++ appName app ++ " ("
        ++ humanMillis ((cur.foregroundDwell.get? app).getD 0) ++ ")",
    if cur.internetReachable = prev.internetReachable then []
      else if cur.internetReachable then ["Network reconnected (internet restored)"]
      else ["Network disconnected (internet lost)"],
    (addedKeys prevPorts curPorts).map fun p => label curPorts p ++ " started answering",
    (addedKeys curPorts prevPorts).map fun p => label prevPorts p ++ " stopped answering",
    (added prev.processMatches.elems cur.processMatches.elems).map fun proc =>
      "process " ++ proc ++ " appeared",
    (added cur.processMatches.elems prev.processMatches.elems).map fun proc =>
      "process " ++ proc ++ " exited",
    (added prev.extensionMatches.elems cur.extensionMatches.elems).map fun ext =>
      "AI extension " ++ ext ++ " detected",
    (added cur.extensionMatches.elems prev.extensionMatches.elems).map fun ext =>
      "AI extension " ++ ext ++ " removed"]

def diffSignals : Option Signals → Signals → List String
  | none, _ => []
  | some prev, cur => (differences prev cur).flatten

def stateSummary (s : Signals) : String :=
  " · ".intercalate <|
    (if s.foregroundApp ≠ "" then [appName s.foregroundApp] else [])
    ++ (if s.internetReachable then ["internet reachable"] else [])
    ++ ((s.ports.elems.filter PortMatch.confirmed).map fun p =>
      p.product ++ " :" ++ toString p.port)
    ++ (if s.processMatches.elems ≠ [] then [", ".intercalate s.processMatches.elems] else [])
    ++ (if s.extensionMatches.elems ≠ [] then ["ext: " ++ ", ".intercalate s.extensionMatches.elems]
      else [])

/-! ## Entries -/

inductive Kind
  | event
  | gap
  | finding
  | submission
  | enrollment
  deriving DecidableEq, Repr

/-- `Entry`.  The end of a gap is in seconds, those of its time zone added. -/
structure Entry where
  kind : Kind
  label : String
  detail : String
  endedAt : Option ℤ
  count : ℤ
  payload : Go.RawMessage

/-- Two digits. -/
def twoDigits (n : ℤ) : String := if n < 10 then "0" ++ toString n else toString n

/-- The layout `15:04:05`. -/
def clock (t : ℤ) : String :=
  twoDigits (t % 86400 / 3600) ++ ":" ++ twoDigits (t % 3600 / 60) ++ ":" ++ twoDigits (t % 60)

def describeGap (e : Entry) : Entry where
  kind := e.kind
  label :=
    if e.label ≠ "" ∧ e.label ≠ "agent_unreachable" then
      "Blackout Disconnect Gap (" ++ e.label ++ ")"
    else "Blackout Disconnect Gap"
  detail :=
    match e.endedAt with
    | none => "Proctor client went dark — currently offline / disconnected"
    | some endedAt => "Offline for " ++ humanSeconds e.count ++ " · Reconnected at " ++ clock endedAt
  endedAt := e.endedAt
  count := e.count
  payload := e.payload

def eventBoot : String := "boot"
def eventSignalChange : String := "signal_change"
def eventKeepalive : String := "keepalive"
def eventBuffered : String := "buffered"
def eventStopped : String := "agent_stopped"

/-- The label of an event. -/
def eventLabel (eventType : String) : String :=
  if eventType = eventBoot then "Proctor client connected"
  else if eventType = eventBuffered then "Backfilled while offline"
  else if eventType = eventKeepalive then "Still reporting"
  else if eventType = eventSignalChange then "Activity"
  else if eventType = "web.fullscreen_exit" then "Exited Fullscreen Mode"
  else if eventType = "web.window_blur" then "Window Focus Lost (App Switch)"
  else if eventType = "web.tab_switch" then "Tab Switched to Background"
  else if eventType = "web.devtools_attempt" then "DevTools Shortcut Attempted"
  else if eventType = "web.lockout_exceeded" then "Contest Lockdown Exceeded"
  else eventType

def stoppedEntry (e : Entry) : Entry where
  kind := e.kind
  label := "Proctor client stopped"
  detail := if e.detail = "" then "contestant stopped proctoring" else e.detail
  endedAt := e.endedAt
  count := e.count
  payload := e.payload

/-- An event with the signals it carries and the changes it is given. -/
def changedEntry (e : Entry) (cur : Signals) (changes : List String) : Entry :=
  match changes with
  | [] => { e with label := eventLabel e.label, detail := stateSummary cur }
  | change :: rest =>
      if e.label = eventSignalChange then
        { e with label := capitalize change, detail := " · ".intercalate rest }
      else { e with label := eventLabel e.label, detail := " · ".intercalate changes }

/-- What a round of the walk leaves. -/
structure Line where
  entry : Entry
  /-- the changes that the entry is given -/
  changes : List String
  prev : Option Signals

/-- `json.Unmarshal` of the payload. -/
def Entry.signals (e : Entry) : Option Signals := Go.unmarshal decodeSignals .zero e.payload

/-- A round of the walk. -/
def describe (prev : Option Signals) (e : Entry) : Line :=
  match e.kind with
  | .gap => ⟨describeGap e, [], prev⟩
  | .event =>
      if e.label = eventStopped then ⟨stoppedEntry e, [], prev⟩
      else
        match e.signals with
        | none => ⟨{ e with label := eventLabel e.label }, [], prev⟩
        | some cur =>
            let changes := diffSignals prev cur
            ⟨changedEntry e cur changes, changes, some cur⟩
  | _ => ⟨e, [], prev⟩

/-- The walk: the entries as they are rewritten, and the signals that it last met. -/
def walk : List Entry → List Entry × Option Signals
  | [] => ([], none)
  | e :: older =>
      let (done, prev) := walk older
      let round := describe prev e
      (round.entry :: done, round.prev)

def describeEvents (entries : List Entry) : List Entry := (walk entries).1

/-- The round for an entry with these older ones. -/
def line (older : List Entry) (e : Entry) : Line := describe (walk older).2 e

example (older : List Entry) (e : Entry) :
    describeEvents (e :: older) = (line older e).entry :: describeEvents older := rfl

/-! ## What the log comes from -/

/-- The labels of the agent's reports. -/
def reportTypes : List String := [eventBoot, eventSignalChange, eventKeepalive, eventBuffered]

/-- The report that an entry of the agent carries. -/
def Entry.report (e : Entry) : Option Signals :=
  if e.kind = .event ∧ e.label ∈ reportTypes then e.signals else none

/-- What the walk takes for one: the payload of any event but a stop. -/
def Entry.scanned (e : Entry) : Option Signals :=
  if e.kind = .event ∧ e.label ≠ eventStopped then e.signals else none

/-- The changes of the agent's reports are told against the closest older one, the other entries have
none, and no entry without a report alters what another one says. -/
structure FromReports (entries : List Entry) : Prop where
  reports : ∀ newer e older cur, entries = newer ++ e :: older → e.report = some cur →
    (line older e).changes = diffSignals (older.findSome? Entry.report) cur
  others : ∀ newer e older, entries = newer ++ e :: older → e.report = none →
    (line older e).changes = []
  /-- a report says what it would say with the older reports alone -/
  unaltered : ∀ newer e older, entries = newer ++ e :: older → e.report.isSome →
    (line older e).entry = (line (older.filter fun x => x.report.isSome) e).entry
  /-- and any other entry what it would say alone -/
  alone : ∀ newer e older, entries = newer ++ e :: older → e.report = none →
    (line older e).entry = (line [] e).entry

/-- Nothing that `diffSignals` has a text for. -/
structure Same (prev cur : Signals) : Prop where
  foregroundApp : cur.foregroundApp = "" ∨ cur.foregroundApp = prev.foregroundApp
  foregroundDwell : ∀ app ∈ cur.foregroundDwell.keys,
    app ∈ prev.foregroundDwell.keys ∨ app = cur.foregroundApp
  internet : cur.internetReachable = prev.internetReachable
  ports : ∀ p, p ∈ (portLabels prev.ports.elems).keys ↔ p ∈ (portLabels cur.ports.elems).keys
  processes : ∀ p, p ∈ prev.processMatches.elems ↔ p ∈ cur.processMatches.elems
  extensions : ∀ x, x ∈ prev.extensionMatches.elems ↔ x ∈ cur.extensionMatches.elems

/-- For a report of `cur`, `prev` is as good as the last report.  Where there was one, both must be told
apart from `cur` in the same words, which different signals may have: of two applications the last part of the
name is shown. -/
def StandsFor (prev cur : Signals) : Option Signals → Prop
  | none => Same prev cur
  | some reported => diffSignals (some prev) cur = diffSignals (some reported) cur

/-- What the payloads of the other entries must not do. -/
structure Harmless (entries : List Entry) : Prop where
  /-- one that decodes has the signals of the payload that decodes before it -/
  quiet : ∀ newer e older prev cur, entries = newer ++ e :: older →
    e.report = none → e.scanned = some cur → older.findSome? Entry.scanned = some prev → Same prev cur
  /-- and for the next report it stands for the last one -/
  stands : ∀ newer e between other older prev cur,
    entries = newer ++ e :: (between ++ other :: older) → (∀ x ∈ between, x.scanned = none) →
    other.report = none → other.scanned = some prev → e.report = some cur →
    StandsFor prev cur (older.findSome? Entry.report)

/-! ## Nothing to tell -/

variable {prev cur : Signals} {base next : List String} {e : Entry} {older : List Entry}

lemma added_eq_nil_iff : added base next = [] ↔ ∀ n ∈ next, n ∈ base := by
  rw [added, sorted, ← List.length_eq_zero_iff, List.length_insertionSort, List.length_eq_zero_iff,
    List.filter_eq_nil_iff]
  simp

lemma mem_added {x : String} : x ∈ added base next ↔ x ∈ next ∧ x ∉ base := by
  rw [added, sorted, List.mem_insertionSort, List.mem_filter]
  simp

/-- Nothing was added in either direction. -/
lemma added_nil_iff_mem :
    added base next = [] ∧ added next base = [] ↔ ∀ x, x ∈ base ↔ x ∈ next := by
  rw [added_eq_nil_iff, added_eq_nil_iff]
  exact ⟨fun ⟨h, h'⟩ x => ⟨h' x, h x⟩, fun h => ⟨fun x => (h x).mpr, fun x => (h x).mp⟩⟩

lemma opened_eq_nil_iff {app : String} :
    (added base next).filter (fun x => x ≠ app) = [] ↔ ∀ x ∈ next, x ∈ base ∨ x = app := by
  rw [List.filter_eq_nil_iff]
  constructor
  · intro h x hx
    by_contra hnone
    obtain ⟨hbase, happ⟩ := not_or.mp hnone
    exact h x (mem_added.mpr ⟨hx, hbase⟩) (by simpa using happ)
  · intro h x hx
    obtain ⟨hnext, hbase⟩ := mem_added.mp hx
    simpa using (h x hnext).resolve_left hbase

theorem diffSignals_eq_nil_iff : diffSignals (some prev) cur = [] ↔ Same prev cur := by
  have happ : (if cur.foregroundApp ≠ "" ∧ cur.foregroundApp ≠ prev.foregroundApp then
      ["switched to " ++ appName cur.foregroundApp] else []) = []
      ↔ cur.foregroundApp = "" ∨ cur.foregroundApp = prev.foregroundApp := by
    rw [ite_eq_right_iff]
    simp [or_iff_not_imp_left]
  have hnet : (if cur.internetReachable = prev.internetReachable then []
      else if cur.internetReachable then ["Network reconnected (internet restored)"]
      else ["Network disconnected (internet lost)"]) = []
      ↔ cur.internetReachable = prev.internetReachable := by
    split_ifs <;> simp_all
  simp only [diffSignals, differences, List.flatten_eq_nil_iff, List.forall_mem_cons,
    List.map_eq_nil_iff, happ, hnet, opened_eq_nil_iff, addedKeys]
  constructor
  · rintro ⟨h₁, h₂, h₃, h₄, h₅, h₆, h₇, h₈, h₉, -⟩
    exact ⟨h₁, h₂, h₃, added_nil_iff_mem.mp ⟨h₄, h₅⟩, added_nil_iff_mem.mp ⟨h₆, h₇⟩,
      added_nil_iff_mem.mp ⟨h₈, h₉⟩⟩
  · intro h
    obtain ⟨h₄, h₅⟩ := added_nil_iff_mem.mpr h.ports
    obtain ⟨h₆, h₇⟩ := added_nil_iff_mem.mpr h.processes
    obtain ⟨h₈, h₉⟩ := added_nil_iff_mem.mpr h.extensions
    exact ⟨h.foregroundApp, h.foregroundDwell, h.internet, h₄, h₅, h₆, h₇, h₈, h₉, by simp⟩

lemma standsFor_iff {last : Option Signals} :
    StandsFor prev cur last ↔ diffSignals (some prev) cur = diffSignals last cur := by
  cases last with
  | none => exact diffSignals_eq_nil_iff.symm
  | some reported => rfl

/-! ## The walk -/

lemma Entry.scanned_of_report {cur : Signals} (h : e.report = some cur) : e.scanned = some cur := by
  unfold Entry.report at h
  split_ifs at h with hreport
  have hlabel : e.label ≠ eventStopped := by
    intro hstopped
    exact absurd (hstopped ▸ hreport.2) (by decide)
  rw [Entry.scanned, if_pos ⟨hreport.1, hlabel⟩, h]

lemma Entry.report_of_scanned (h : e.scanned = none) : e.report = none := by
  cases hreport : e.report with
  | none => rfl
  | some cur => rw [Entry.scanned_of_report hreport] at h; cases h

/-- What a round does, by what it takes for a report. -/
lemma describe_scanned (prev : Option Signals) (e : Entry) :
    (describe prev e).changes = (e.scanned.map (diffSignals prev)).getD []
      ∧ (describe prev e).prev = e.scanned.or prev := by
  unfold describe Entry.scanned
  cases hkind : e.kind with
  | event =>
      by_cases hstopped : e.label = eventStopped
      · simp [hstopped]
      · cases e.signals <;> simp [hstopped]
  | gap => simp
  | finding => simp
  | submission => simp
  | enrollment => simp

/-- An entry says no more than the changes it is given. -/
lemma describe_entry {prev prev' : Option Signals}
    (h : (describe prev e).changes = (describe prev' e).changes) :
    (describe prev e).entry = (describe prev' e).entry := by
  unfold describe at h ⊢
  cases hkind : e.kind with
  | event =>
      rw [hkind] at h
      by_cases hstopped : e.label = eventStopped
      · simp [hstopped]
      · cases hsignals : e.signals with
        | none => simp [hstopped]
        | some cur =>
            simp only [hstopped, if_false, hsignals] at h ⊢
            rw [h]
  | gap => rfl
  | finding => rfl
  | submission => rfl
  | enrollment => rfl

/-- The walk holds the closest older payload that it took for a report. -/
lemma walk_prev (older : List Entry) : (walk older).2 = older.findSome? Entry.scanned := by
  induction older with
  | nil => rfl
  | cons e older ih =>
      have hprev : (walk (e :: older)).2 = e.scanned.or (walk older).2 :=
        (describe_scanned (walk older).2 e).2
      rw [hprev, ih, List.findSome?_cons]
      cases e.scanned <;> rfl

lemma line_changes (older : List Entry) (e : Entry) :
    (line older e).changes
      = (e.scanned.map (diffSignals (older.findSome? Entry.scanned))).getD [] := by
  rw [line, (describe_scanned _ e).1, walk_prev]

/-- Among the agent's reports the walk holds the closest older one. -/
lemma findSome?_scanned_reports (older : List Entry) :
    (older.filter fun x => x.report.isSome).findSome? Entry.scanned = older.findSome? Entry.report := by
  induction older with
  | nil => rfl
  | cons e older ih =>
      cases hreport : e.report with
      | none => simp [hreport, ih]
      | some cur => simp [hreport, Entry.scanned_of_report hreport]

/-- Entries of which the walk takes none for a report have none. -/
lemma findSome?_report_append {between : List Entry} (h : ∀ x ∈ between, x.scanned = none) :
    (between ++ older).findSome? Entry.report = older.findSome? Entry.report := by
  have hnone : between.findSome? Entry.report = none :=
    List.findSome?_eq_none_iff.mpr fun x hx => Entry.report_of_scanned (h x hx)
  rw [List.findSome?_append, hnone, Option.none_or]

/-! ## The log -/

variable {entries : List Entry}

lemma FromReports.harmless (h : FromReports entries) : Harmless entries where
  quiet newer e older prev cur hentries hreport hscanned hprev := by
    have hnil := h.others newer e older hentries hreport
    rw [line_changes, hscanned, hprev] at hnil
    exact diffSignals_eq_nil_iff.mp hnil
  stands newer e between other older prev cur hentries hbetween hother hscanned hreport := by
    have hchanges := h.reports newer e _ cur hentries hreport
    have hprev : (between ++ other :: older).findSome? Entry.scanned = some prev := by
      rw [List.findSome?_append, List.findSome?_eq_none_iff.mpr hbetween, List.findSome?_cons, hscanned]
      rfl
    rw [line_changes, Entry.scanned_of_report hreport, hprev, findSome?_report_append hbetween,
      List.findSome?_cons, hother] at hchanges
    exact standsFor_iff.mpr hchanges

/-- What a report is compared with makes no difference. -/
lemma Harmless.report (h : Harmless entries) {newer : List Entry}
    (hentries : entries = newer ++ e :: older) (hreport : e.report = some cur) :
    diffSignals (older.findSome? Entry.scanned) cur = diffSignals (older.findSome? Entry.report) cur := by
  cases hprev : older.findSome? Entry.scanned with
  | none =>
      have hnone : older.findSome? Entry.report = none :=
        List.findSome?_eq_none_iff.mpr fun x hx =>
          Entry.report_of_scanned (List.findSome?_eq_none_iff.mp hprev x hx)
      rw [hnone]
  | some prev =>
      obtain ⟨between, other, oldest, hsplit, hother, hbetween⟩ := List.findSome?_eq_some_iff.mp hprev
      subst hsplit
      cases hreported : other.report with
      | none =>
          rw [findSome?_report_append hbetween, List.findSome?_cons, hreported]
          exact standsFor_iff.mp
            (h.stands newer e between other oldest prev cur hentries hbetween hreported hother hreport)
      | some prev' =>
          rw [findSome?_report_append hbetween, List.findSome?_cons, hreported,
            ← hother, Entry.scanned_of_report hreported]

/-- Any other payload shows no change. -/
lemma Harmless.changes_eq_nil (h : Harmless entries) {newer : List Entry}
    (hentries : entries = newer ++ e :: older) (hreport : e.report = none) :
    (line older e).changes = [] := by
  rw [line_changes]
  cases hscanned : e.scanned with
  | none => rfl
  | some cur =>
      cases hprev : older.findSome? Entry.scanned with
      | none => rfl
      | some prev =>
          exact diffSignals_eq_nil_iff.mpr
            (h.quiet newer e older prev cur hentries hreport hscanned hprev)

lemma Harmless.fromReports (h : Harmless entries) : FromReports entries where
  reports newer e older cur hentries hreport := by
    rw [line_changes, Entry.scanned_of_report hreport]
    exact h.report hentries hreport
  others newer e older hentries hreport := h.changes_eq_nil hentries hreport
  unaltered newer e older hentries hreport := by
    obtain ⟨cur, hcur⟩ := Option.isSome_iff_exists.mp hreport
    have hchanges : (line older e).changes
        = (line (older.filter fun x => x.report.isSome) e).changes := by
      rw [line_changes, line_changes, findSome?_scanned_reports, Entry.scanned_of_report hcur]
      exact h.report hentries hcur
    exact describe_entry hchanges
  alone newer e older hentries hreport := by
    have halone : (line [] e).changes = [] := by
      rw [line_changes]
      cases e.scanned <;> rfl
    exact describe_entry ((h.changes_eq_nil hentries hreport).trans halone.symm)

/-- **The log comes from the agent's reports alone** exactly where the other payloads that decode show no
change and stand for the report before them. -/
theorem fromReports_iff (entries : List Entry) : FromReports entries ↔ Harmless entries :=
  ⟨FromReports.harmless, Harmless.fromReports⟩

/-- In particular where no other payload decodes. -/
lemma fromReports_of_none (h : ∀ e ∈ entries, e.report = none → e.scanned = none) :
    FromReports entries := by
  refine Harmless.fromReports ⟨?_, ?_⟩
  · intro newer e older prev cur hentries hreport hscanned
    rw [h e (by simp [hentries]) hreport] at hscanned
    cases hscanned
  · intro newer e between other older prev cur hentries hbetween hother hscanned
    rw [h other (by simp [hentries]) hother] at hscanned
    cases hscanned

/-- But an object without the name of a signal decodes, to a report of none. -/
lemma decode_foreign {l : List (String × Go.Json)}
    (h : ∀ e ∈ l, ∀ f ∈ signalFields, Go.equalFold f.1.toList e.1.toList = false) :
    Go.unmarshal decodeSignals .zero (.document (.object l)) = some .zero :=
  Go.decodeStruct_unknown h .zero

/-! ## An event of the browser -/

/-- A report of a machine with an assistant and the internet. -/
def reportSample (label : String) : Entry where
  kind := .event
  label := label
  detail := ""
  endedAt := none
  count := 0
  payload := .document (.object
    [("ports", .array []), ("lan_ip", .string "10.0.0.7"), ("foreground_app", .string "code"),
      ("process_matches", .array [.string "ollama"]), ("total_processes", .number "212"),
      ("foreground_dwell", .object [("code", .number "15000")]), ("internet_reachable", .bool true)])

def blurSample : Entry where
  kind := .event
  label := "web.window_blur"
  detail := ""
  endedAt := none
  count := 0
  payload := .document (.object [("detail", .string "focus lost")])

/-- Between two equal reports the window loses its focus: the log says that the process exited and the
internet was lost, and then that both came back. -/
theorem fromReports_blur :
    (describeEvents [reportSample "keepalive", blurSample, reportSample "signal_change"]).map
        (fun e => (e.label, e.detail))
      = [("Still reporting", "switched to code · Network reconnected (internet restored) · "
            ++ "process ollama appeared"),
          ("Window Focus Lost (App Switch)",
            "Network disconnected (internet lost) · process ollama exited"),
          ("Activity", "code · internet reachable · ollama")]
      ∧ ¬ FromReports [reportSample "keepalive", blurSample, reportSample "signal_change"] := by
  refine ⟨by decide +kernel, fun h => ?_⟩
  have hnil := h.others [reportSample "keepalive"] blurSample [reportSample "signal_change"] rfl
    (if_neg (by decide))
  exact absurd hnil (by decide +kernel)

end EventLog

end Agent

end Labyrithm
