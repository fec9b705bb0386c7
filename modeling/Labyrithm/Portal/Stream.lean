import Labyrithm.Js.Strings
import Labyrithm.Portal.Progress
import Labyrithm.Text.Chunks

/-!
# The stream of results

`streamSubmissions` of `backend/internal/api/submissions.go` writes server-sent events; `streamLoop` of
`competitor-frontend/src/components/portal/submissions-provider.tsx` reads them from whatever pieces
arrive, and connects again when a connection ends.  The text of the toasts and `streamHealthy` are left
out.

* `readChunk`, `handleChunk`, `Stream.read` — the client: a chunk, and a piece of the text.
* `waits` — how long the client waits before each of its further attempts.
* `Wire` — what the server relies on: the writer of events, and JSON.
* `read_pieces` — how the text was cut does not matter, whatever the text is.

**`stream_events`** — after any connections, each of which may have ended anywhere in what the server
wrote, the client has handled the events that had arrived whole, in their order, and nothing else.
-/

namespace Labyrithm

namespace Portal

open Js

/-! ## The client -/

/-- What is used of the JSON in an event. -/
structure StreamMessage where
  data : StatusResponse
  reviewStatus : Option ReviewStatus := none
  reviewReason : Option String := none

structure ReviewNotice where
  submissionId : Uuid
  reviewStatus : ReviewStatus
  reviewReason : Option String
  deriving DecidableEq, Repr

/-- The fields of a chunk. -/
structure SseEvent where
  eventType : List Char
  dataStr : List Char
  deriving DecidableEq, Repr

/-- The provider: what it holds of the submissions, and the last review it has shown. -/
structure Provider where
  state : State
  lastReview : Option ReviewNotice

def eventField : List Char := "event:".toList

def dataField : List Char := "data:".toList

namespace SseEvent

def message : SseEvent := ⟨"message".toList, []⟩

/-- One line of a chunk. -/
def line (e : SseEvent) (line : List Char) : SseEvent :=
  if eventField.isPrefixOf line then { e with eventType := trim (line.drop 6) }
  else if dataField.isPrefixOf line then
    { e with dataStr := e.dataStr ++ ((if e.dataStr = [] then [] else ['\n']) ++ trim (line.drop 5)) }
  else e

end SseEvent

/-- The fields of a chunk, if there is anything in it. -/
def readChunk (chunk : List Char) : Option SseEvent :=
  if trim chunk = [] then none else some ((chunk.splitOn '\n').foldl SseEvent.line .message)

/-- A message: a review is shown, anything else is progress. -/
def Provider.receive (p : Provider) (m : StreamMessage) : Provider :=
  match m.reviewStatus with
  | some status => { p with lastReview := some ⟨m.data.submissionId, status, m.reviewReason⟩ }
  | none => { p with state := applyProgress p.state m.data }

/-- An event.  `parse` is `none` for a text that is no JSON, or that names no submission. -/
def handleEvent (parse : List Char → Option StreamMessage) (p : Provider) (e : SseEvent) : Provider :=
  if e.eventType = "submission".toList ∧ e.dataStr ≠ [] then (parse e.dataStr).elim p p.receive else p

/-- A chunk. -/
def handleChunk (parse : List Char → Option StreamMessage) (p : Provider) (chunk : List Char) :
    Provider := (readChunk chunk).elim p (handleEvent parse p)

/-- A connection: the text that no chunk has been made of yet, and the provider. -/
structure Stream where
  buffer : List Char
  provider : Provider

/-- A new connection. -/
def Stream.opened (p : Provider) : Stream := ⟨[], p⟩

/-- The end of a chunk. -/
def chunkEnd : List Char := ['\n', '\n']

/-- `reader.read()` gives a piece of the text. -/
def Stream.read (parse : List Char → Option StreamMessage) (s : Stream) (value : List Char) : Stream where
  buffer := (Text.feed chunkEnd s.buffer value).2
  provider := (Text.feed chunkEnd s.buffer value).1.foldl (handleChunk parse) s.provider

/-- How an attempt to connect ends. -/
inductive Attempt
  /-- the response has this status, or no body -/
  | refused (status : ℕ)
  /-- `fetch` throws -/
  | failed
  /-- these pieces are read before the stream ends or breaks -/
  | opened (pieces : List (List Char))

/-- What an attempt gets to read. -/
def Attempt.pieces? : Attempt → Option (List (List Char))
  | .refused _ => none
  | .failed => none
  | .opened pieces => some pieces

/-- `streamLoop`: what becomes of the provider. -/
def streamLoop (parse : List Char → Option StreamMessage) (p : Provider) : List Attempt → Provider
  | [] => p
  | .opened pieces :: attempts =>
      streamLoop parse (pieces.foldl (Stream.read parse) (.opened p)).provider attempts
  | .refused _ :: attempts => streamLoop parse p attempts
  | .failed :: attempts => streamLoop parse p attempts

/-- `streamLoop`: the milliseconds it waits after each of its attempts, from the delay it has reached. -/
def waits : ℕ → List Attempt → List ℕ
  | _, [] => []
  | reconnectDelay, .refused status :: attempts =>
      (if status = 423 then 10000 else if status = 429 then 15000 else if status = 401 then 10000
        else 5000) :: waits reconnectDelay attempts
  | reconnectDelay, .failed :: attempts =>
      reconnectDelay :: waits (min (reconnectDelay * 2) 15000) attempts
  | _, .opened _ :: attempts => 1000 :: waits (min (1000 * 2) 15000) attempts

/-! ## The server -/

/-- The events that `streamSubmissions` sends. -/
inductive ServerEvent
  | connected
  | ping (time : ℤ)
  | submission (res : StreamMessage)

def ServerEvent.name : ServerEvent → List Char
  | .connected => "connected".toList
  | .ping _ => "ping".toList
  | .submission _ => "submission".toList

/-- What the two ends rely on: the writer of events, and JSON on either side. -/
structure Wire where
  sseEvent : List Char → List Char → List Char
  marshal : ServerEvent → List Char
  parse : List Char → Option StreamMessage

namespace Wire

variable (w : Wire)

/-- The writer puts the name and the JSON on a line each, and an empty line behind them. -/
def WritesLines : Prop :=
  ∀ name data, w.sseEvent name data
    = (eventField ++ name ++ '\n' :: (dataField ++ data)) ++ chunkEnd

/-- The JSON of an event is a line of its own, and the client reads a result as it was. -/
structure Marshals (e : ServerEvent) : Prop where
  line : '\n' ∉ w.marshal e
  blankFree : BlankFree (w.marshal e)
  ne_nil : w.marshal e ≠ []
  parse : ∀ m, e = .submission m → w.parse (w.marshal e) = some m

/-- What is written for some events. -/
def text (events : List ServerEvent) : List Char :=
  events.flatMap fun e => w.sseEvent e.name (w.marshal e)

end Wire

/-- What an event is to the client. -/
def Provider.handle (p : Provider) : ServerEvent → Provider
  | .connected => p
  | .ping _ => p
  | .submission m => p.receive m

/-! ## Pieces -/

section Pieces

variable {parse : List Char → Option StreamMessage}

/-- **However the text is cut**, the client handles the chunks of the whole text. -/
theorem read_pieces (p : Provider) (pieces : List (List Char)) :
    pieces.foldl (Stream.read parse) (.opened p)
      = ⟨(Text.cut chunkEnd pieces.flatten).2,
        (Text.cut chunkEnd pieces.flatten).1.foldl (handleChunk parse) p⟩ := by
  have hfeed : ∀ (pieces : List (List Char)) (s : Stream), pieces.foldl (Stream.read parse) s
      = ⟨(Text.feedAll chunkEnd s.buffer pieces).2,
        (Text.feedAll chunkEnd s.buffer pieces).1.foldl (handleChunk parse) s.provider⟩ := by
    intro pieces
    induction pieces with
    | nil => exact fun _ => rfl
    | cons value pieces ih =>
        intro s
        rw [List.foldl_cons, ih]
        simp only [Stream.read, Text.feedAll, List.foldl_append]
  have hall := Text.feedAll_eq chunkEnd [] rfl pieces
  rw [List.nil_append] at hall
  rw [hfeed, Stream.opened, hall]

end Pieces

/-! ## Events -/

section Events

variable {w : Wire} {e : ServerEvent} {events : List ServerEvent}

/-- The chunk of an event. -/
def Wire.chunk (w : Wire) (e : ServerEvent) : List Char :=
  eventField ++ e.name ++ '\n' :: (dataField ++ w.marshal e)

/-- No chunk ends in two lines, the second of which is not empty. -/
lemma free_of_lines {s t : List Char} (hs : '\n' ∉ s) (ht : '\n' ∉ t) (hne : t ≠ []) :
    Text.Free chunkEnd (s ++ '\n' :: t) := by
  rintro u a v heq hmark
  obtain ⟨rfl, hsecond⟩ := List.cons_prefix_cons.mp hmark
  rcases List.append_eq_append_iff.mp heq with ⟨x, rfl, hx⟩ | ⟨x, rfl, hx⟩
  · cases x with
    | nil =>
        obtain rfl : t = v := (List.cons.inj hx).2
        cases t with
        | nil => exact hne rfl
        | cons b t =>
            obtain rfl : '\n' = b := (List.cons_prefix_cons.mp hsecond).1
            exact ht List.mem_cons_self
    | cons b x =>
        have hmem : '\n' ∈ t := by
          rw [(List.cons.inj hx).2]
          simp
        exact ht hmem
  · cases x with
    | nil =>
        obtain rfl : v = t := (List.cons.inj hx).2
        cases v with
        | nil => exact hne rfl
        | cons b v =>
            obtain rfl : '\n' = b := (List.cons_prefix_cons.mp hsecond).1
            exact ht List.mem_cons_self
    | cons b x =>
        obtain rfl : '\n' = b := (List.cons.inj hx).1
        exact hs (by simp)

lemma name_blankFree (e : ServerEvent) : '\n' ∉ e.name ∧ BlankFree e.name := by
  cases e with
  | connected => exact ⟨by decide, by decide⟩
  | ping time =>
      change '\n' ∉ "ping".toList ∧ BlankFree "ping".toList
      exact ⟨by decide, by decide⟩
  | submission res =>
      change '\n' ∉ "submission".toList ∧ BlankFree "submission".toList
      exact ⟨by decide, by decide⟩

lemma eventLine (e : ServerEvent) : '\n' ∉ eventField ++ e.name :=
  List.not_mem_append (by decide) (name_blankFree e).1

lemma dataLine (h : w.Marshals e) : '\n' ∉ dataField ++ w.marshal e :=
  List.not_mem_append (by decide) h.line

lemma free_chunk (h : w.Marshals e) : Text.Free chunkEnd (w.chunk e) :=
  free_of_lines (eventLine e) (dataLine h) (by simp [h.ne_nil])

/-- The line of the name. -/
lemma line_event (e : ServerEvent) : SseEvent.message.line (eventField ++ e.name) = ⟨e.name, []⟩ := by
  have hfield : eventField.isPrefixOf (eventField ++ e.name) :=
    List.isPrefixOf_iff_prefix.mpr (List.prefix_append _ _)
  have hrest : (eventField ++ e.name).drop 6 = e.name := List.drop_left' (by decide)
  rw [SseEvent.line, if_pos hfield, hrest, trim_of_blankFree (name_blankFree e).2]
  rfl

/-- The line of the JSON. -/
lemma line_data (h : w.Marshals e) :
    (⟨e.name, []⟩ : SseEvent).line (dataField ++ w.marshal e) = ⟨e.name, w.marshal e⟩ := by
  have hother : ¬ eventField.isPrefixOf (dataField ++ w.marshal e) := by
    rw [List.isPrefixOf_iff_prefix]
    intro hstarts
    exact absurd (List.cons_prefix_cons.mp hstarts).1 (by decide)
  have hfield : dataField.isPrefixOf (dataField ++ w.marshal e) :=
    List.isPrefixOf_iff_prefix.mpr (List.prefix_append _ _)
  have hrest : (dataField ++ w.marshal e).drop 5 = w.marshal e := List.drop_left' (by decide)
  rw [SseEvent.line, if_neg hother, if_pos hfield, hrest, trim_of_blankFree h.blankFree]
  rfl

lemma chunk_ne_blank (h : w.Marshals e) : trim (w.chunk e) ≠ [] := by
  have hlast : (w.chunk e).getLast? = (w.marshal e).getLast? := by
    rw [Wire.chunk, ← List.singleton_append, ← List.append_assoc, ← List.append_assoc,
      List.getLast?_append_of_ne_nil _ h.ne_nil]
  have hfirst : (w.chunk e).head? = some 'e' := rfl
  have hblank : BlankFree (w.chunk e) := by
    refine ⟨?_, hlast ▸ h.blankFree.2⟩
    rw [hfirst]
    rintro ch hch
    obtain rfl := Option.some.inj hch
    decide
  rw [trim_of_blankFree hblank]
  intro hnil
  rw [hnil] at hfirst
  cases hfirst

/-- The client finds in the chunk of an event what was written. -/
lemma readChunk_chunk (h : w.Marshals e) : readChunk (w.chunk e) = some ⟨e.name, w.marshal e⟩ := by
  have hlines : (w.chunk e).splitOn '\n' = [eventField ++ e.name, dataField ++ w.marshal e] := by
    rw [Wire.chunk, List.splitOn_append_cons_self_of_not_mem (eventLine e),
      List.splitOn_eq_singleton (dataLine h)]
  rw [readChunk, if_neg (chunk_ne_blank h), hlines, List.foldl_cons, line_event, List.foldl_cons,
    line_data h, List.foldl_nil]

/-- The client handles an event as what it is. -/
lemma handleChunk_chunk (h : w.Marshals e) (p : Provider) :
    handleChunk w.parse p (w.chunk e) = p.handle e := by
  rw [handleChunk, readChunk_chunk h, Option.elim_some, handleEvent]
  cases e with
  | connected =>
      have hother : ServerEvent.connected.name ≠ "submission".toList := by decide
      rw [if_neg fun hname => hother hname.1, Provider.handle]
  | ping time =>
      have hother : (ServerEvent.ping time).name ≠ "submission".toList := by
        change "ping".toList ≠ "submission".toList
        decide
      rw [if_neg fun hname => hother hname.1, Provider.handle]
  | submission m =>
      have hname : (ServerEvent.submission m).name = "submission".toList := rfl
      rw [if_pos ⟨hname, h.ne_nil⟩, h.parse m rfl, Option.elim_some, Provider.handle]

lemma text_eq (hwrites : w.WritesLines) (events : List ServerEvent) :
    w.text events = Text.written chunkEnd (events.map w.chunk) := by
  induction events with
  | nil => rfl
  | cons e events ih =>
      have htail : w.text (e :: events) = w.sseEvent e.name (w.marshal e) ++ w.text events := rfl
      rw [htail, ih, hwrites, List.map_cons, Text.written_cons, List.append_assoc]
      rfl

lemma foldl_chunks (h : ∀ e ∈ events, w.Marshals e) (p : Provider) :
    (events.map w.chunk).foldl (handleChunk w.parse) p = events.foldl Provider.handle p := by
  induction events generalizing p with
  | nil => rfl
  | cons e events ih =>
      rw [List.map_cons, List.foldl_cons, handleChunk_chunk (h e List.mem_cons_self),
        ih fun e' he' => h e' (List.mem_cons_of_mem e he')]
      rfl

end Events

/-! ## Connections -/

/-- The waits stay between one second and fifteen. -/
lemma waits_bounds {attempts : List Attempt} {reconnectDelay : ℕ}
    (h : 1000 ≤ reconnectDelay ∧ reconnectDelay ≤ 15000) :
    ∀ ms ∈ waits reconnectDelay attempts, 1000 ≤ ms ∧ ms ≤ 15000 := by
  induction attempts generalizing reconnectDelay with
  | nil => simp [waits]
  | cons attempt attempts ih =>
      cases attempt with
      | refused status =>
          rintro ms (_ | ⟨_, hms⟩)
          · split_ifs <;> decide
          · exact ih h ms hms
      | failed =>
          rintro ms (_ | ⟨_, hms⟩)
          · exact h
          · exact ih (by omega) ms hms
      | opened pieces =>
          rintro ms (_ | ⟨_, hms⟩)
          · decide
          · exact ih (by decide) ms hms

/-- A connection over time: the events that the server had sent, and what the client got of the text. -/
structure Connection where
  events : List ServerEvent
  pieces : List (List Char)

/-- What the client got is the beginning of what the server wrote. -/
def Connection.Carried (w : Wire) (c : Connection) : Prop := c.pieces.flatten <+: w.text c.events

instance (w : Wire) (c : Connection) : Decidable (c.Carried w) :=
  inferInstanceAs (Decidable (_ <+: _))

/-- `n` events have arrived whole, and no more. -/
def Connection.Arrived (w : Wire) (c : Connection) (n : ℕ) : Prop :=
  w.text (c.events.take n) <+: c.pieces.flatten ∧
    ∀ k ≤ c.events.length, w.text (c.events.take k) <+: c.pieces.flatten → k ≤ n

section Connections

variable {w : Wire} {c : Connection}

/-- One connection. -/
lemma read_events (hwrites : w.WritesLines) (h : ∀ e ∈ c.events, w.Marshals e) (hc : c.Carried w)
    (p : Provider) :
    ∃ n, c.Arrived w n ∧ (c.pieces.foldl (Stream.read w.parse) (.opened p)).provider
      = (c.events.take n).foldl Provider.handle p := by
  have hfree : ∀ chunk ∈ c.events.map w.chunk, Text.Free chunkEnd chunk := by
    intro chunk hchunk
    obtain ⟨e, he, rfl⟩ := List.mem_map.mp hchunk
    exact free_chunk (h e he)
  rw [Connection.Carried, text_eq hwrites] at hc
  obtain ⟨n, hcut, hin, hmax⟩ := Text.cut_of_prefix (by simp [chunkEnd]) hfree hc
  refine ⟨n, ⟨?_, fun k hk htext => ?_⟩, ?_⟩
  · rw [text_eq hwrites, List.map_take]
    exact hin
  · refine hmax k (by simpa using hk) ?_
    rw [← List.map_take, ← text_eq hwrites]
    exact htext
  · rw [read_pieces, hcut, ← List.map_take]
    exact foldl_chunks (fun e he => h e (List.mem_of_mem_take he)) p

/-- **The stream of results.**  Through any attempts and connections, the client has handled exactly the
events that have arrived whole, in the order in which they were sent. -/
theorem stream_events (hwrites : w.WritesLines) (connections : List Connection)
    (h : ∀ c ∈ connections, ∀ e ∈ c.events, w.Marshals e) (hc : ∀ c ∈ connections, c.Carried w)
    (attempts : List Attempt)
    (hattempts : attempts.filterMap Attempt.pieces? = connections.map Connection.pieces) (p : Provider) :
    ∃ ns : List ℕ, List.Forall₂ (Connection.Arrived w) connections ns ∧
      streamLoop w.parse p attempts
        = (List.zipWith (fun c n => c.events.take n) connections ns).flatten.foldl Provider.handle p := by
  induction attempts generalizing connections p with
  | nil =>
      obtain rfl : connections = [] := List.map_eq_nil_iff.mp hattempts.symm
      exact ⟨[], .nil, rfl⟩
  | cons attempt attempts ih =>
      cases attempt with
      | refused status => exact ih connections h hc hattempts p
      | failed => exact ih connections h hc hattempts p
      | opened pieces =>
          obtain ⟨c, rest, rfl, rfl, hrest⟩ := List.map_eq_cons_iff.mp hattempts.symm
          obtain ⟨n, harrived, hread⟩ :=
            read_events hwrites (h c List.mem_cons_self) (hc c List.mem_cons_self) p
          obtain ⟨ns, hall, hloop⟩ := ih rest (fun c' hc' => h c' (List.mem_cons_of_mem c hc'))
            (fun c' hc' => hc c' (List.mem_cons_of_mem c hc')) hrest.symm
            ((c.events.take n).foldl Provider.handle p)
          refine ⟨n :: ns, .cons harrived hall, ?_⟩
          rw [streamLoop, hread, hloop, List.zipWith_cons_cons, List.flatten_cons, List.foldl_append]

/-! ## A connection that breaks off -/

/-- The submission 11 is in the queue. -/
def sampleUpdate : StreamMessage where
  data := {
    submissionId := 11, userId := 1, teamId := 2, problemId := 7, status := .queued, verdict := none
    score := 0, maxScore := 0, testsTotal := 0, testsDone := 0, compileError := none
    queuePosition := some 1, tests := [], createdAt := 0, finishedAt := none, attemptStartedAt := none }

/-- The JSON of the update. -/
def sampleJson : List Char :=
  "\x7b\"submissionId\":\"".toList ++ "00000000-0000-0000-0000-00000000000b".toList ++
    "\",\"userId\":\"".toList ++ "00000000-0000-0000-0000-000000000001".toList ++
    "\",\"teamId\":\"".toList ++ "00000000-0000-0000-0000-000000000002".toList ++
    "\",\"problemId\":\"".toList ++ "00000000-0000-0000-0000-000000000007".toList ++
    "\",\"status\":\"queued\",\"score\":0,".toList ++ "\"maxScore\":0,\"testsTotal\":0,".toList ++
    "\"testsDone\":0,\"queuePosition\":1,".toList ++
    "\"createdAt\":\"1970-01-01T00:00:00Z\"\x7d".toList

/-- `JSON.parse` on one text. -/
def sampleParse (json s : List Char) : Option StreamMessage := if s = json then some sampleUpdate else none

lemma sampleParse_self (json : List Char) : sampleParse json json = some sampleUpdate := if_pos rfl

/-- The writer, with the JSON of the events of the sample. -/
def sampleWire : Wire where
  sseEvent name data := (eventField ++ name ++ '\n' :: (dataField ++ data)) ++ chunkEnd
  marshal
    | .connected => "\x7b\"status\":\"connected\"\x7d".toList
    | .ping time => "\x7b\"time\":".toList ++ time.repr.toList ++ "\x7d".toList
    | .submission _ => sampleJson
  parse := sampleParse sampleJson

/-- One piece ends between two line ends, the other one breaks off in the second update. -/
def sampleConnection : Connection where
  events := [.connected, .submission sampleUpdate, .submission sampleUpdate]
  pieces := ["event:connected\ndata:\x7b\"status\":\"connected\"\x7d\n".toList,
    "\nevent:submission\ndata:".toList ++ sampleJson ++ "\n\nevent:subm".toList]

lemma sampleWire_marshals : ∀ e ∈ sampleConnection.events, sampleWire.Marshals e := by
  have hconnected : sampleWire.Marshals .connected :=
    ⟨by decide, by decide, by decide, fun m hm => by cases hm⟩
  have hsubmission : sampleWire.Marshals (.submission sampleUpdate) := by
    refine ⟨by decide +kernel, by decide +kernel, by decide +kernel, fun m hm => ?_⟩
    obtain rfl : sampleUpdate = m := ServerEvent.submission.inj hm
    simp only [sampleWire, sampleParse_self]
  rintro e he
  simp only [sampleConnection, List.mem_cons, List.not_mem_nil, or_false] at he
  rcases he with rfl | rfl | rfl
  · exact hconnected
  · exact hsubmission
  · exact hsubmission

theorem stream_events_sample :
    ∃ ns : List ℕ, List.Forall₂ (Connection.Arrived sampleWire) [sampleConnection] ns ∧
      streamLoop sampleWire.parse ⟨.empty, none⟩ [.failed, .opened sampleConnection.pieces]
        = (List.zipWith (fun c n => c.events.take n) [sampleConnection] ns).flatten.foldl
          Provider.handle ⟨.empty, none⟩ :=
  stream_events (fun _ _ => rfl) [sampleConnection]
    (List.forall_mem_singleton.mpr sampleWire_marshals)
    (List.forall_mem_singleton.mpr (by decide +kernel)) [.failed, .opened sampleConnection.pieces] rfl
    ⟨.empty, none⟩

end Connections

end Portal

end Labyrithm
