import Mathlib.Algebra.Order.Ring.Rat
import Mathlib.Data.List.Infix
import Labyrithm.Go.Strings
import Labyrithm.Judge.Schema

/-!
# What the sandbox reports

`backend/internal/runner/meta.go`: the file that isolate writes about a run, line by line, and the verdict
that is made of it, with the rest of the verdict from the loop of `RunBatch`.  A file is the list of its
lines, so that a file cut at the end of a line is `lines.take n`.  What the code leaves to floating point
is a parameter.

isolate may be killed while it writes.  `parseMeta` refuses a file without any field, of which `verdict`
would make a success, and accepts every other.

* `verdict_ne_AC_iff` — a verdict is none of success where some field is a failure.
* `fails_foldl` — whether a field is one is told by the last line about it.
* **`cut_iff`** — for every file, when no cut of it turns a failure into a success: a failure has to be
  reported from the first field on.
* `cut_upgrades` — a report that begins with the time.
-/

namespace Labyrithm

namespace Sandbox

/-! ## The file -/

/-- The parts of the code that use floating point. -/
structure Floats where
  /-- `strconv.ParseFloat`. -/
  parseFloat : List Char → Option ℚ
  /-- `int64(float64(memLimitKB) * 0.95)`. -/
  nearLimit : ℤ → ℤ

/-- `meta`. -/
structure Meta where
  status : List Char := []
  message : List Char := []
  exitCode : ℤ := 0
  exitSig : ℤ := 0
  timeCPU : ℚ := 0
  timeWall : ℚ := 0
  cgMemKB : ℤ := 0
  maxRSSKB : ℤ := 0
  cgOOMKilled : Bool := false
  deriving DecidableEq

namespace Meta

def statusRuntimeError : List Char := "RE".toList
def statusSignalled : List Char := "SG".toList
def statusTimedOut : List Char := "TO".toList
def statusInternal : List Char := "XX".toList

/-- `memoryKB`. -/
def memoryKB (m : Meta) : ℤ := if m.maxRSSKB > m.cgMemKB then m.maxRSSKB else m.cgMemKB

/-- `exitCodeOrSignal`. -/
def exitCodeOrSignal (m : Meta) : ℤ :=
  if m.status = statusSignalled ∧ m.exitSig > 0 then 128 + m.exitSig else m.exitCode

/-- The message is about a time limit. -/
def aboutTime (message : List Char) : Bool :=
  let msgLower := Go.toLower message
  "time limit".toList <:+: msgLower || "timed out".toList <:+: msgLower ||
    "wall clock".toList <:+: msgLower

/-- `verdict`. -/
def verdict (F : Floats) (memLimitKB : ℤ) (m : Meta) : Verdict :=
  if m.cgOOMKilled then .MLE
  else if m.status = statusTimedOut then .TLE
  else if (m.status = statusSignalled ∧ (m.exitSig = 24 ∨ m.exitSig = 9)) ∨ m.exitCode = 128 + 24 ∨
    m.exitCode = 128 + 9 then .TLE
  else if aboutTime m.message then .TLE
  else if m.status = statusInternal then .IE
  else if (m.status = statusSignalled ∧ m.exitSig = 25) ∨ m.exitCode = 128 + 25 then .OLE
  else if m.status = statusSignalled ∨ m.status = statusRuntimeError ∨ m.exitCode ≠ 0 then
    if memLimitKB > 0 ∧ m.memoryKB ≥ F.nearLimit memLimitKB then .MLE else .RTE
  else .AC

/-- The limits of a case, in seconds: `effectiveCPU`, which is positive, and `effectiveWall`. -/
structure Limits where
  cpu : ℚ
  wall : ℚ
  cpu_pos : 0 < cpu

/-- The verdict of a case in `RunBatch`, which looks at the times as well. -/
def caseVerdict (F : Floats) (memLimitKB : ℤ) (limits : Limits) (m : Meta) : Verdict :=
  if m.timeCPU ≥ limits.cpu ∨ (limits.wall > 0 ∧ m.timeWall ≥ limits.wall) then .TLE
  else m.verdict F memLimitKB

end Meta

/-- `strings.Cut` at the first colon. -/
def cut (line : List Char) : Option (List Char × List Char) :=
  if ':' ∈ line then
    some (line.takeWhile fun ch => ch ≠ ':', (line.dropWhile fun ch => ch ≠ ':').tail)
  else none

/-- A numeric field keeps its value where the text is not a number. -/
def field {α : Type} (parsed : Option α) (old : α) : α := parsed.getD old

/-- The `switch` of `parseMeta`. -/
def Meta.set (F : Floats) (m : Meta) (key value : List Char) : Meta :=
  if key = "status".toList then { m with status := value }
  else if key = "message".toList then { m with message := value }
  else if key = "exitcode".toList then { m with exitCode := field (Go.atoi value) m.exitCode }
  else if key = "exitsig".toList then { m with exitSig := field (Go.atoi value) m.exitSig }
  else if key = "time".toList then { m with timeCPU := field (F.parseFloat value) m.timeCPU }
  else if key = "time-wall".toList then { m with timeWall := field (F.parseFloat value) m.timeWall }
  else if key = "cg-mem".toList then { m with cgMemKB := field (Go.atoi value) m.cgMemKB }
  else if key = "max-rss".toList then { m with maxRSSKB := field (Go.atoi value) m.maxRSSKB }
  else if key = "cg-oom-killed".toList then { m with cgOOMKilled := decide (value = "1".toList) }
  else m

/-- A line as the scanner gives it. -/
def token (line : List Char) : List Char := if line.getLast? = some '\r' then line.dropLast else line

/-- What one line does. -/
def Meta.scan (F : Floats) (m : Meta) (line : List Char) : Meta :=
  match cut (token line) with
  | none => m
  | some (key, value) => m.set F key value

/-- The bytes of the longest line that the scanner can hold. -/
def maxLine : ℕ := 64 * 1024 - 1

inductive ParseErr
  | tooLong
  | emptyMeta
  deriving DecidableEq, Repr

def ParseErr.message : ParseErr → String
  | tooLong => "bufio.Scanner: token too long"
  | emptyMeta => "meta file has no fields"

/-- The line is a field. -/
def IsField (line : List Char) : Prop := ':' ∈ token line

instance (line : List Char) : Decidable (IsField line) := inferInstanceAs (Decidable (_ ∈ _))

/-- `parseMeta`, of the lines of the file. -/
def parseMeta (F : Floats) (lines : List (List Char)) : Except ParseErr Meta :=
  if ∃ line ∈ lines, maxLine < Go.len line then .error .tooLong
  else if ∃ line ∈ lines, IsField line then .ok (lines.foldl (Meta.scan F) {})
  else .error .emptyMeta

/-! ## Failures -/

/-- A field that can report a failure; the times can where they are compared with limits. -/
inductive Key
  | status
  | message
  | exitcode
  | oom
  | time
  | wall
  deriving DecidableEq, Repr

variable (F : Floats) (limits : Option Meta.Limits) (memLimitKB : ℤ)

/-- The verdict of the report, or of a case where there are limits. -/
def Meta.verdictUnder (m : Meta) : Verdict :=
  match limits with
  | none => m.verdict F memLimitKB
  | some limits => m.caseVerdict F memLimitKB limits

/-- The statuses of failures. -/
def failures : List (List Char) :=
  [Meta.statusRuntimeError, Meta.statusSignalled, Meta.statusTimedOut, Meta.statusInternal]

/-- What a field says of the run: whether it reports a failure. -/
def report (key value : List Char) : Option (Key × Bool) :=
  if key = "status".toList then some (.status, decide (value ∈ failures))
  else if key = "message".toList then some (.message, Meta.aboutTime value)
  else if key = "exitcode".toList then (Go.atoi value).map fun n => (.exitcode, decide (n ≠ 0))
  else if key = "cg-oom-killed".toList then some (.oom, decide (value = "1".toList))
  else if key = "time".toList then
    limits.bind fun l => (F.parseFloat value).map fun t => (.time, decide (t ≥ l.cpu))
  else if key = "time-wall".toList then
    limits.bind fun l => (F.parseFloat value).map fun t => (.wall, decide (l.wall > 0 ∧ t ≥ l.wall))
  else none

/-- What a line says of the run. -/
def tells (line : List Char) : Option (Key × Bool) :=
  (cut (token line)).bind fun field => report F limits field.1 field.2

/-- The last thing that the lines say with a key. -/
def lastTold (k : Key) (lines : List (List Char)) : Option Bool :=
  (((lines.filterMap (tells F limits)).filter fun told => told.1 = k).getLast?).map Prod.snd

/-- The last line of some key reports a failure. -/
def Reported (lines : List (List Char)) : Prop := ∃ k, lastTold F limits k lines = some true

/-- A failure is reported from the first field on. -/
def KeepsReporting (lines : List (List Char)) : Prop :=
  ∀ n, (∃ line ∈ lines.take n, IsField line) → Reported F limits (lines.take n)

/-- No cut of a file with a failure in it that is accepted is a success. -/
def NeverUpgraded (lines : List (List Char)) : Prop :=
  ∀ m, parseMeta F lines = .ok m → m.verdictUnder F limits memLimitKB ≠ .AC →
    ∀ n m', parseMeta F (lines.take n) = .ok m' → m'.verdictUnder F limits memLimitKB ≠ .AC

/-! ### The report and its lines -/

/-- What is stored for a key is a failure. -/
def Meta.fails (m : Meta) : Key → Bool
  | .status => decide (m.status ∈ failures)
  | .message => Meta.aboutTime m.message
  | .exitcode => decide (m.exitCode ≠ 0)
  | .oom => m.cgOOMKilled
  | .time => limits.any fun l => m.timeCPU ≥ l.cpu
  | .wall => limits.any fun l => l.wall > 0 ∧ m.timeWall ≥ l.wall

variable {F limits memLimitKB}

/-- Before the first line nothing is. -/
lemma fails_new (k : Key) : ({} : Meta).fails limits k = false := by
  cases k with
  | status | message | exitcode | oom => rfl
  | time =>
      cases limits with
      | none => rfl
      | some l => simpa [Meta.fails] using l.cpu_pos
  | wall =>
      cases limits with
      | none => rfl
      | some l => simp [Meta.fails]

/-- A field changes what it tells. -/
lemma fails_set (m : Meta) (key value : List Char) (k : Key) :
    (m.set F key value).fails limits k =
      match report F limits key value with
      | none => m.fails limits k
      | some (key, failed) => if key = k then failed else m.fails limits k := by
  by_cases hstatus : key = "status".toList
  · subst hstatus
    cases k <;> rfl
  by_cases hmessage : key = "message".toList
  · subst hmessage
    cases k <;> rfl
  by_cases hexitcode : key = "exitcode".toList
  · subst hexitcode
    have hset : m.set F "exitcode".toList value = { m with exitCode := field (Go.atoi value) m.exitCode } := rfl
    have hreport : report F limits "exitcode".toList value =
      (Go.atoi value).map fun n => (Key.exitcode, decide (n ≠ 0)) := rfl
    rw [hset, hreport]
    cases Go.atoi value <;> cases k <;> rfl
  by_cases htime : key = "time".toList
  · subst htime
    have hset : m.set F "time".toList value = { m with timeCPU := field (F.parseFloat value) m.timeCPU } := rfl
    have hreport : report F limits "time".toList value =
      limits.bind fun l => (F.parseFloat value).map fun t => (Key.time, decide (t ≥ l.cpu)) := rfl
    rw [hset, hreport]
    cases limits <;> cases F.parseFloat value <;> cases k <;> rfl
  by_cases hwall : key = "time-wall".toList
  · subst hwall
    have hset : m.set F "time-wall".toList value =
      { m with timeWall := field (F.parseFloat value) m.timeWall } := rfl
    have hreport : report F limits "time-wall".toList value =
      limits.bind fun l => (F.parseFloat value).map fun t =>
        (Key.wall, decide (l.wall > 0 ∧ t ≥ l.wall)) := rfl
    rw [hset, hreport]
    cases limits <;> cases F.parseFloat value <;> cases k <;> rfl
  by_cases hoom : key = "cg-oom-killed".toList
  · subst hoom
    cases k <;> rfl
  -- the other fields say nothing of failures
  have hreport : report F limits key value = none := by
    simp only [report, hstatus, hmessage, hexitcode, htime, hwall, hoom, if_false]
  rw [hreport]
  simp only [Meta.set, hstatus, hmessage, hexitcode, htime, hwall, hoom, if_false]
  split_ifs <;> cases k <;> rfl

/-- A line changes what it tells. -/
lemma fails_scan (m : Meta) (line : List Char) (k : Key) :
    (m.scan F line).fails limits k =
      match tells F limits line with
      | none => m.fails limits k
      | some (key, failed) => if key = k then failed else m.fails limits k := by
  rw [Meta.scan, tells]
  cases cut (token line) with
  | none => rfl
  | some field => exact fails_set m field.1 field.2 k

/-- After some lines a field is what the last of them tells, or what it was. -/
lemma fails_foldl (m : Meta) (lines : List (List Char)) (k : Key) :
    (lines.foldl (Meta.scan F) m).fails limits k = (lastTold F limits k lines).getD (m.fails limits k) := by
  induction lines using List.reverseRecOn with
  | nil => rfl
  | append_singleton lines line ih =>
      rw [List.foldl_append, List.foldl_cons, List.foldl_nil, fails_scan, ih, lastTold, lastTold,
        List.filterMap_append, List.filter_append, List.filterMap_cons]
      cases tells F limits line with
      | none => simp
      | some told => by_cases hk : told.1 = k <;> simp [hk]

/-- A report is one of success where its status, message, exit code and memory are. -/
lemma verdict_eq_AC_iff (m : Meta) :
    m.verdict F memLimitKB = .AC ↔
      m.status ∉ failures ∧ Meta.aboutTime m.message = false ∧ m.exitCode = 0 ∧ m.cgOOMKilled = false := by
  -- every branch but the last has another verdict
  have hlast : m.verdict F memLimitKB = .AC ↔
      ¬ m.cgOOMKilled = true ∧ ¬ m.status = Meta.statusTimedOut ∧
        ¬ ((m.status = Meta.statusSignalled ∧ (m.exitSig = 24 ∨ m.exitSig = 9)) ∨ m.exitCode = 128 + 24 ∨
          m.exitCode = 128 + 9) ∧ ¬ Meta.aboutTime m.message = true ∧ ¬ m.status = Meta.statusInternal ∧
        ¬ ((m.status = Meta.statusSignalled ∧ m.exitSig = 25) ∨ m.exitCode = 128 + 25) ∧
        ¬ (m.status = Meta.statusSignalled ∨ m.status = Meta.statusRuntimeError ∨ m.exitCode ≠ 0) := by
    simp only [Meta.verdict, ite_eq_iff, reduceCtorEq, and_false, false_or, and_true, or_false]
  rw [hlast, Bool.not_eq_true, Bool.not_eq_true]
  constructor
  · rintro ⟨hoom, htimed, -, hmessage, hinternal, -, hother⟩
    obtain ⟨hsg, hre, hexit⟩ : m.status ≠ Meta.statusSignalled ∧ m.status ≠ Meta.statusRuntimeError ∧
        m.exitCode = 0 := by
      simpa using hother
    refine ⟨?_, hmessage, hexit, hoom⟩
    simp [failures, hsg, hre, htimed, hinternal]
  · rintro ⟨hstatus, hmessage, hexit, hoom⟩
    simp only [failures, List.mem_cons, List.not_mem_nil, or_false, not_or] at hstatus
    obtain ⟨hre, hsg, hto, hxx⟩ := hstatus
    simp [hre, hsg, hto, hxx, hmessage, hexit, hoom]

lemma exists_key {p : Key → Prop} :
    (∃ k, p k) ↔ (p .status ∨ p .message ∨ p .exitcode ∨ p .oom) ∨ p .time ∨ p .wall := by
  constructor
  · rintro ⟨k, hk⟩
    cases k <;> simp [hk]
  · rintro ((h | h | h | h) | h | h) <;> exact ⟨_, h⟩

/-- A verdict is none of success where some field is a failure. -/
lemma verdict_ne_AC_iff (m : Meta) :
    m.verdictUnder F limits memLimitKB ≠ .AC ↔ ∃ k, m.fails limits k = true := by
  have hreport : m.verdict F memLimitKB ≠ .AC ↔
      m.fails limits .status = true ∨ m.fails limits .message = true ∨
        m.fails limits .exitcode = true ∨ m.fails limits .oom = true := by
    rw [ne_eq, verdict_eq_AC_iff]
    simp only [Meta.fails, decide_eq_true_eq]
    grind
  rw [exists_key, ← hreport]
  cases limits with
  | none => simp [Meta.verdictUnder, Meta.fails]
  | some l =>
      have htimes : (m.fails (some l) .time = true ∨ m.fails (some l) .wall = true) ↔
          (m.timeCPU ≥ l.cpu ∨ (l.wall > 0 ∧ m.timeWall ≥ l.wall)) := by simp [Meta.fails]
      rw [htimes, Meta.verdictUnder, Meta.caseVerdict]
      split_ifs with h
      · simp [h]
      · simp [h]

/-! ## Cuts -/

/-- No line is too long for the scanner. -/
def Short (lines : List (List Char)) : Prop := ∀ line ∈ lines, Go.len line ≤ maxLine

instance (lines : List (List Char)) : Decidable (Short lines) :=
  inferInstanceAs (Decidable (∀ line ∈ lines, _ ≤ _))

lemma parseMeta_eq_ok_iff {lines : List (List Char)} {m : Meta} :
    parseMeta F lines = .ok m ↔
      Short lines ∧ (∃ line ∈ lines, IsField line) ∧ lines.foldl (Meta.scan F) {} = m := by
  have hshort : Short lines ↔ ¬ ∃ line ∈ lines, maxLine < Go.len line := by
    simp [Short]
  rw [parseMeta, hshort]
  split_ifs with hlong hfield
  · simp [hlong]
  · simp [hlong, hfield]
  · simp [hlong, hfield]

/-- The verdict of a file is none of success where a failure is reported. -/
lemma verdict_foldl_ne_AC_iff (lines : List (List Char)) :
    (lines.foldl (Meta.scan F) {}).verdictUnder F limits memLimitKB ≠ .AC ↔ Reported F limits lines := by
  rw [verdict_ne_AC_iff]
  refine exists_congr fun k => ?_
  rw [fails_foldl, fails_new]
  cases lastTold F limits k lines <;> simp

/-- A line that tells anything is a field. -/
lemma isField_of_tells {line : List Char} {told : Key × Bool} (h : tells F limits line = some told) :
    IsField line := by
  by_contra hfield
  rw [IsField] at hfield
  simp [tells, cut, hfield] at h

lemma exists_isField_of_reported {lines : List (List Char)} (h : Reported F limits lines) :
    ∃ line ∈ lines, IsField line := by
  obtain ⟨k, hk⟩ := h
  obtain ⟨told, hlast, -⟩ := Option.map_eq_some_iff.mp hk
  have hmem := (List.mem_filter.mp (List.mem_of_getLast? hlast)).1
  obtain ⟨line, hline, htells⟩ := List.mem_filterMap.mp hmem
  exact ⟨line, hline, isField_of_tells htells⟩

/-- **When no cut of a file makes a success of a failure.** -/
theorem neverUpgraded_iff (lines : List (List Char)) :
    NeverUpgraded F limits memLimitKB lines ↔
      (Short lines → Reported F limits lines → KeepsReporting F limits lines) := by
  constructor
  · intro h hshort hreported n hfield
    have hfile : parseMeta F lines = .ok (lines.foldl (Meta.scan F) {}) :=
      parseMeta_eq_ok_iff.mpr ⟨hshort, exists_isField_of_reported hreported, rfl⟩
    have hcut : parseMeta F (lines.take n) = .ok ((lines.take n).foldl (Meta.scan F) {}) :=
      parseMeta_eq_ok_iff.mpr ⟨fun line hline => hshort line (List.mem_of_mem_take hline), hfield, rfl⟩
    exact (verdict_foldl_ne_AC_iff _).mp
      (h _ hfile ((verdict_foldl_ne_AC_iff lines).mpr hreported) n _ hcut)
  · intro h m hm hverdict n m' hm'
    obtain ⟨hshort, -, rfl⟩ := parseMeta_eq_ok_iff.mp hm
    obtain ⟨-, hfield, rfl⟩ := parseMeta_eq_ok_iff.mp hm'
    exact (verdict_foldl_ne_AC_iff _).mpr
      (h hshort ((verdict_foldl_ne_AC_iff lines).mp hverdict) n hfield)

/-! ### Files with every key once -/

/-- The key of a field. -/
def keyOf (line : List Char) : Option (List Char) := (cut (token line)).map Prod.fst

/-- No key comes twice. -/
def DistinctKeys (lines : List (List Char)) : Prop := (lines.filterMap keyOf).Nodup

instance (lines : List (List Char)) : Decidable (DistinctKeys lines) :=
  inferInstanceAs (Decidable (List.Nodup _))

variable (F limits) in
/-- The first field reports a failure. -/
def FirstReports (lines : List (List Char)) : Prop :=
  ∀ line, lines.find? (fun line => IsField line) = some line → ∃ k, tells F limits line = some (k, true)

/-- The key of isolate. -/
def Key.name : Key → List Char
  | status => "status".toList
  | message => "message".toList
  | exitcode => "exitcode".toList
  | oom => "cg-oom-killed".toList
  | time => "time".toList
  | wall => "time-wall".toList

lemma keyOf_of_tells {line : List Char} {k : Key} {failed : Bool}
    (h : tells F limits line = some (k, failed)) : keyOf line = some k.name := by
  obtain ⟨⟨key, value⟩, hcut, hreport⟩ := Option.bind_eq_some_iff.mp h
  have hkey : key = k.name := by
    rw [report, ite_eq_iff] at hreport
    obtain ⟨hstatus, heq⟩ | ⟨-, hreport⟩ := hreport
    · cases heq
      exact hstatus
    rw [ite_eq_iff] at hreport
    obtain ⟨hmessage, heq⟩ | ⟨-, hreport⟩ := hreport
    · cases heq
      exact hmessage
    rw [ite_eq_iff] at hreport
    obtain ⟨hexitcode, hmap⟩ | ⟨-, hreport⟩ := hreport
    · obtain ⟨n, -, heq⟩ := Option.map_eq_some_iff.mp hmap
      cases heq
      exact hexitcode
    rw [ite_eq_iff] at hreport
    obtain ⟨hoom, heq⟩ | ⟨-, hreport⟩ := hreport
    · cases heq
      exact hoom
    rw [ite_eq_iff] at hreport
    obtain ⟨htime, hbind⟩ | ⟨-, hreport⟩ := hreport
    · obtain ⟨l, -, hmap⟩ := Option.bind_eq_some_iff.mp hbind
      obtain ⟨t, -, heq⟩ := Option.map_eq_some_iff.mp hmap
      cases heq
      exact htime
    rw [ite_eq_iff] at hreport
    obtain ⟨hwall, hbind⟩ | ⟨-, hnone⟩ := hreport
    · obtain ⟨l, -, hmap⟩ := Option.bind_eq_some_iff.mp hbind
      obtain ⟨t, -, heq⟩ := Option.map_eq_some_iff.mp hmap
      cases heq
      exact hwall
    · cases hnone
  rw [keyOf, hcut, ← hkey]
  rfl

lemma filterMap_tells_eq_nil {lines : List (List Char)} (h : ∀ line ∈ lines, ¬ IsField line) :
    lines.filterMap (tells F limits) = [] := by
  refine List.filterMap_eq_nil_iff.mpr ?_
  intro line hline
  cases htells : tells F limits line with
  | none => rfl
  | some told => exact absurd (isField_of_tells htells) (h line hline)

/-- What the first field tells, if no other line has its key. -/
lemma lastTold_first {before after : List (List Char)} {line : List Char} {k : Key}
    (hbefore : ∀ line ∈ before, ¬ IsField line) (hline : tells F limits line = some (k, true))
    (hafter : ∀ line ∈ after, keyOf line ≠ some k.name) :
    lastTold F limits k (before ++ line :: after) = some true := by
  have hrest : (after.filterMap (tells F limits)).filter (fun told => told.1 = k) = [] := by
    refine List.filter_eq_nil_iff.mpr ?_
    rintro ⟨key, failed⟩ hmem hkey
    obtain ⟨other, hother, htells⟩ := List.mem_filterMap.mp hmem
    obtain rfl : key = k := by simpa using hkey
    exact hafter other hother (keyOf_of_tells htells)
  rw [lastTold, List.filterMap_append, filterMap_tells_eq_nil hbefore, List.filterMap_cons, hline]
  simp [hrest]

/-- Where no key comes twice, the first field is what counts. -/
lemma keepsReporting_iff {lines : List (List Char)} (h : DistinctKeys lines) :
    KeepsReporting F limits lines ↔ FirstReports F limits lines := by
  constructor
  · intro hkeeps line hfind
    obtain ⟨hfield, before, after, rfl, hbefore⟩ := List.find?_eq_some_iff_append.mp hfind
    have htake : (before ++ line :: after).take (before.length + 1) = before ++ [line] := by
      rw [List.take_length_add_append]
      rfl
    have hreported := hkeeps (before.length + 1)
    rw [htake] at hreported
    obtain ⟨k, hk⟩ := hreported ⟨line, by simp, by simpa using hfield⟩
    have hnone : before.filterMap (tells F limits) = [] :=
      filterMap_tells_eq_nil fun l hl => by simpa using hbefore l hl
    rw [lastTold, List.filterMap_append, hnone, List.nil_append, List.filterMap_cons] at hk
    refine ⟨k, ?_⟩
    cases htells : tells F limits line with
    | none => simp [htells] at hk
    | some told =>
        obtain ⟨key, failed⟩ := told
        by_cases hkey : key = k
        · simpa [htells, hkey] using hk
        · simp [htells, hkey] at hk
  · intro hfirst n hfield
    cases hfind : lines.find? fun line => IsField line with
    | none =>
        obtain ⟨line, hline, hcolon⟩ := hfield
        have hnot := List.find?_eq_none.mp hfind line (List.mem_of_mem_take hline)
        exact absurd hcolon (by simpa using hnot)
    | some line =>
        obtain ⟨k, htells⟩ := hfirst line hfind
        obtain ⟨-, before, after, rfl, hbefore⟩ := List.find?_eq_some_iff_append.mp hfind
        have hnone : ∀ l ∈ before, ¬ IsField l := fun l hl => by simpa using hbefore l hl
        -- the cut comes after the first field
        have hn : before.length < n := by
          by_contra hle
          obtain ⟨l, hl, hcolon⟩ := hfield
          rw [List.take_append_of_le_length (not_lt.mp hle)] at hl
          exact hnone l (List.mem_of_mem_take hl) hcolon
        obtain ⟨m, rfl⟩ : ∃ m, n = before.length + (m + 1) := ⟨n - before.length - 1, by omega⟩
        rw [List.take_length_add_append, List.take_succ_cons]
        refine ⟨k, lastTold_first hnone htells ?_⟩
        intro other hother hkey
        rw [DistinctKeys, List.filterMap_append, List.filterMap_cons, keyOf_of_tells htells] at h
        have hnodup := (List.nodup_append.mp h).2.1
        exact (List.nodup_cons.mp hnodup).1
          (List.mem_filterMap.mpr ⟨other, List.mem_of_mem_take hother, hkey⟩)

/-- **No cut of a file makes a success of a failure exactly where a failure is reported from the first
field on**, which is to say by the first field, where no key comes twice. -/
theorem cut_iff (F : Floats) (limits : Option Meta.Limits) (memLimitKB : ℤ) (lines : List (List Char)) :
    (NeverUpgraded F limits memLimitKB lines ↔
      (Short lines → Reported F limits lines → KeepsReporting F limits lines)) ∧
    (DistinctKeys lines → (NeverUpgraded F limits memLimitKB lines ↔
      (Short lines → Reported F limits lines → FirstReports F limits lines))) := by
  refine ⟨neverUpgraded_iff lines, ?_⟩
  intro hkeys
  rw [neverUpgraded_iff, keepsReporting_iff hkeys]

/-- Numbers of seconds with one digit, and a limit in whole numbers. -/
def sampleFloats : Floats where
  parseFloat value := (Go.digits value 0).map fun n => (n : ℚ)
  nearLimit n := n * 95 / 100

/-- A program that fails. -/
def sampleMeta : List (List Char) :=
  ["status:RE".toList, "exitcode:1".toList, "time:0".toList, "message:Exited with error status 1".toList]

theorem cut_iff_sample : DistinctKeys sampleMeta ∧ NeverUpgraded sampleFloats none 0 sampleMeta :=
  ⟨by decide, ((cut_iff sampleFloats none 0 sampleMeta).2 (by decide)).mpr fun _ _ line hfind =>
    ⟨.status, by rw [← Option.some.inj hfind]; decide⟩⟩

/-- The program fails, and isolate reports its time first, as it does. -/
def sampleTimeFirst : List (List Char) :=
  ["time:0".toList, "status:RE".toList, "exitcode:1".toList, "message:Exited with error status 1".toList]

/-- Cut after the time the report is one of success, for `verdict` and for a case with limits. -/
theorem cut_upgrades :
    ¬ NeverUpgraded sampleFloats none 0 sampleTimeFirst ∧
      ¬ NeverUpgraded sampleFloats (some ⟨2, 10, by decide⟩) 0 sampleTimeFirst := by
  have hfile := parseMeta_eq_ok_iff (F := sampleFloats).mpr
    ⟨(by decide : Short sampleTimeFirst), by decide, rfl⟩
  have hcut := parseMeta_eq_ok_iff (F := sampleFloats).mpr
    ⟨(by decide : Short (sampleTimeFirst.take 1)), by decide, rfl⟩
  exact ⟨fun h => h _ hfile (by decide) 1 _ hcut (by decide),
    fun h => h _ hfile (by decide) 1 _ hcut (by decide)⟩

end Sandbox

end Labyrithm
