import Labyrithm.Judge.Grading
import Labyrithm.Runner.Limits
import Labyrithm.Runner.Meta

/-!
# Batches in the sandbox

`RunBatch` of `backend/internal/runner/runner.go`: what it does to the sandbox around a program and its cases,
one effect after the other, up to what it defers.  What the sandbox, the files and the limiter answer, and how
long they take, is whatever it is, and may depend on all that has been done (`World`).

* `runCase`, `runCases`, `runBatch` — the code, with the trace of its effects.
* `execBox` — a run in the sandbox, which is repeated once where nothing was recorded.
* `Held.next` — what an effect asks for: a box that has been set up afresh, a workspace that has been restored.
* `runCases_run` — the cases that are run.
* `cost` — how long a trace may take.

**`batch_protocol`** — whatever happens, each case is run in a fresh box and a restored workspace, the results are
those of the first cases, all that was taken is given back, and no time is above the limit.
**`batch_deadline`** — where the small steps are quick, the deadline of the batch cuts no case short.
**`runCases_refines`** — for the judge, the loop is one that runs each case by itself.
-/

namespace Labyrithm

namespace Runner

open Go Sandbox
open Grading (BatchCase CaseRun BatchCaseResult RunErr)

/-! ## Effects -/

/-- `execOpts`, with the command and the time after which the context ends. -/
structure ExecOpts where
  cmd : List String
  cpuSeconds : ℚ
  wall : ℤ
  memoryKB : ℤ
  fsizeKB : ℤ
  stdin : Bool
  timeout : ℤ

inductive Effect
  | acquireSubmit
  | release
  | mkdirTemp
  | removeAll
  | makeWorkDir
  | initBox
  | cleanupBox
  | writeSource
  | compile (opts : ExecOpts)
  | newWorkspaceGuard
  | restore
  | writeStdin (ordinal : ℤ)
  | run (ordinal : ℤ) (opts : ExecOpts)
  /-- what was run just now, without `taskset` -/
  | rerun (opts : ExecOpts)
  | clearStdin

abbrev Trace := List Effect

/-- What a step in the sandbox leaves. -/
structure Ran where
  report : Meta
  stdout : List UInt8
  stderr : List UInt8

/-- What comes of the last effect of a trace: its error; whether it was a run under `taskset` that has left
no meta; what it leaves; and the time it takes, that of a run with its repetition. -/
structure World where
  fails : Trace → Option RunErr
  unrecorded : Trace → Bool
  ran : Trace → Ran
  takes : Trace → ℤ

/-! ## Results -/

def bytes (s : String) : List UInt8 := s.toUTF8.data.toList

lemma bytes_injective : Function.Injective bytes := by
  intro s t h
  rw [← String.toByteArray_inj]
  exact ByteArray.ext (Array.toList_inj.mp h)

def outputLimit : ℕ := 16 * 1024 * 1024

/-- `readCapped`. -/
def readCapped (data : List UInt8) : List UInt8 :=
  if data.length > outputLimit then data.take outputLimit ++ bytes "\n... (truncated)" else data

/-- `explainedStderr`. -/
def explainedStderr (stderr : List UInt8) (m : Meta) : List UInt8 :=
  if trimSpaceBytes stderr ≠ [] then stderr
  else if m.message ≠ [] then bytes (String.ofList m.message)
  else if m.status = Meta.statusTimedOut then bytes "Time limit exceeded"
  else if m.cgOOMKilled then bytes "Memory limit exceeded"
  else if m.status = Meta.statusSignalled ∧ (m.exitSig = 24 ∨ m.exitSig = 9) then
    bytes "Time limit exceeded"
  else if m.status = Meta.statusSignalled ∧ m.exitSig = 25 then bytes "Output limit exceeded"
  else if m.status = Meta.statusSignalled ∧ m.exitSig > 0 then
    bytes ("Process terminated by signal " ++ toString m.exitSig)
  else if m.status = Meta.statusRuntimeError ∧ m.exitCode ≠ 0 then
    bytes ("Process exited with status code " ++ toString m.exitCode)
  else []

/-- `combineOutput`. -/
def combineOutput (stdout stderr : List UInt8) : List UInt8 :=
  let stdout := trimSpaceBytes stdout
  let stderr := trimSpaceBytes stderr
  if stdout = [] then stderr else if stderr = [] then stdout else stdout ++ bytes "\n" ++ stderr

/-- `fmt.Errorf` with a `%w` at the end. -/
def wrap (text : String) : RunErr → RunErr
  | .sandboxUnavailable => .sandboxUnavailable
  | .other err => .other (text ++ ": " ++ err)

/-- What `RunBatch` has made of the request: the box, the language and the limits. -/
structure Program where
  boxID : ℕ
  sp : Spec
  limits : Effective

namespace Program

variable (p : Program)

def memoryKB : ℤ := p.limits.boxMemoryKB p.sp

def runCmd : List String :=
  p.sp.runCmd.map fun arg => arg.replace "\x7bmem\x7d" (toString p.limits.heapMB)

def compileOpts : ExecOpts where
  cmd := p.sp.compileCmd
  cpuSeconds := durationSeconds p.limits.compileTimeout
  wall := p.limits.compileTimeout
  memoryKB := p.limits.compileMemKB
  fsizeKB := 64 * 1024
  stdin := false
  timeout := p.limits.compileTimeout + sandboxGrace

def caseOpts (c : BatchCase) : ExecOpts where
  cmd := p.runCmd
  cpuSeconds := p.limits.cpu
  wall := p.limits.wall
  memoryKB := p.memoryKB
  fsizeKB := 16 * 1024
  stdin := c.stdin ≠ []
  timeout := p.limits.wall + sandboxGrace

/-- The verdict of a case. -/
def verdict (F : Floats) (m : Meta) : Verdict :=
  if m.timeCPU ≥ p.limits.cpu ∨ (p.limits.wall > 0 ∧ m.timeWall ≥ durationSeconds p.limits.wall) then .TLE
  else m.verdict F p.memoryKB

/-- `int64(x * 1000)`. -/
def millis (x : ℚ) : ℤ := ofFloat (float64 (x * 1000))

/-- The time of a case. -/
def timeMs (verdict : Verdict) (m : Meta) : ℤ :=
  let timeMs :=
    if m.timeCPU > 0 then millis m.timeCPU
    else if m.timeWall > 0 ∧ verdict = .TLE then millis m.timeWall
    else 0
  let limitMs := millis p.limits.cpu
  if verdict = .TLE ∧ (timeMs > limitMs ∨ timeMs ≤ 0) then limitMs else timeMs

def result (F : Floats) (c : BatchCase) (r : Ran) : BatchCaseResult where
  ordinal := c.ordinal
  stdout := readCapped r.stdout
  stderr := explainedStderr (readCapped r.stderr) r.report
  exitCode := r.report.exitCodeOrSignal
  timeMs := p.timeMs (p.verdict F r.report) r.report
  memoryKB := r.report.memoryKB
  verdict := p.verdict F r.report

/-- The text for a program that does not compile. -/
def compileText (r : Ran) : List UInt8 :=
  let exactErr := combineOutput (readCapped r.stdout) (readCapped r.stderr)
  if exactErr ≠ [] then exactErr
  else if r.report.status = Meta.statusTimedOut then bytes "compile timed out"
  else bytes ("compilation failed (exit code " ++ toString r.report.exitCodeOrSignal ++ ")")

end Program

/-! ## The code -/

section Code

variable {σ : Type} (w : World) (F : Floats) (p : Program) (onCase : σ → BatchCaseResult → σ)

/-- An effect that may fail. -/
def attempt (e : Effect) (wrapped : RunErr → RunErr) (tr : Trace) : Trace × Option RunErr :=
  (tr ++ [e], (w.fails (tr ++ [e])).map wrapped)

/-- What `execBox` makes of the meta, after the last effect. -/
def report (tr : Trace) : Except RunErr Ran :=
  match w.fails tr with
  | some err => .error err
  | none =>
      if (w.ran tr).report.status = Meta.statusInternal then
        .error (.other ("sandbox failed: " ++ String.ofList (w.ran tr).report.message))
      else .ok (w.ran tr)

/-- `execBox`: a run that has left no meta is repeated without `taskset`. -/
def execBox (e : Effect) (opts : ExecOpts) (tr : Trace) : Trace × Except RunErr Ran :=
  let tr := tr ++ [e]
  let tr := if (w.fails tr).isSome && w.unrecorded tr then tr ++ [.rerun opts] else tr
  (tr, report w tr)

/-- What precedes the run of a case: `restore`, `resetBox` and the input. -/
def prepare (c : BatchCase) (tr : Trace) : Trace × Option RunErr :=
  match attempt w .restore id tr with
  | (tr, some err) => (tr, some err)
  | (tr, none) =>
      match attempt w .initBox (wrap s!"resetting box {p.boxID}") (tr ++ [.cleanupBox]) with
      | (tr, some err) => (tr, some err)
      | (tr, none) =>
          if c.stdin = [] then (tr, none)
          else attempt w (.writeStdin c.ordinal) (wrap s!"writing stdin for case {c.ordinal}") tr

def runCase (c : BatchCase) (tr : Trace) : Trace × Except RunErr BatchCaseResult :=
  match prepare w p c tr with
  | (tr, some err) => (tr, .error err)
  | (tr, none) =>
      let (tr, ran) := execBox w (.run c.ordinal (p.caseOpts c)) (p.caseOpts c) tr
      let tr := if c.stdin = [] then tr else tr ++ [.clearStdin]
      (tr, match ran with
        | .error err => .error (wrap s!"executing case {c.ordinal}" err)
        | .ok r => .ok (p.result F c r))

/-- The loop over the cases: the trace, the results, the error, and what `OnCase` has made of the results. -/
def runCases : List BatchCase → List BatchCaseResult → σ → Trace →
    Trace × List BatchCaseResult × Option RunErr × σ
  | [], results, s, tr => (tr, results, none, s)
  | c :: cases, results, s, tr =>
      match runCase w F p c tr with
      | (tr, .error err) => (tr, results, some err, s)
      | (tr, .ok res) => runCases cases (results ++ [res.blanked]) (onCase s res) tr

/-- What `RunBatch` returns, and the trace. -/
structure Outcome (σ : Type) where
  compileError : List UInt8
  results : List BatchCaseResult
  err : Option RunErr
  state : σ
  trace : Trace

/-- An error before the first case. -/
def Outcome.failed (err : RunErr) (s : σ) (tr : Trace) : Outcome σ := ⟨[], [], some err, s, tr⟩

/-- A deferred effect. -/
def Outcome.deferred (o : Outcome σ) (e : Effect) : Outcome σ := { o with trace := o.trace ++ [e] }

/-- The compilation: the text of an error, or nothing. -/
def compileSource (tr : Trace) : Trace × Except RunErr (List UInt8) :=
  if p.sp.compileCmd = [] then (tr, .ok [])
  else
    let (tr, ran) := execBox w (.compile p.compileOpts) p.compileOpts tr
    (tr, ran.map fun r =>
      if r.report.status = Meta.statusTimedOut ∨ r.report.exitCodeOrSignal ≠ 0 then Program.compileText r
      else [])

/-- `RunBatch` once the source is written. -/
def withSource (cases : List BatchCase) (s : σ) (tr : Trace) : Outcome σ :=
  match compileSource w p tr with
  | (tr, .error err) => .failed err s tr
  | (tr, .ok (ch :: text)) => ⟨ch :: text, [], none, s, tr⟩
  | (tr, .ok []) =>
      match attempt w .newWorkspaceGuard id tr with
      | (tr, some err) => .failed err s tr
      | (tr, none) =>
          let (tr, results, err, s) := runCases w F p onCase cases [] s tr
          ⟨[], results, err, s, tr⟩

/-- `RunBatch` once the box is there. -/
def withBox (cases : List BatchCase) (s : σ) (tr : Trace) : Outcome σ :=
  match attempt w .writeSource (wrap "writing source") tr with
  | (tr, some err) => .failed err s tr
  | (tr, none) => withSource w F p onCase cases s tr

/-- `RunBatch` once the directory is there. -/
def withDir (cases : List BatchCase) (s : σ) (tr : Trace) : Outcome σ :=
  match attempt w .makeWorkDir id tr with
  | (tr, some err) => .failed err s tr
  | (tr, none) =>
      match attempt w .initBox (wrap s!"init box {p.boxID}") tr with
      | (tr, some err) => .failed err s tr
      | (tr, none) => (withBox w F p onCase cases s tr).deferred .cleanupBox

/-- `RunBatch` once it has a slot. -/
def withSlot (cases : List BatchCase) (s : σ) (tr : Trace) : Outcome σ :=
  match attempt w .mkdirTemp (wrap "creating workspace") tr with
  | (tr, some err) => .failed err s tr
  | (tr, none) => (withDir w F p onCase cases s tr).deferred .removeAll

/-- `RunBatch` once the language is known. -/
def withProgram (cases : List BatchCase) (s : σ) : Outcome σ :=
  match attempt w .acquireSubmit id [] with
  | (tr, some err) => .failed err s tr
  | (tr, none) => (withSlot w F p onCase cases s tr).deferred .release

/-- `RunBatch`, where the box of the slot is `boxID`. -/
def runBatch (cfg : Defaults) (boxID : ℕ) (lang : List Char) (limits : Limits) (cases : List BatchCase)
    (s : σ) : Outcome σ :=
  match language lang with
  | none => .failed (.other ("unsupported language: " ++ String.ofList lang)) s []
  | some sp => withProgram w F ⟨boxID, sp, effective cfg limits sp⟩ onCase cases s

end Code

/-! ## What is held -/

/-- What has been taken, what the next case may rely on, and whether the last effect was a run that has
failed. -/
structure Held where
  slot : Bool := false
  dir : Bool := false
  box : Bool := false
  fresh : Bool := false
  guarded : Bool := false
  restored : Bool := false
  failed : Bool := false
  deriving DecidableEq

def Effect.isRun : Effect → Bool
  | .compile _ | .run .. => true
  | _ => false

/-- What an effect does to what is held, and `none` where it is out of place. -/
def Held.place (h : Held) (ok : Bool) : Effect → Option Held
  | .acquireSubmit => if !h.slot then some { h with slot := ok } else none
  | .mkdirTemp => if h.slot && !h.dir then some { h with dir := ok } else none
  | .makeWorkDir => if h.dir then some h else none
  | .initBox => if h.dir && !h.box then some { h with box := ok, fresh := ok } else none
  | .writeSource => if h.box then some h else none
  | .compile _ => if h.box && h.fresh then some { h with fresh := false } else none
  | .newWorkspaceGuard => if h.box then some { h with guarded := ok } else none
  | .restore => if h.guarded then some { h with restored := ok } else none
  | .writeStdin _ => if h.fresh && h.restored then some h else none
  | .run _ _ =>
      if h.box && h.fresh && h.restored then some { h with fresh := false, restored := false } else none
  | .rerun _ => if h.box && h.failed then some h else none
  | .clearStdin => if h.dir then some h else none
  | .cleanupBox => if h.dir then some { h with box := false, fresh := false } else none
  | .removeAll =>
      if h.dir && !h.box then some { h with dir := false, guarded := false, restored := false } else none
  | .release => if h.slot && !h.dir then some { h with slot := false } else none

def Held.next (h : Held) (ok : Bool) (e : Effect) : Option Held :=
  (h.place ok e).map fun h' => { h' with failed := e.isRun && !ok }

/-- The effects after those that are done. -/
def World.monitorFrom (w : World) (done : Trace) : Trace → Held → Option Held
  | [], h => some h
  | e :: tr, h => (h.next (w.fails (done ++ [e])).isNone e).bind (w.monitorFrom (done ++ [e]) tr)

/-- What is held after a trace, if every effect was in its place. -/
def World.monitor (w : World) (tr : Trace) : Option Held := w.monitorFrom [] tr {}

/-- The cases that were run. -/
def ranOrdinals (tr : Trace) : List ℤ :=
  tr.filterMap fun
    | .run ordinal _ => some ordinal
    | _ => none

section Protocol

variable {σ : Type} {w : World} {F : Floats} {p : Program} {onCase : σ → BatchCaseResult → σ}
  {tr : Trace} {h : Held} {e : Effect} {c : BatchCase} {s : σ}

lemma monitorFrom_concat (done tr : Trace) (h : Held) : w.monitorFrom done (tr ++ [e]) h =
    (w.monitorFrom done tr h).bind fun h => h.next (w.fails (done ++ tr ++ [e])).isNone e := by
  induction tr generalizing done h with
  | nil => simp [World.monitorFrom]
  | cons e' tr ih =>
      rw [List.cons_append, World.monitorFrom, World.monitorFrom]
      cases h.next (w.fails (done ++ [e'])).isNone e' with
      | none => rfl
      | some h' =>
          rw [Option.bind_some, Option.bind_some, ih]
          simp

/-- One more effect. -/
lemma monitor_concat (hm : w.monitor tr = some h) :
    w.monitor (tr ++ [e]) = h.next (w.fails (tr ++ [e])).isNone e := by
  rw [World.monitor, monitorFrom_concat, ← World.monitor, hm, Option.bind_some, List.nil_append]

@[simp] lemma ranOrdinals_append (tr tr' : Trace) :
    ranOrdinals (tr ++ tr') = ranOrdinals tr ++ ranOrdinals tr' := List.filterMap_append

@[simp] lemma ranOrdinals_nil : ranOrdinals [] = [] := rfl

@[simp] lemma ranOrdinals_run (ordinal : ℤ) (opts : ExecOpts) :
    ranOrdinals [.run ordinal opts] = [ordinal] := rfl

/-- Between two cases. -/
structure Held.Between (h : Held) : Prop where
  slot : h.slot = true
  dir : h.dir = true
  guarded : h.guarded = true

lemma prepare_spec (hm : w.monitor tr = some h) (hopen : h.Between) :
    ∃ h', w.monitor (prepare w p c tr).1 = some h' ∧ h'.Between ∧
      ((prepare w p c tr).2 = none → h'.box = true ∧ h'.fresh = true ∧ h'.restored = true) ∧
      ranOrdinals (prepare w p c tr).1 = ranOrdinals tr := by
  obtain ⟨slot, dir, box, fresh, guarded, restored, failed⟩ := h
  obtain ⟨rfl, rfl, rfl⟩ := hopen
  have hrestore := monitor_concat (e := .restore) hm
  cases hf : w.fails (tr ++ [.restore]) with
  | some err =>
      simp only [prepare, attempt, hf, Option.map_some]
      rw [hf] at hrestore
      exact ⟨_, hrestore, ⟨rfl, rfl, rfl⟩, nofun, by simp [ranOrdinals]⟩
  | none =>
      rw [hf] at hrestore
      have hclean := monitor_concat (e := .cleanupBox) hrestore
      have hinit := monitor_concat (e := .initBox) hclean
      cases hf' : w.fails (tr ++ [.restore] ++ [.cleanupBox] ++ [.initBox]) with
      | some err =>
          rw [hf'] at hinit
          simp only [prepare, attempt, hf, hf', Option.map_some, Option.map_none]
          exact ⟨_, hinit, ⟨rfl, rfl, rfl⟩, nofun, by simp [ranOrdinals]⟩
      | none =>
          rw [hf'] at hinit
          simp only [prepare, attempt, hf, hf', Option.map_none]
          by_cases hstdin : c.stdin = []
          · rw [if_pos hstdin]
            exact ⟨_, hinit, ⟨rfl, rfl, rfl⟩, fun _ => ⟨rfl, rfl, rfl⟩, by simp [ranOrdinals]⟩
          · rw [if_neg hstdin]
            have hwrite := monitor_concat (e := .writeStdin c.ordinal) hinit
            exact ⟨_, hwrite, ⟨rfl, rfl, rfl⟩, fun _ => ⟨rfl, rfl, rfl⟩, by simp [ranOrdinals]⟩

/-- A run, and perhaps its repetition. -/
lemma execBox_spec (e : Effect) (opts : ExecOpts) {h' : Held} (hm : w.monitor tr = some h)
    (hnext : ∀ ok, h.next ok e = some { h' with failed := !ok }) (hbox : h'.box = true) :
    ∃ failed, w.monitor (execBox w e opts tr).1 = some { h' with failed := failed } ∧
      ranOrdinals (execBox w e opts tr).1 = ranOrdinals tr ++ ranOrdinals [e] := by
  obtain ⟨slot, dir, box, fresh, guarded, restored, _⟩ := h'
  obtain rfl : box = true := hbox
  have hrun := monitor_concat (e := e) hm
  rw [hnext] at hrun
  have hran := ranOrdinals_append tr [e]
  by_cases hagain : (w.fails (tr ++ [e])).isSome && w.unrecorded (tr ++ [e])
  · have hfailed : (!(w.fails (tr ++ [e])).isNone) = true := by
      simpa using (Bool.and_eq_true_iff.mp hagain).1
    rw [hfailed] at hrun
    have hrerun : w.monitor (tr ++ [e] ++ [.rerun opts]) =
        some ⟨slot, dir, true, fresh, guarded, restored, false⟩ := monitor_concat hrun
    refine ⟨false, by simpa only [execBox, if_pos hagain] using hrerun, ?_⟩
    simp only [execBox, if_pos hagain]
    rw [ranOrdinals_append, hran]
    exact List.append_nil _
  · exact ⟨_, by simpa only [execBox, if_neg hagain] using hrun,
      by simpa only [execBox, if_neg hagain] using hran⟩

/-- A case: what was run of it, and the result. -/
lemma runCase_spec (hm : w.monitor tr = some h) (hopen : h.Between) :
    ∃ h', w.monitor (runCase w F p c tr).1 = some h' ∧ h'.Between ∧
      (ranOrdinals (runCase w F p c tr).1 = ranOrdinals tr ∨
        ranOrdinals (runCase w F p c tr).1 = ranOrdinals tr ++ [c.ordinal]) ∧
      ∀ res, (runCase w F p c tr).2 = .ok res →
        ranOrdinals (runCase w F p c tr).1 = ranOrdinals tr ++ [c.ordinal] ∧ ∃ r, res = p.result F c r := by
  obtain ⟨h', hm', hopen', hready, hran⟩ := prepare_spec (p := p) (c := c) hm hopen
  delta runCase
  generalize prepare w p c tr = prepared at hm' hready hran ⊢
  obtain ⟨tr', err⟩ := prepared
  cases err with
  | some err => exact ⟨h', hm', hopen', .inl hran, fun res hres => by cases hres⟩
  | none =>
      obtain ⟨slot, dir, box, fresh, guarded, restored, failed⟩ := h'
      obtain ⟨rfl, rfl, rfl⟩ := hopen'
      obtain ⟨rfl, rfl, rfl⟩ := hready rfl
      obtain ⟨failed', hrun, hran'⟩ :=
        execBox_spec (.run c.ordinal (p.caseOpts c)) (p.caseOpts c) hm' (fun _ => rfl) rfl
      dsimp only
      generalize execBox w (.run c.ordinal (p.caseOpts c)) (p.caseOpts c) tr' = executed at hrun hran' ⊢
      obtain ⟨tr'', ran⟩ := executed
      dsimp only at hrun hran' ⊢
      have hclear := monitor_concat (e := .clearStdin) hrun
      have hordinals : ranOrdinals tr'' = ranOrdinals tr ++ [c.ordinal] := by
        rw [hran', hran, ranOrdinals_run]
      have hresult : ∀ res, (match ran with
          | .error err => .error (wrap s!"executing case {c.ordinal}" err)
          | .ok r => .ok (p.result F c r) : Except RunErr BatchCaseResult) = .ok res →
          ∃ r, res = p.result F c r := by
        intro res hres
        split at hres
        · cases hres
        · exact ⟨_, (Except.ok.inj hres).symm⟩
      by_cases hstdin : c.stdin = []
      · rw [if_pos hstdin]
        exact ⟨_, hrun, ⟨rfl, rfl, rfl⟩, .inr hordinals, fun res hres => ⟨hordinals, hresult res hres⟩⟩
      · rw [if_neg hstdin]
        have hordinals' : ranOrdinals (tr'' ++ [.clearStdin]) = ranOrdinals tr ++ [c.ordinal] := by
          rw [ranOrdinals_append, hordinals]
          exact List.append_nil _
        exact ⟨_, hclear, ⟨rfl, rfl, rfl⟩, .inr hordinals', fun res hres => ⟨hordinals', hresult res hres⟩⟩

/-- The loop: `n` results, and `m` cases that were run, the last of which may have failed. -/
lemma runCases_run {cases : List BatchCase} {results : List BatchCaseResult} (hm : w.monitor tr = some h)
    (hopen : h.Between) :
    ∃ h', w.monitor (runCases w F p onCase cases results s tr).1 = some h' ∧ h'.Between ∧
      ∃ n m rs, n ≤ m ∧ m ≤ n + 1 ∧ m ≤ cases.length ∧
        (runCases w F p onCase cases results s tr).2.1 = results ++ rs ∧
        rs.map BatchCaseResult.ordinal = (cases.take n).map BatchCase.ordinal ∧
        ranOrdinals (runCases w F p onCase cases results s tr).1 =
          ranOrdinals tr ++ (cases.take m).map BatchCase.ordinal ∧
        ((runCases w F p onCase cases results s tr).2.2.1 = none → n = cases.length) ∧
        ∀ res ∈ rs, ∃ c r, res = (p.result F c r).blanked := by
  induction cases generalizing results s tr h with
  | nil =>
      refine ⟨h, hm, hopen, 0, 0, [], le_refl _, by omega, le_refl _, by simp [runCases], rfl, ?_, fun _ => rfl,
        fun res hres => absurd hres List.not_mem_nil⟩
      simp [runCases]
  | cons c cases ih =>
      obtain ⟨h', hm', hopen', hran, hok⟩ := runCase_spec (F := F) (p := p) (c := c) hm hopen
      rw [runCases]
      generalize runCase w F p c tr = ran at hm' hran hok ⊢
      obtain ⟨tr', result⟩ := ran
      cases result with
      | error err =>
          rcases hran with hran | hran
          · refine ⟨h', hm', hopen', 0, 0, [], le_refl _, by omega, Nat.zero_le _, by simp, rfl, ?_,
              nofun, fun res hres => absurd hres List.not_mem_nil⟩
            rw [hran]
            simp
          · refine ⟨h', hm', hopen', 0, 1, [], by omega, le_refl _, by simp, by simp, rfl, ?_,
              nofun, fun res hres => absurd hres List.not_mem_nil⟩
            rw [hran]
            simp
      | ok res =>
          obtain ⟨hran', r, rfl⟩ := hok res rfl
          obtain ⟨h'', hm'', hopen'', n, m, rs, hnm, hmn, hmlen, hresults, hordinals, hrun, hnone, hrs⟩ :=
            @ih _ _ (onCase s (p.result F c r)) (results ++ [(p.result F c r).blanked]) hm' hopen'
          refine ⟨h'', hm'', hopen'', n + 1, m + 1, (p.result F c r).blanked :: rs, by omega, by omega,
            by simpa using hmlen, ?_, ?_, ?_, fun h => by simpa using hnone h, ?_⟩
          · rw [hresults]
            simp
          · rw [List.map_cons, hordinals, List.take_succ_cons, List.map_cons]
            rfl
          · rw [hrun, hran', List.take_succ_cons, List.map_cons]
            simp
          · intro res hres
            rcases List.mem_cons.mp hres with rfl | hres
            · exact ⟨c, r, rfl⟩
            · exact hrs res hres

/-- What a batch returns: `n` results, of `m` cases that were run. -/
structure Good (F : Floats) (p : Program) (cases : List BatchCase) (o : Outcome σ) : Prop where
  ran : ∃ n m, n ≤ m ∧ m ≤ n + 1 ∧ m ≤ cases.length ∧
    o.results.map BatchCaseResult.ordinal = (cases.take n).map BatchCase.ordinal ∧
    ranOrdinals o.trace = (cases.take m).map BatchCase.ordinal ∧
    (o.err = none → o.compileError = [] → n = cases.length)
  results : ∀ res ∈ o.results, ∃ c r, res = (p.result F c r).blanked

variable {cases : List BatchCase} {o : Outcome σ}

/-- A batch that ends before its first case. -/
lemma Good.of_nil (hran : ranOrdinals o.trace = []) (hresults : o.results = [])
    (hfailed : o.err ≠ none ∨ o.compileError ≠ []) : Good F p cases o where
  ran := by
    refine ⟨0, 0, le_refl _, by omega, Nat.zero_le _, by simp [hresults], by simp [hran], fun herr htext => ?_⟩
    rcases hfailed with h | h
    · exact absurd herr h
    · exact absurd htext h
  results := fun res hres => by
    rw [hresults] at hres
    cases hres

lemma Good.deferred (h : Good F p cases o) (he : ranOrdinals [e] = []) : Good F p cases (o.deferred e) where
  ran := by
    have hsame : ranOrdinals (o.deferred e).trace = ranOrdinals o.trace := by
      rw [Outcome.deferred, ranOrdinals_append, he, List.append_nil]
    rw [hsame]
    exact h.ran
  results := h.results

lemma withSource_spec (hm : w.monitor tr = some h)
    (hheld : h.slot = true ∧ h.dir = true ∧ h.box = true ∧ h.fresh = true) (hran : ranOrdinals tr = []) :
    ∃ h', w.monitor (withSource w F p onCase cases s tr).trace = some h' ∧
      (h'.slot = true ∧ h'.dir = true) ∧ Good F p cases (withSource w F p onCase cases s tr) := by
  obtain ⟨slot, dir, box, fresh, guarded, restored, failed⟩ := h
  obtain ⟨rfl, rfl, rfl, rfl⟩ := hheld
  obtain ⟨h', hm', hheld', hran'⟩ : ∃ h', w.monitor (compileSource w p tr).1 = some h' ∧
      (h'.slot = true ∧ h'.dir = true ∧ h'.box = true) ∧ ranOrdinals (compileSource w p tr).1 = [] := by
    delta compileSource
    split_ifs
    · exact ⟨_, hm, ⟨rfl, rfl, rfl⟩, hran⟩
    · obtain ⟨failed', hrun, hran'⟩ :=
        execBox_spec (.compile p.compileOpts) p.compileOpts hm (fun _ => rfl) rfl
      exact ⟨_, hrun, ⟨rfl, rfl, rfl⟩, by rw [hran', hran]; rfl⟩
  delta withSource
  generalize compileSource w p tr = compiled at hm' hran' ⊢
  obtain ⟨tr', compiled⟩ := compiled
  obtain ⟨slot, dir, box, fresh, guarded, restored, failed⟩ := h'
  obtain ⟨rfl, rfl, rfl⟩ := hheld'
  match compiled with
  | .error err => exact ⟨_, hm', ⟨rfl, rfl⟩, .of_nil hran' rfl (.inl nofun)⟩
  | .ok (ch :: text) => exact ⟨_, hm', ⟨rfl, rfl⟩, .of_nil hran' rfl (.inr nofun)⟩
  | .ok [] =>
      have hguard := monitor_concat (e := .newWorkspaceGuard) hm'
      have hran'' : ranOrdinals (tr' ++ [.newWorkspaceGuard]) = [] := by
        rw [ranOrdinals_append, hran']
        rfl
      dsimp only [attempt]
      cases hf : w.fails (tr' ++ [.newWorkspaceGuard]) with
      | some err => exact ⟨_, hguard, ⟨rfl, rfl⟩, .of_nil hran'' rfl (.inl nofun)⟩
      | none =>
          rw [hf] at hguard
          obtain ⟨h'', hm'', hopen, n, m, rs, hnm, hmn, hmlen, hresults, hordinals, hrun, hnone, hrs⟩ :=
            @runCases_run σ w F p onCase _ _ s cases [] hguard ⟨rfl, rfl, rfl⟩
          rw [List.nil_append] at hresults
          rw [hran'', List.nil_append] at hrun
          refine ⟨h'', hm'', ⟨hopen.slot, hopen.dir⟩, ⟨n, m, hnm, hmn, hmlen, ?_, hrun, fun herr _ => hnone herr⟩,
            fun res hres => hrs res ?_⟩
          · rw [← hordinals, ← hresults]
            rfl
          · rw [← hresults]
            exact hres

lemma withBox_spec (hm : w.monitor tr = some h)
    (hheld : h.slot = true ∧ h.dir = true ∧ h.box = true ∧ h.fresh = true) (hran : ranOrdinals tr = []) :
    ∃ h', w.monitor (withBox w F p onCase cases s tr).trace = some h' ∧
      (h'.slot = true ∧ h'.dir = true) ∧ Good F p cases (withBox w F p onCase cases s tr) := by
  obtain ⟨slot, dir, box, fresh, guarded, restored, failed⟩ := h
  obtain ⟨rfl, rfl, rfl, rfl⟩ := hheld
  have hwrite := monitor_concat (e := .writeSource) hm
  have hran' : ranOrdinals (tr ++ [.writeSource]) = [] := by
    rw [ranOrdinals_append, hran]
    rfl
  delta withBox attempt
  cases hf : w.fails (tr ++ [.writeSource]) with
  | some err => exact ⟨_, hwrite, ⟨rfl, rfl⟩, .of_nil hran' rfl (.inl nofun)⟩
  | none => exact withSource_spec hwrite ⟨rfl, rfl, rfl, rfl⟩ hran'

lemma withDir_spec (hm : w.monitor tr = some h)
    (hheld : h.slot = true ∧ h.dir = true ∧ h.box = false ∧ h.fresh = false) (hran : ranOrdinals tr = []) :
    ∃ h', w.monitor (withDir w F p onCase cases s tr).trace = some h' ∧
      (h'.slot = true ∧ h'.dir = true ∧ h'.box = false ∧ h'.fresh = false) ∧
      Good F p cases (withDir w F p onCase cases s tr) := by
  obtain ⟨slot, dir, box, fresh, guarded, restored, failed⟩ := h
  obtain ⟨rfl, rfl, rfl, rfl⟩ := hheld
  have hwork := monitor_concat (e := .makeWorkDir) hm
  have hinit := monitor_concat (e := .initBox) hwork
  have hran' : ranOrdinals (tr ++ [.makeWorkDir]) = [] := by
    rw [ranOrdinals_append, hran]
    rfl
  have hran'' : ranOrdinals (tr ++ [.makeWorkDir] ++ [.initBox]) = [] := by
    rw [ranOrdinals_append, hran']
    rfl
  delta withDir attempt
  cases hf : w.fails (tr ++ [.makeWorkDir]) with
  | some err => exact ⟨_, hwork, ⟨rfl, rfl, rfl, rfl⟩, .of_nil hran' rfl (.inl nofun)⟩
  | none =>
      dsimp only [Option.map_none, attempt]
      cases hf' : w.fails (tr ++ [.makeWorkDir] ++ [.initBox]) with
      | some err =>
          rw [hf'] at hinit
          exact ⟨_, hinit, ⟨rfl, rfl, rfl, rfl⟩, .of_nil hran'' rfl (.inl nofun)⟩
      | none =>
          rw [hf'] at hinit
          obtain ⟨h', hm', ⟨hslot, hdir⟩, hgood⟩ :=
            @withBox_spec σ w F p onCase _ _ s cases hinit ⟨rfl, rfl, rfl, rfl⟩ hran''
          have hclean := monitor_concat (e := .cleanupBox) hm'
          rw [Held.next, Held.place, if_pos hdir] at hclean
          exact ⟨_, hclean, ⟨hslot, hdir, rfl, rfl⟩, hgood.deferred rfl⟩

lemma withSlot_spec (hm : w.monitor tr = some { slot := true }) (hran : ranOrdinals tr = []) :
    w.monitor (withSlot w F p onCase cases s tr).trace = some { slot := true } ∧
      Good F p cases (withSlot w F p onCase cases s tr) := by
  have hmkdir := monitor_concat (e := .mkdirTemp) hm
  have hran' : ranOrdinals (tr ++ [.mkdirTemp]) = [] := by
    rw [ranOrdinals_append, hran]
    rfl
  delta withSlot attempt
  cases hf : w.fails (tr ++ [.mkdirTemp]) with
  | some err =>
      rw [hf] at hmkdir
      exact ⟨hmkdir, .of_nil hran' rfl (.inl nofun)⟩
  | none =>
      rw [hf] at hmkdir
      obtain ⟨h', hm', ⟨hslot, hdir, hbox, hfresh⟩, hgood⟩ :=
        @withDir_spec σ w F p onCase _ _ s cases hmkdir ⟨rfl, rfl, rfl, rfl⟩ hran'
      have hremove := monitor_concat (e := .removeAll) hm'
      obtain ⟨slot, dir, box, fresh, guarded, restored, failed⟩ := h'
      dsimp only at hslot hdir hbox hfresh
      rw [hslot, hdir, hbox, hfresh] at hremove
      exact ⟨hremove, hgood.deferred rfl⟩

lemma withProgram_spec : w.monitor (withProgram w F p onCase cases s).trace = some {} ∧
    Good F p cases (withProgram w F p onCase cases s) := by
  have hacquire := @monitor_concat w [] {} .acquireSubmit rfl
  delta withProgram attempt
  cases hf : w.fails ([] ++ [.acquireSubmit]) with
  | some err =>
      rw [hf] at hacquire
      exact ⟨hacquire, .of_nil rfl rfl (.inl nofun)⟩
  | none =>
      rw [hf] at hacquire
      obtain ⟨hm, hgood⟩ :=
        @withSlot_spec σ w F p onCase _ s cases hacquire rfl
      have hrelease := monitor_concat (e := .release) hm
      exact ⟨hrelease, hgood.deferred rfl⟩

/-! ## Times -/

lemma millis_mono {x y : ℚ} (hx : 0 < x) (h : x ≤ y) : Program.millis x ≤ Program.millis y := by
  have hpos : 0 < x * 1000 := by linarith
  have hle : x * 1000 ≤ y * 1000 := by linarith
  rw [Program.millis, Program.millis, ofFloat, ofFloat, if_pos (float64_nonneg hpos.le),
    if_pos (float64_nonneg (hpos.le.trans hle))]
  exact Int.floor_le_floor (float64_mono hpos hle)

lemma millis_nonneg {x : ℚ} (hx : 0 < x) : 0 ≤ Program.millis x := by
  have hpos : 0 ≤ x * 1000 := by linarith
  rw [Program.millis, ofFloat, if_pos (float64_nonneg hpos)]
  exact Int.floor_nonneg.mpr (float64_nonneg hpos)

/-- No time is above the limit, whatever is reported. -/
lemma timeMs_bounds (hcpu : 0 < p.limits.cpu) (m : Meta) :
    0 ≤ p.timeMs (p.verdict F m) m ∧ p.timeMs (p.verdict F m) m ≤ Program.millis p.limits.cpu := by
  have hlimit := millis_nonneg hcpu
  rw [Program.timeMs]
  by_cases htle : p.verdict F m = .TLE
  · by_cases hout : (if m.timeCPU > 0 then Program.millis m.timeCPU
      else if m.timeWall > 0 ∧ p.verdict F m = .TLE then Program.millis m.timeWall else 0) >
        Program.millis p.limits.cpu ∨ (if m.timeCPU > 0 then Program.millis m.timeCPU
      else if m.timeWall > 0 ∧ p.verdict F m = .TLE then Program.millis m.timeWall else 0) ≤ 0
    · rw [if_pos ⟨htle, hout⟩]
      exact ⟨hlimit, le_refl _⟩
    · rw [if_neg fun h => hout h.2]
      rw [not_or, not_lt, not_le] at hout
      exact ⟨hout.2.le, hout.1⟩
  · have hless : m.timeCPU < p.limits.cpu := by
      by_contra hge
      exact htle (by rw [Program.verdict, if_pos (.inl (not_lt.mp hge))])
    rw [if_neg fun h => htle h.1]
    by_cases hpos : m.timeCPU > 0
    · rw [if_pos hpos]
      exact ⟨millis_nonneg hpos, millis_mono hpos hless.le⟩
    · rw [if_neg hpos, if_neg fun h => htle h.2]
      exact ⟨le_refl _, hlimit⟩

lemma effective_cpu_pos (cfg : Defaults) (l : Limits) {name : List Char} {sp : Spec}
    (h : specOf name = some sp) : 0 < (effective cfg l sp).cpu := by
  obtain ⟨f, hf, hone, -⟩ := specs_timeFactor h
  have hbase : 0 < positive l.cpuSeconds cfg.cpuSeconds 2 := by
    rw [positive]
    split_ifs with hl hc
    · norm_num
    · exact not_le.mp hc
    · exact not_le.mp hl
  have hfactor : (0 : ℚ) < sp.timeFactor := by
    rw [hf]
    exact_mod_cast hone
  have hpos : 0 < positive l.cpuSeconds cfg.cpuSeconds 2 * sp.timeFactor := mul_pos hbase hfactor
  exact lt_of_lt_of_le (by positivity) (zpow_log_le_float64 hpos)

/-- **The protocol of a batch.**  Whatever the sandbox answers, every effect is in its place, so that a case is
run in a box that was set up afresh and a workspace that was restored, a repetition follows at once on a
run that has failed, and in the end nothing is held.  The cases that were run are the first ones, in their order
and once each but for repetitions; all of them but perhaps the last have a result, and without an error all
have; and no time is negative or above the limit. -/
theorem batch_protocol (w : World) (F : Floats) (onCase : σ → BatchCaseResult → σ) (cfg : Defaults) (boxID : ℕ)
    (lang : List Char) (limits : Limits) (cases : List BatchCase) (s : σ) :
    let o := runBatch w F onCase cfg boxID lang limits cases s
    w.monitor o.trace = some {} ∧
    (∃ n m, n ≤ m ∧ m ≤ n + 1 ∧ m ≤ cases.length ∧
      o.results.map BatchCaseResult.ordinal = (cases.take n).map BatchCase.ordinal ∧
      ranOrdinals o.trace = (cases.take m).map BatchCase.ordinal ∧
      (o.err = none → o.compileError = [] → n = cases.length)) ∧
    ∀ res ∈ o.results, 0 ≤ res.timeMs ∧
      ∃ sp ∈ language lang, res.timeMs ≤ Program.millis (effective cfg limits sp).cpu := by
  intro o
  cases hlang : language lang with
  | none =>
      have ho : o = .failed (.other ("unsupported language: " ++ String.ofList lang)) s [] := by
        simp only [o, runBatch, hlang]
      have hgood : Good F ⟨boxID, specC, effective cfg limits specC⟩ cases o := by
        rw [ho]
        exact .of_nil rfl rfl (.inl nofun)
      refine ⟨by rw [ho]; rfl, hgood.ran, fun res hres => ?_⟩
      rw [ho] at hres
      cases hres
  | some sp =>
      have ho : o = withProgram w F ⟨boxID, sp, effective cfg limits sp⟩ onCase cases s := by
        simp only [o, runBatch, hlang]
      obtain ⟨hm, hgood⟩ :=
        @withProgram_spec σ w F ⟨boxID, sp, effective cfg limits sp⟩ onCase s cases
      rw [← ho] at hm hgood
      refine ⟨hm, hgood.ran, fun res hres => ?_⟩
      obtain ⟨c, r, rfl⟩ := hgood.results res hres
      have hbounds := timeMs_bounds (F := F) (p := ⟨boxID, sp, effective cfg limits sp⟩)
        (effective_cpu_pos cfg limits hlang) r.report
      exact ⟨hbounds.1, sp, rfl, hbounds.2⟩

end Protocol

/-! ## The judge's batch -/

section Refinement

variable {σ : Type} {w : World} {F : Floats} {p : Program} {onCase : σ → BatchCaseResult → σ}
  {cases : List BatchCase} {tr : Trace} {s : σ} {o : Outcome σ}

lemma runCases_congr {execute execute' : Grading.Execute} {results : List BatchCaseResult}
    (h : ∀ c ∈ cases, execute c = execute' c) :
    Grading.runCases execute onCase cases results s = Grading.runCases execute' onCase cases results s := by
  induction cases generalizing results s with
  | nil => rfl
  | cons c cases ih =>
      rw [Grading.runCases, Grading.runCases, h c List.mem_cons_self]
      cases execute' c with
      | error err => rfl
      | ok run => exact ih fun c' hc' => h c' (List.mem_cons_of_mem c hc')

lemma runCase_ordinal {c : BatchCase} {res : BatchCaseResult} (h : (runCase w F p c tr).2 = .ok res) :
    res.ordinal = c.ordinal := by
  delta runCase at h
  generalize prepare w p c tr = prepared at h
  obtain ⟨tr', err⟩ := prepared
  cases err with
  | some err => cases h
  | none =>
      dsimp only at h
      split at h
      · cases h
      · rw [← Except.ok.inj h]
        rfl

/-- **The loop for the judge.**  What a case brings may depend on all that was done before, and yet it is as if
each case was run by itself, where no two have the same ordinal. -/
lemma runCases_refines {results : List BatchCaseResult} (h : (cases.map BatchCase.ordinal).Nodup) :
    ∃ execute : Grading.Execute, Grading.runCases execute onCase cases results s =
      (runCases w F p onCase cases results s tr).2 := by
  induction cases generalizing results s tr with
  | nil => exact ⟨fun _ => .error .sandboxUnavailable, rfl⟩
  | cons c cases ih =>
      rw [List.map_cons, List.nodup_cons] at h
      have hordinal := fun res => @runCase_ordinal w F p tr c res
      rw [runCases]
      generalize runCase w F p c tr = ran at hordinal ⊢
      obtain ⟨tr', result⟩ := ran
      cases result with
      | error err => exact ⟨fun _ => .error err, rfl⟩
      | ok res =>
          obtain ⟨execute, hexecute⟩ := @ih tr' (onCase s res) (results ++ [res.blanked]) h.2
          refine ⟨fun c' => if c'.ordinal = c.ordinal then .ok res.toCaseRun else execute c', ?_⟩
          have hres : ({ res.toCaseRun with ordinal := c.ordinal } : BatchCaseResult) = res := by
            rw [← hordinal res rfl]
          rw [Grading.runCases]
          simp only [if_pos]
          rw [hres, ← hexecute]
          refine runCases_congr fun c' hc' => if_neg fun heq => h.1 ?_
          rw [← heq]
          exact List.mem_map_of_mem hc'

/-- A batch of the judge's that goes like a batch of the runner's. -/
structure Refines (onCase : σ → BatchCaseResult → σ) (cases : List BatchCase) (s : σ) (o : Outcome σ)
    (b : Grading.Batch) : Prop where
  compileError : (b.runBatch cases onCase s).1 = "" ↔ o.compileError = []
  /-- where it is the text of some characters at all -/
  text : ∀ text, bytes text = o.compileError → (b.runBatch cases onCase s).1 = text
  rest : (b.runBatch cases onCase s).2 = (o.results, o.err, o.state)

lemma eq_empty_of_bytes {text : String} (h : bytes text = []) : "" = text := bytes_injective h.symm

lemma refines_failed (err : RunErr) (tr : Trace) :
    ∃ b, Refines onCase cases s (.failed err s tr) b :=
  ⟨.failed err, by simp [Grading.Batch.runBatch, Outcome.failed], fun _ htext => eq_empty_of_bytes htext, rfl⟩

/-- What is deferred is not seen by the judge. -/
lemma refines_deferred (e : Effect) (h : ∃ b, Refines onCase cases s o b) :
    ∃ b, Refines onCase cases s (o.deferred e) b := by
  obtain ⟨b, herr, htext, hrest⟩ := h
  exact ⟨b, herr, htext, hrest⟩

lemma refines_withSource (h : (cases.map BatchCase.ordinal).Nodup) :
    ∃ b, Refines onCase cases s (withSource w F p onCase cases s tr) b := by
  delta withSource
  generalize compileSource w p tr = compiled
  obtain ⟨tr', compiled⟩ := compiled
  match compiled with
  | .error err => exact refines_failed err tr'
  | .ok (ch :: text) =>
      by_cases hchars : ∃ s, bytes s = ch :: text
      · obtain ⟨s, hs⟩ := hchars
        have hne : s ≠ "" := by
          rintro rfl
          cases hs
        exact ⟨.compileError s hne, by simp [Grading.Batch.runBatch, hne],
          fun s' hs' => bytes_injective (hs.trans hs'.symm), rfl⟩
      · exact ⟨.compileError "compilation failed" (by decide), by simp [Grading.Batch.runBatch],
          fun s hs => absurd ⟨s, hs⟩ hchars, rfl⟩
  | .ok [] =>
      dsimp only [attempt]
      cases w.fails (tr' ++ [.newWorkspaceGuard]) with
      | some err => exact refines_failed err _
      | none =>
          obtain ⟨execute, hexecute⟩ :=
            @runCases_refines σ w F p onCase cases (tr' ++ [.newWorkspaceGuard]) s [] h
          exact ⟨.run execute, by simp [Grading.Batch.runBatch], fun _ htext => eq_empty_of_bytes htext,
            hexecute⟩

lemma refines_withBox (h : (cases.map BatchCase.ordinal).Nodup) :
    ∃ b, Refines onCase cases s (withBox w F p onCase cases s tr) b := by
  delta withBox attempt
  cases w.fails (tr ++ [.writeSource]) with
  | some err => exact refines_failed _ _
  | none => exact refines_withSource h

lemma refines_withDir (h : (cases.map BatchCase.ordinal).Nodup) :
    ∃ b, Refines onCase cases s (withDir w F p onCase cases s tr) b := by
  delta withDir attempt
  cases w.fails (tr ++ [.makeWorkDir]) with
  | some err => exact refines_failed _ _
  | none =>
      dsimp only [Option.map_none, attempt]
      cases w.fails (tr ++ [.makeWorkDir] ++ [.initBox]) with
      | some err => exact refines_failed _ _
      | none => exact refines_deferred _ (refines_withBox h)

lemma refines_withSlot (h : (cases.map BatchCase.ordinal).Nodup) :
    ∃ b, Refines onCase cases s (withSlot w F p onCase cases s tr) b := by
  delta withSlot attempt
  cases w.fails (tr ++ [.mkdirTemp]) with
  | some err => exact refines_failed _ _
  | none => exact refines_deferred _ (refines_withDir h)

/-- **The judge's batch is the runner's.**  Where no two cases have the same ordinal, every batch of the runner
goes like one of the batches for which the judge's grading is modelled: whether there is a compile error and
what it says, the results, the error and all that was done with the results on the way are the same. -/
theorem batch_refines (w : World) (F : Floats) (onCase : σ → BatchCaseResult → σ) (cfg : Defaults) (boxID : ℕ)
    (lang : List Char) (limits : Limits) (s : σ) (h : (cases.map BatchCase.ordinal).Nodup) :
    ∃ b, Refines onCase cases s (runBatch w F onCase cfg boxID lang limits cases s) b := by
  delta runBatch
  cases language lang with
  | none => exact refines_failed _ _
  | some sp =>
      delta withProgram attempt
      dsimp only
      cases w.fails ([] ++ [.acquireSubmit]) with
      | some err => exact refines_failed err _
      | none => exact refines_deferred _ (refines_withSlot h)

end Refinement

/-! ## The deadline -/

/-- What a small step may take. -/
def quick : ℤ := 200 * millisecond

/-- What an effect may take: as long as its own context, and a small step's time else.  A repetition is in
the context of what it repeats. -/
def Effect.cost : Effect → ℤ
  | .acquireSubmit | .rerun _ => 0
  | .compile opts => max 0 opts.timeout
  | .run _ opts => max 0 opts.timeout
  | _ => quick

def cost (tr : Trace) : ℤ := (tr.map Effect.cost).sum

namespace World

/-- How long the effects after those that are done take. -/
def elapsedFrom (w : World) (done : Trace) : Trace → ℤ
  | [] => 0
  | e :: tr => w.takes (done ++ [e]) + w.elapsedFrom (done ++ [e]) tr

/-- How long a trace takes, from the time that the slot is there. -/
def elapsed (w : World) : Trace → ℤ
  | [] => 0
  | e :: tr => w.elapsedFrom [e] tr

/-- Once there is a slot, a context ends what it is for, and small steps are quick. -/
def Punctual (w : World) : Prop := ∀ tr e, tr ≠ [] → w.takes (tr ++ [e]) ≤ e.cost

end World

section Deadline

variable {σ : Type} {w : World} {F : Floats} {p : Program} {onCase : σ → BatchCaseResult → σ}
  {cases : List BatchCase} {tr : Trace} {s : σ} {o : Outcome σ} {c : BatchCase}

@[simp] lemma cost_append (tr tr' : Trace) : cost (tr ++ tr') = cost tr + cost tr' := by simp [cost]

@[simp] lemma cost_singleton (e : Effect) : cost [e] = e.cost := by simp [cost]

@[simp] lemma cost_nil : cost [] = 0 := rfl

lemma cost_cons (e : Effect) (tr : Trace) : cost (e :: tr) = e.cost + cost tr := by simp [cost]

lemma elapsedFrom_le (h : w.Punctual) {done : Trace} (hdone : done ≠ []) (tr : Trace) :
    w.elapsedFrom done tr ≤ cost tr := by
  induction tr generalizing done with
  | nil => exact le_refl _
  | cons e tr ih =>
      rw [World.elapsedFrom, cost_cons]
      exact add_le_add (h done e hdone) (ih (by simp))

lemma Effect.cost_nonneg (e : Effect) : 0 ≤ e.cost := by
  cases e with
  | acquireSubmit | rerun opts => exact le_refl _
  | compile opts => exact le_max_left _ _
  | run ordinal opts => exact le_max_left _ _
  | _ => exact (by decide : 0 ≤ quick)

lemma cost_nonneg (tr : Trace) : 0 ≤ cost tr := by
  induction tr with
  | nil => exact le_refl _
  | cons e tr ih =>
      rw [cost_cons]
      exact add_nonneg e.cost_nonneg ih

lemma elapsed_le (h : w.Punctual) (tr : Trace) : w.elapsed tr ≤ cost tr := by
  cases tr with
  | nil => exact le_refl _
  | cons e tr =>
      rw [World.elapsed, cost_cons]
      have hrest := elapsedFrom_le h (List.cons_ne_nil e []) tr
      have hfirst := e.cost_nonneg
      omega

lemma execBox_cost (w : World) (e : Effect) (opts : ExecOpts) (tr : Trace) :
    cost (execBox w e opts tr).1 = cost tr + e.cost := by
  have hrerun : Effect.cost (.rerun opts) = 0 := rfl
  simp only [execBox]
  split_ifs
  · rw [cost_append, cost_append, cost_singleton, cost_singleton, hrerun, add_zero]
  · rw [cost_append, cost_singleton]

/-- The time of a whole case. -/
def caseCost (p : Program) : ℤ := p.limits.wall + sandboxGrace + second

lemma quick_nonneg : 0 ≤ quick := by decide

lemma prepare_cost (w : World) (p : Program) (c : BatchCase) (tr : Trace) :
    cost (prepare w p c tr).1 ≤ cost tr + 4 * quick := by
  have hq := quick_nonneg
  simp only [prepare, attempt]
  cases w.fails (tr ++ [.restore]) with
  | some err =>
      simp only [Option.map_some, cost_append, cost_singleton, Effect.cost]
      omega
  | none =>
      dsimp only [Option.map_none]
      cases w.fails (tr ++ [.restore] ++ [.cleanupBox] ++ [.initBox]) with
      | some err =>
          simp only [Option.map_some, cost_append, cost_singleton, Effect.cost]
          omega
      | none =>
          dsimp only [Option.map_none]
          split_ifs <;> simp only [cost_append, cost_singleton, Effect.cost] <;> omega

lemma runCase_cost (w : World) (F : Floats) (c : BatchCase) (tr : Trace) (hwall : 0 ≤ p.limits.wall) :
    cost (runCase w F p c tr).1 ≤ cost tr + caseCost p := by
  have hq : 5 * quick = second := rfl
  have hpos := quick_nonneg
  have hgrace : 0 ≤ sandboxGrace := by decide
  have hprepare := prepare_cost w p c tr
  have hcase : caseCost p = p.limits.wall + sandboxGrace + second := rfl
  delta runCase
  generalize prepare w p c tr = prepared at hprepare ⊢
  obtain ⟨tr', err⟩ := prepared
  cases err with
  | some err =>
      dsimp only at hprepare ⊢
      omega
  | none =>
      have hrun : Effect.cost (.run c.ordinal (p.caseOpts c)) = p.limits.wall + sandboxGrace :=
        max_eq_right (by dsimp only [Program.caseOpts]; omega)
      have hexec := execBox_cost w (.run c.ordinal (p.caseOpts c)) (p.caseOpts c) tr'
      rw [hrun] at hexec
      dsimp only at hprepare ⊢
      split_ifs
      · omega
      · simp only [cost_append, cost_singleton, Effect.cost]
        omega

lemma runCases_cost (hwall : 0 ≤ p.limits.wall) (results : List BatchCaseResult) :
    cost (runCases w F p onCase cases results s tr).1 ≤ cost tr + cases.length * caseCost p := by
  induction cases generalizing results s tr with
  | nil => simp [runCases]
  | cons c cases ih =>
      have hcase := runCase_cost w F c tr hwall
      have hpos : 0 ≤ caseCost p := add_nonneg (add_nonneg hwall (by decide)) (by decide)
      have hscaled : ((cases.length + 1 : ℕ) : ℤ) * caseCost p = cases.length * caseCost p + caseCost p := by
        push_cast
        ring
      have hmul : 0 ≤ (cases.length : ℤ) * caseCost p := mul_nonneg (Int.natCast_nonneg _) hpos
      rw [runCases, List.length_cons, hscaled]
      generalize runCase w F p c tr = ran at hcase ⊢
      obtain ⟨tr', result⟩ := ran
      cases result with
      | error err =>
          dsimp only at hcase ⊢
          omega
      | ok res =>
          have hrest := @ih tr' (onCase s res) (results ++ [res.blanked])
          dsimp only at hcase ⊢
          omega

/-- The time of a whole batch, without its slot. -/
def batchCost (p : Program) (n : ℕ) : ℤ := p.limits.compileTimeout + sandboxGrace + n * caseCost p + 8 * quick

lemma compileSource_cost (hcompile : 0 ≤ p.limits.compileTimeout) :
    cost (compileSource w p tr).1 ≤ cost tr + (p.limits.compileTimeout + sandboxGrace) := by
  have hgrace : 0 ≤ sandboxGrace := by decide
  have hcost : Effect.cost (.compile p.compileOpts) = p.limits.compileTimeout + sandboxGrace :=
    max_eq_right (by dsimp only [Program.compileOpts]; omega)
  delta compileSource
  split_ifs
  · dsimp only
    omega
  · exact (execBox_cost ..).trans_le (by rw [hcost])

lemma cases_cost_nonneg (hwall : 0 ≤ p.limits.wall) (n : ℕ) : 0 ≤ n * caseCost p :=
  mul_nonneg (Int.natCast_nonneg _) (add_nonneg (add_nonneg hwall (by decide)) (by decide))

lemma withSource_cost (hwall : 0 ≤ p.limits.wall) (hcompile : 0 ≤ p.limits.compileTimeout) :
    cost (withSource w F p onCase cases s tr).trace ≤
      cost tr + (p.limits.compileTimeout + sandboxGrace) + quick + cases.length * caseCost p := by
  have hq := quick_nonneg
  have hn := cases_cost_nonneg hwall cases.length
  have hcompiled := @compileSource_cost w p tr hcompile
  delta withSource
  generalize compileSource w p tr = compiled at hcompiled ⊢
  obtain ⟨tr', compiled⟩ := compiled
  dsimp only at hcompiled
  match compiled with
  | .error err =>
      dsimp only [Outcome.failed]
      omega
  | .ok (ch :: text) =>
      dsimp only
      omega
  | .ok [] =>
      dsimp only [attempt]
      cases w.fails (tr' ++ [.newWorkspaceGuard]) with
      | some err =>
          simp only [Option.map_some, Outcome.failed, cost_append, cost_singleton, Effect.cost]
          omega
      | none =>
          have hcases := @runCases_cost σ w F p onCase cases (tr' ++ [.newWorkspaceGuard]) s hwall []
          simp only [cost_append, cost_singleton, Effect.cost] at hcases
          dsimp only [Option.map_none]
          omega

lemma withBox_cost (hwall : 0 ≤ p.limits.wall) (hcompile : 0 ≤ p.limits.compileTimeout) :
    cost (withBox w F p onCase cases s tr).trace ≤
      cost tr + (p.limits.compileTimeout + sandboxGrace) + 2 * quick + cases.length * caseCost p := by
  have hq := quick_nonneg
  have hgrace : 0 ≤ sandboxGrace := by decide
  have hn := cases_cost_nonneg hwall cases.length
  delta withBox attempt
  cases w.fails (tr ++ [.writeSource]) with
  | some err =>
      simp only [Option.map_some, Outcome.failed, cost_append, cost_singleton, Effect.cost]
      omega
  | none =>
      have hsource := @withSource_cost σ w F p onCase cases (tr ++ [.writeSource]) s hwall hcompile
      simp only [cost_append, cost_singleton, Effect.cost] at hsource
      dsimp only [Option.map_none]
      omega

lemma withDir_cost (hwall : 0 ≤ p.limits.wall) (hcompile : 0 ≤ p.limits.compileTimeout) :
    cost (withDir w F p onCase cases s tr).trace ≤
      cost tr + (p.limits.compileTimeout + sandboxGrace) + 5 * quick + cases.length * caseCost p := by
  have hq := quick_nonneg
  have hgrace : 0 ≤ sandboxGrace := by decide
  have hn := cases_cost_nonneg hwall cases.length
  delta withDir attempt
  cases w.fails (tr ++ [.makeWorkDir]) with
  | some err =>
      simp only [Option.map_some, Outcome.failed, cost_append, cost_singleton, Effect.cost]
      omega
  | none =>
      dsimp only [Option.map_none, attempt]
      cases w.fails (tr ++ [.makeWorkDir] ++ [.initBox]) with
      | some err =>
          simp only [Option.map_some, Outcome.failed, cost_append, cost_singleton, Effect.cost]
          omega
      | none =>
          have hbox := @withBox_cost σ w F p onCase cases (tr ++ [.makeWorkDir] ++ [.initBox]) s hwall hcompile
          simp only [cost_append, cost_singleton, Effect.cost] at hbox
          simp only [Option.map_none, Outcome.deferred, cost_append, cost_singleton, Effect.cost]
          omega

lemma withProgram_cost (hwall : 0 ≤ p.limits.wall) (hcompile : 0 ≤ p.limits.compileTimeout) :
    cost (withProgram w F p onCase cases s).trace ≤ batchCost p cases.length := by
  have hq := quick_nonneg
  have hgrace : 0 ≤ sandboxGrace := by decide
  have hn := cases_cost_nonneg hwall cases.length
  delta withProgram attempt batchCost
  cases w.fails ([] ++ [.acquireSubmit]) with
  | some err =>
      simp only [Option.map_some, Outcome.failed, cost_append, cost_singleton, cost_nil, Effect.cost]
      omega
  | none =>
      simp only [Option.map_none, Outcome.deferred, cost_append, cost_singleton, Effect.cost]
      delta withSlot attempt
      cases w.fails ([] ++ [.acquireSubmit] ++ [.mkdirTemp]) with
      | some err =>
          simp only [Option.map_some, Outcome.failed, cost_append, cost_singleton, cost_nil, Effect.cost]
          omega
      | none =>
          have hdir := @withDir_cost σ w F p onCase cases ([] ++ [.acquireSubmit] ++ [.mkdirTemp]) s hwall hcompile
          simp only [cost_append, cost_singleton, cost_nil, Effect.cost] at hdir
          simp only [Option.map_none, Outcome.deferred, cost_append, cost_singleton, Effect.cost]
          omega

lemma effective_times_nonneg (cfg : Defaults) (l : Limits) (sp : Spec) :
    0 ≤ (effective cfg l sp).wall ∧ 0 ≤ (effective cfg l sp).compileTimeout := by
  have hpos : ∀ x y : ℤ, 0 ≤ positive x y (10 * second) := by
    intro x y
    rw [positive]
    split_ifs with hx hy
    · decide
    · omega
    · omega
  refine ⟨?_, hpos _ _⟩
  have hwall := hpos l.wall cfg.wallTimeout
  rw [effective]
  dsimp only [wallFloor]
  split_ifs <;> omega

/-- **The deadline of a batch.**  Where every small step takes 200 milliseconds at most, what runs in the
sandbox ends with its context, and the sum of the deadline fits, the deadline of the batch comes after the end
of every effect of the batch: no case is cut short, and none is after the deadline, for as many cases as there
are.  The time between the effects (`OnCase`, the reading of outputs) does not count here. -/
theorem batch_deadline (w : World) (F : Floats) (onCase : σ → BatchCaseResult → σ) (cfg : Defaults) (boxID : ℕ)
    {lang : List Char} {sp : Spec} (limits : Limits) (cases : List BatchCase) (s : σ)
    (hlang : language lang = some sp) (hw : w.Punctual)
    (hfits : FitsInt64 ((effective cfg limits sp).compileTimeout + sandboxGrace + (max 1 cases.length : ℕ) *
      ((effective cfg limits sp).wall + sandboxGrace + second) + 10 * second)) :
    ∀ pre e post, (runBatch w F onCase cfg boxID lang limits cases s).trace = pre ++ e :: post →
      w.elapsed pre + e.cost ≤
        batchTimeout (effective cfg limits sp).compileTimeout (effective cfg limits sp).wall cases.length := by
  intro pre e post htrace
  obtain ⟨hwall, hcompile⟩ := effective_times_nonneg cfg limits sp
  have htotal : cost (runBatch w F onCase cfg boxID lang limits cases s).trace ≤
      batchCost ⟨boxID, sp, effective cfg limits sp⟩ cases.length := by
    delta runBatch
    rw [hlang]
    exact withProgram_cost hwall hcompile
  rw [htrace, cost_append, cost_cons] at htotal
  have helapsed := elapsed_le hw pre
  have hpost := cost_nonneg post
  have hcases : (if cases.length < 1 then 1 else cases.length) = max 1 cases.length := by
    split_ifs <;> omega
  have htimeout : batchTimeout (effective cfg limits sp).compileTimeout (effective cfg limits sp).wall
      cases.length = (effective cfg limits sp).compileTimeout + sandboxGrace + (max 1 cases.length : ℕ) *
        ((effective cfg limits sp).wall + sandboxGrace + second) + 10 * second := by
    rw [batchTimeout, hcases, int64_of_fits hfits]
  have hmore : (cases.length : ℤ) * caseCost ⟨boxID, sp, effective cfg limits sp⟩ ≤
      (max 1 cases.length : ℕ) * ((effective cfg limits sp).wall + sandboxGrace + second) := by
    refine mul_le_mul_of_nonneg_right ?_ (add_nonneg (add_nonneg hwall (by decide)) (by decide))
    exact_mod_cast le_max_right 1 cases.length
  have hslack : 8 * quick ≤ 10 * second := by decide
  rw [htimeout]
  rw [batchCost] at htotal
  dsimp only at htotal
  omega

end Deadline

/-! ## A run -/

/-- A world in which the first case is repeated and the second one fails, and no step takes longer than it
may. -/
def sampleWorld : World where
  fails := fun tr => match tr.getLast? with
    | some (.run _ _) => some .sandboxUnavailable
    | _ => none
  unrecorded := fun tr => (ranOrdinals tr).length = 1
  ran := fun _ => ⟨{ status := "TO".toList, timeCPU := 7 }, [], []⟩
  takes := fun tr => (tr.getLast?.map Effect.cost).getD 0

def sampleDefaults : Defaults := ⟨5, 10 * second, 262144, 10 * second, 1048576⟩

def sampleBatch : List BatchCase := [⟨1, []⟩, ⟨2, [50]⟩, ⟨3, []⟩]

def sampleFloats : Floats := ⟨fun _ => none, fun n => n⟩

/-- The batch of three Python cases there. -/
def sampleOutcome : Outcome ℕ :=
  runBatch sampleWorld sampleFloats (fun n _ => n + 1) sampleDefaults 0 "py".toList (limitsOf 1000 256)
    sampleBatch 0

theorem batch_protocol_sample :
    sampleWorld.monitor sampleOutcome.trace = some {} ∧
      sampleOutcome.results.map BatchCaseResult.ordinal = [1] ∧ ranOrdinals sampleOutcome.trace = [1, 2] ∧
      (sampleOutcome.trace.any fun | .rerun _ => true | _ => false) = true := by
  obtain ⟨hm, -, -⟩ := batch_protocol sampleWorld sampleFloats (fun n _ => n + 1) sampleDefaults 0 "py".toList
    (limitsOf 1000 256) sampleBatch 0
  refine ⟨hm, ?_, ?_, ?_⟩ <;> decide +kernel

theorem batch_refines_sample : ∃ b, Refines (fun n _ => n + 1) sampleBatch 0 sampleOutcome b :=
  batch_refines sampleWorld sampleFloats (fun n _ => n + 1) sampleDefaults 0 "py".toList (limitsOf 1000 256) 0
    (by decide)

theorem batch_deadline_sample :
    sampleWorld.elapsed (sampleOutcome.trace.take 5) + (sampleOutcome.trace.getD 5 .release).cost ≤
      batchTimeout (effective sampleDefaults (limitsOf 1000 256) specPython).compileTimeout
        (effective sampleDefaults (limitsOf 1000 256) specPython).wall 3 := by
  have hlen : 5 < sampleOutcome.trace.length := by decide +kernel
  refine batch_deadline sampleWorld sampleFloats (fun n _ => n + 1) sampleDefaults 0 (limitsOf 1000 256)
    sampleBatch 0 (by decide +kernel : language "py".toList = some specPython) ?_ ?_
    (sampleOutcome.trace.take 5) (sampleOutcome.trace.getD 5 .release) (sampleOutcome.trace.drop 6) ?_
  · intro tr e htr
    simp [sampleWorld]
  · obtain ⟨hwall, -⟩ := @effective_wall 1000 256 3 specPython sampleDefaults (by decide) (by decide) rfl
      (le_refl _)
    rw [Nat.cast_ofNat] at hwall
    rw [hwall]
    decide
  · rw [← List.getElem_eq_getD (h := hlen), List.cons_getElem_drop_succ, List.take_append_drop]
    rfl

end Runner

end Labyrithm
