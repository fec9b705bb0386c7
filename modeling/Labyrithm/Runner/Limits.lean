import Labyrithm.Go.Seconds
import Labyrithm.Go.Strings
import Labyrithm.Problem.Points

/-!
# Languages and limits

What a program is run as and within: the languages of `backend/internal/runner/types.go`, the limits that
`submissionLimits` of `backend/internal/judge/engine.go` and `runCode` of `backend/internal/api/run.go` make of
those of a problem, and what `Run` and `RunBatch` of `backend/internal/runner/runner.go` make of these.  The
times of isolate are given to it in nanoseconds here, and the seconds are floating point.

* `specOf`, `normalizeLanguage`, `supportedLanguages` — the languages under their names.
* `limitsOf`, `effective` — the limits of a problem, and those that hold.
* `batchTimeout` — the time that a batch has.

**`limits_granted`** — the names that are taken for a submission are those that can be run, and mean the same
for both; and a program has, up to a nanosecond, the time of its problem as often as its language asks for,
with the wall clock two seconds behind, and the memory of its problem, with what its language needs besides;
Java has all of its problem's as its heap.
-/

namespace Labyrithm

namespace Runner

open Go

/-! ## Languages -/

/-- `spec`. -/
structure Spec where
  filename : String
  compileCmd : List String
  runCmd : List String
  timeFactor : ℚ
  memoryBonusKB : ℤ
  deriving DecidableEq

def specC : Spec where
  filename := "main.c"
  compileCmd := ["gcc", "-O2", "-std=c17", "-o", "main", "main.c", "-lm"]
  runCmd := ["./main"]
  timeFactor := 1
  memoryBonusKB := 0

def specCpp : Spec where
  filename := "main.cpp"
  compileCmd := ["g++", "-O2", "-std=c++17", "-o", "main", "main.cpp"]
  runCmd := ["./main"]
  timeFactor := 1
  memoryBonusKB := 0

def specPython : Spec where
  filename := "main.py"
  compileCmd := []
  runCmd := ["python3", "main.py"]
  timeFactor := 3
  memoryBonusKB := 64 * 1024

def specJava : Spec where
  filename := "Main.java"
  compileCmd := ["javac", "Main.java"]
  runCmd := ["java", "-XX:+UseSerialGC", "-Xss32m", "-Xmx\x7bmem\x7dm", "Main"]
  timeFactor := 2
  memoryBonusKB := 128 * 1024

def specJs : Spec where
  filename := "main.js"
  compileCmd := []
  runCmd := ["node", "main.js"]
  timeFactor := 2
  memoryBonusKB := 64 * 1024

def specRust : Spec where
  filename := "main.rs"
  compileCmd := ["rustc", "-O", "-C", "strip=symbols", "main.rs", "-o", "main"]
  runCmd := ["./main"]
  timeFactor := 1
  memoryBonusKB := 0

/-- `specs`. -/
def specOf (name : List Char) : Option Spec :=
  if name = "c".toList then some specC
  else if name = "cpp".toList then some specCpp
  else if name = "python".toList then some specPython
  else if name = "java".toList then some specJava
  else if name = "js".toList then some specJs
  else if name = "rust".toList then some specRust
  else none

/-- `normalizeLanguage`, of a name in lower case without blanks around it. -/
def normalized (l : List Char) : List Char :=
  if l = "c".toList then "c".toList
  else if l = "c++".toList ∨ l = "cpp".toList then "cpp".toList
  else if l = "py".toList ∨ l = "python".toList ∨ l = "python3".toList then "python".toList
  else if l = "java".toList then "java".toList
  else if l = "js".toList ∨ l = "javascript".toList ∨ l = "node".toList then "js".toList
  else if l = "rust".toList ∨ l = "rs".toList then "rust".toList
  else l

def normalizeLanguage (lang : List Char) : List Char := normalized (toLower (trimSpace lang))

/-- What `Run` and `RunBatch` take a name for. -/
def language (lang : List Char) : Option Spec := specOf (normalizeLanguage lang)

/-- `supportedLanguages` of `backend/internal/api/submissions.go`. -/
def supportedLanguages (l : List Char) : Option (List Char) :=
  if l = "c".toList then some "c".toList
  else if l = "cpp".toList ∨ l = "c++".toList then some "cpp".toList
  else if l = "py".toList ∨ l = "python".toList ∨ l = "python3".toList then some "py".toList
  else if l = "java".toList then some "java".toList
  else if l = "js".toList ∨ l = "javascript".toList ∨ l = "node".toList then some "js".toList
  else if l = "rust".toList ∨ l = "rs".toList then some "rust".toList
  else none

/-- The name that `createSubmission` stores. -/
def storedLanguage (lang : List Char) : Option (List Char) := supportedLanguages (toLower (trimSpace lang))

/-! ## Limits -/

def millisecond : ℤ := 1000000

/-- `Limits`. -/
structure Limits where
  cpuSeconds : ℚ := 0
  wall : ℤ := 0
  memoryKB : ℤ := 0
  compileTimeout : ℤ := 0
  compileMemoryKB : ℤ := 0
  deriving DecidableEq

/-- The limits of a problem: those of `submissionLimits`, and the same lines in `runCode`. -/
def limitsOf (timeLimitMs memoryLimitMb : ℤ) : Limits :=
  let cpu := duration timeLimitMs millisecond
  let wall := int64 (3 * cpu + 2 * second)
  { cpuSeconds := if timeLimitMs > 0 then durationSeconds cpu else 0
    wall := if timeLimitMs > 0 then (if wall < 5 * second then 5 * second else wall) else 0
    memoryKB := if memoryLimitMb > 0 then int64 (memoryLimitMb * 1024) else 0 }

/-- The defaults of a runner. -/
structure Defaults where
  cpuSeconds : ℚ
  wallTimeout : ℤ
  memKB : ℤ
  compileTimeout : ℤ
  compileMemoryKB : ℤ

/-- The first of three that is positive, or the last. -/
def positive {α : Type} [Zero α] [LE α] [DecidableLE α] (x y z : α) : α :=
  if x ≤ 0 then (if y ≤ 0 then z else y) else x

/-- The flag `--time` of isolate. -/
def timeFlag (cpuSeconds : ℚ) : ℤ := ofFloat (float64 (cpuSeconds * second))

/-- `wallFloor`. -/
def wallFloor (wall : ℤ) (cpuSeconds : ℚ) : ℤ :=
  if wall < int64 (timeFlag cpuSeconds + 2 * second) then int64 (timeFlag cpuSeconds + 2 * second) else wall

/-- The limits that hold for a program. -/
structure Effective where
  cpu : ℚ
  wall : ℤ
  memKB : ℤ
  compileTimeout : ℤ
  compileMemKB : ℤ
  deriving DecidableEq

def effective (cfg : Defaults) (l : Limits) (sp : Spec) : Effective :=
  let cpu := float64 (positive l.cpuSeconds cfg.cpuSeconds 2 * sp.timeFactor)
  { cpu := cpu
    wall := wallFloor (positive l.wall cfg.wallTimeout (10 * second)) cpu
    memKB := positive l.memoryKB cfg.memKB (256 * 1024)
    compileTimeout := positive l.compileTimeout cfg.compileTimeout (10 * second)
    compileMemKB := positive l.compileMemoryKB cfg.compileMemoryKB (1024 * 1024) }

/-- `heapMB`. -/
def Effective.heapMB (e : Effective) : ℤ := if e.memKB.tdiv 1024 < 16 then 16 else e.memKB.tdiv 1024

/-- The memory of the sandbox that a program is run in, with what its language needs itself. -/
def Effective.boxMemoryKB (e : Effective) (sp : Spec) : ℤ := int64 (e.memKB + sp.memoryBonusKB)

/-- `sandboxGrace`. -/
def sandboxGrace : ℤ := 5 * second

/-- `batchTimeout`. -/
def batchTimeout (compile wall : ℤ) (cases : ℕ) : ℤ :=
  let cases := if cases < 1 then 1 else cases
  let perCase := wall + sandboxGrace + second
  int64 (compile + sandboxGrace + cases * perCase + 10 * second)

/-! ## Names -/

section Names

variable {l : List Char}

/-- What the stored names are taken for. -/
lemma language_stored_names :
    language "c".toList = some specC ∧ language "cpp".toList = some specCpp ∧
      language "py".toList = some specPython ∧ language "java".toList = some specJava ∧
      language "js".toList = some specJs ∧ language "rust".toList = some specRust := by
  decide +kernel

/-- A name that is taken for a submission means what it means for a run. -/
lemma supportedLanguages_map (l : List Char) :
    (supportedLanguages l).map language = (specOf (normalized l)).map some := by
  obtain ⟨hc, hcpp, hpy, hjava, hjs, hrust⟩ := language_stored_names
  by_cases h1 : l = "c".toList
  · rw [h1, supportedLanguages, if_pos rfl, Option.map_some, hc]
    rfl
  by_cases h2 : l = "c++".toList ∨ l = "cpp".toList
  · have hspec : specOf (normalized l) = some specCpp := by
      rw [normalized, if_neg h1, if_pos h2]
      rfl
    rw [hspec, supportedLanguages, if_neg h1, if_pos h2.symm, Option.map_some, hcpp]
    rfl
  have h2' : ¬(l = "cpp".toList ∨ l = "c++".toList) := fun h => h2 h.symm
  by_cases h3 : l = "py".toList ∨ l = "python".toList ∨ l = "python3".toList
  · have hspec : specOf (normalized l) = some specPython := by
      rw [normalized, if_neg h1, if_neg h2, if_pos h3]
      rfl
    rw [hspec, supportedLanguages, if_neg h1, if_neg h2', if_pos h3, Option.map_some, hpy]
    rfl
  by_cases h4 : l = "java".toList
  · rw [h4, supportedLanguages, if_neg (by decide), if_neg (by decide), if_neg (by decide), if_pos rfl,
      Option.map_some, hjava]
    rfl
  by_cases h5 : l = "js".toList ∨ l = "javascript".toList ∨ l = "node".toList
  · have hspec : specOf (normalized l) = some specJs := by
      rw [normalized, if_neg h1, if_neg h2, if_neg h3, if_neg h4, if_pos h5]
      rfl
    rw [hspec, supportedLanguages, if_neg h1, if_neg h2', if_neg h3, if_neg h4, if_pos h5,
      Option.map_some, hjs]
    rfl
  by_cases h6 : l = "rust".toList ∨ l = "rs".toList
  · have hspec : specOf (normalized l) = some specRust := by
      rw [normalized, if_neg h1, if_neg h2, if_neg h3, if_neg h4, if_neg h5, if_pos h6]
      rfl
    rw [hspec, supportedLanguages, if_neg h1, if_neg h2', if_neg h3, if_neg h4, if_neg h5, if_pos h6,
      Option.map_some, hrust]
    rfl
  · -- a name of its own, which is none of the six
    have hname : normalized l = l := by
      rw [normalized, if_neg h1, if_neg h2, if_neg h3, if_neg h4, if_neg h5, if_neg h6]
    rw [not_or] at h2 h3 h5 h6
    rw [not_or] at h3
    rw [supportedLanguages, if_neg h1, if_neg h2', if_neg fun h => ?_, if_neg h4, if_neg fun h => ?_,
      if_neg fun h => ?_, hname, specOf, if_neg h1, if_neg h2.2, if_neg h3.2.1, if_neg h4, if_neg h5.1,
      if_neg h6.1]
    · rfl
    · exact h.elim h6.1 h6.2
    · exact h.elim h5.1 fun h => h5.2 h
    · exact h.elim h3.1 fun h => h.elim h3.2.1 h3.2.2

end Names

/-! ## Times -/

section Times

variable {x y e : ℚ}

lemma specs_timeFactor {name : List Char} {sp : Spec} (h : specOf name = some sp) :
    ∃ f : ℕ, sp.timeFactor = f ∧ 1 ≤ f ∧ f ≤ 3 := by
  unfold specOf at h
  split_ifs at h <;> obtain rfl := Option.some.inj h
  · exact ⟨1, rfl, by decide⟩
  · exact ⟨1, rfl, by decide⟩
  · exact ⟨3, rfl, by decide⟩
  · exact ⟨2, rfl, by decide⟩
  · exact ⟨2, rfl, by decide⟩
  · exact ⟨1, rfl, by decide⟩

lemma specs_memoryBonusKB {name : List Char} {sp : Spec} (h : specOf name = some sp) :
    0 ≤ sp.memoryBonusKB ∧ sp.memoryBonusKB ≤ 128 * 1024 := by
  unfold specOf at h
  split_ifs at h <;> obtain rfl := Option.some.inj h <;> decide

lemma cast_second : (second : ℚ) = 1000000000 := by norm_num [second, Go.second]

lemma cast_millisecond : (millisecond : ℚ) = 1000000 := by norm_num [millisecond]

/-- The seconds of a time limit. -/
lemma seconds_near {t : ℕ} (ht : t ≤ 10000) :
    |durationSeconds (t * millisecond) - t / 1000| ≤ 12 / 2 ^ 53 := by
  have hdiv : ((t : ℤ) * millisecond).tdiv second = (t / 1000 : ℕ) := by
    rw [Int.tdiv_eq_ediv_of_nonneg (by unfold millisecond; omega)]
    unfold millisecond second
    omega
  have hmod : ((t : ℤ) * millisecond).tmod second = (t % 1000 : ℕ) * millisecond := by
    rw [Int.tmod_eq_emod_of_nonneg (by unfold millisecond; omega)]
    unfold millisecond second
    omega
  have hrest : (((t % 1000 : ℕ) * millisecond : ℤ) : ℚ) / second = (t % 1000 : ℕ) / 1000 := by
    rw [Int.cast_mul, Int.cast_natCast, cast_millisecond, cast_second]
    ring
  have hsplit : (t : ℚ) = 1000 * (t / 1000 : ℕ) + (t % 1000 : ℕ) := by
    exact_mod_cast (Nat.div_add_mod t 1000).symm
  have hr : ((t % 1000 : ℕ) : ℚ) ≤ 999 := by exact_mod_cast (by omega : t % 1000 ≤ 999)
  have hq : ((t / 1000 : ℕ) : ℚ) ≤ 10 := by exact_mod_cast (by omega : t / 1000 ≤ 10)
  have hr0 : (0 : ℚ) ≤ (t % 1000 : ℕ) := by positivity
  have hq0 : (0 : ℚ) ≤ (t / 1000 : ℕ) := by positivity
  rw [durationSeconds, hdiv, hmod, hrest, Int.cast_natCast, float64_natCast_small (by omega)]
  generalize ((t % 1000 : ℕ) : ℚ) = r at *
  generalize ((t / 1000 : ℕ) : ℚ) = q at *
  have ha := float64_near (y := r / 1000) (x := r / 1000) (e := 0) (by linarith) (by simp)
  have ha0 := float64_nonneg (y := r / 1000) (by linarith)
  have hsum : |q + float64 (r / 1000) - t / 1000| ≤ r / 1000 / 2 ^ 53 := by
    rw [hsplit]
    convert ha using 2 <;> ring
  have htop := (abs_le.mp ha).2
  calc |float64 (q + float64 (r / 1000)) - t / 1000|
      ≤ r / 1000 / 2 ^ 53 + (q + float64 (r / 1000)) / 2 ^ 53 := float64_near (by linarith) hsum
    _ ≤ 12 / 2 ^ 53 := by
        rw [← add_div]
        refine div_le_div_of_nonneg_right ?_ (by positivity)
        have hsmall : r / 1000 / 2 ^ 53 ≤ r / 1000 := div_le_self (by linarith) (by norm_num)
        linarith

/-- The time that isolate is given: a nanosecond may be lost. -/
lemma timeFlag_near {t f : ℕ} (ht : t ≤ 10000) (hf : f ≤ 3) :
    timeFlag (float64 (durationSeconds (t * millisecond) * f)) = f * t * millisecond ∨
      timeFlag (float64 (durationSeconds (t * millisecond) * f)) = f * t * millisecond - 1 := by
  have hf' : (f : ℚ) ≤ 3 := by exact_mod_cast hf
  have hf0 : (0 : ℚ) ≤ f := by positivity
  have ht' : (t : ℚ) ≤ 10000 := by exact_mod_cast ht
  have hs := seconds_near ht
  have hs0 : 0 ≤ durationSeconds (t * millisecond) := by
    refine float64_nonneg (add_nonneg (float64_nonneg ?_) (float64_nonneg ?_))
    · exact_mod_cast Int.tdiv_nonneg (by unfold millisecond; omega) second_pos.le
    · refine div_nonneg ?_ (by exact_mod_cast second_pos.le)
      exact_mod_cast Int.tmod_nonneg _ (by unfold millisecond; omega)
  generalize durationSeconds (t * millisecond) = s at *
  have hstop : s ≤ 11 := by
    have := (abs_le.mp hs).2
    norm_num at this
    linarith
  have hcpu : |s * f - t / 1000 * f| ≤ 36 / 2 ^ 53 := by
    rw [← sub_mul, abs_mul, abs_of_nonneg hf0]
    calc |s - t / 1000| * f ≤ 12 / 2 ^ 53 * 3 :=
          mul_le_mul hs hf' hf0 (by positivity)
      _ = 36 / 2 ^ 53 := by ring
  have hsf : s * f ≤ 33 := by nlinarith
  have hcpu' := float64_near (mul_nonneg hs0 hf0) hcpu
  have hc0 := float64_nonneg (mul_nonneg hs0 hf0)
  generalize float64 (s * f) = c at *
  have hbound : |c - t / 1000 * f| ≤ 69 / 2 ^ 53 := by
    refine hcpu'.trans ?_
    rw [← add_div]
    exact div_le_div_of_nonneg_right (by linarith) (by positivity)
  have hctop : c ≤ 34 := by
    have := (abs_le.mp hcpu').2
    have hft : (t : ℚ) / 1000 * f ≤ 30 := by nlinarith
    norm_num at this
    linarith
  have hexact : (t : ℚ) / 1000 * f * second = ((f * t * millisecond : ℤ) : ℚ) := by
    rw [cast_second, Int.cast_mul, cast_millisecond]
    push_cast
    ring
  have hnano : |c * second - ((f * t * millisecond : ℤ) : ℚ)| ≤ 69 / 2 ^ 53 * second := by
    rw [← hexact, ← sub_mul, abs_mul, abs_of_nonneg (a := (second : ℚ)) (by rw [cast_second]; norm_num)]
    exact mul_le_mul_of_nonneg_right hbound (by rw [cast_second]; norm_num)
  have hpos : 0 ≤ c * second := mul_nonneg hc0 (by rw [cast_second]; norm_num)
  have hflag := abs_le.mp (float64_near hpos hnano)
  have hless : 69 / 2 ^ 53 * (second : ℚ) + c * second / 2 ^ 53 < 1 := by
    rw [cast_second]
    norm_num
    linarith
  rw [timeFlag, ofFloat, if_pos (float64_nonneg hpos)]
  generalize float64 (c * second) = g at *
  rcases le_or_gt ((f * t * millisecond : ℤ) : ℚ) g with hle | hlt
  · left
    rw [Int.floor_eq_iff]
    exact ⟨hle, by linarith⟩
  · right
    rw [Int.floor_eq_iff]
    push_cast at hlt hflag ⊢
    constructor <;> linarith

end Times

/-! ## What is granted -/

section Granted

open Problem (clampLimits)

/-- The limits of a stored problem. -/
lemma clampLimits_bounds (t m s : ℤ) :
    (100 ≤ (clampLimits t m s).1 ∧ (clampLimits t m s).1 ≤ 10000) ∧
      16 ≤ (clampLimits t m s).2.1 ∧ (clampLimits t m s).2.1 ≤ 1024 := by
  unfold clampLimits
  dsimp only
  split_ifs <;> omega

/-- The limits of a problem, where nothing overflows. -/
lemma limitsOf_eq {t m : ℤ} (ht : 0 < t ∧ t ≤ 10000) (hm : 0 < m ∧ m ≤ 1024) :
    (limitsOf t m).cpuSeconds = durationSeconds (t * millisecond) ∧
      (limitsOf t m).wall = max (5 * second) (3 * t * millisecond + 2 * second) ∧
      (limitsOf t m).memoryKB = m * 1024 := by
  have hcpu : duration t millisecond = t * millisecond :=
    duration_of_fits ⟨by unfold millisecond; omega, by unfold millisecond; omega⟩
  have hwall : int64 (3 * (t * millisecond) + 2 * second) = 3 * t * millisecond + 2 * second := by
    rw [int64_of_fits ⟨by unfold millisecond second; omega, by unfold millisecond second; omega⟩, mul_assoc]
  have hmem : int64 (m * 1024) = m * 1024 := int64_of_fits ⟨by omega, by omega⟩
  simp only [limitsOf, hcpu, hwall, hmem, if_pos ht.1, if_pos hm.1, true_and, and_true]
  split_ifs <;> omega

lemma positive_of_pos {α : Type} [Zero α] [LinearOrder α] {x : α} (h : 0 < x) (y z : α) :
    positive x y z = x := if_neg (not_le.mpr h)

variable {t : ℕ} {m : ℤ} {f : ℕ} {sp : Spec}

lemma effective_cpu (cfg : Defaults) (ht : 100 ≤ t ∧ t ≤ 10000) (hm : 0 < m ∧ m ≤ 1024)
    (hf : sp.timeFactor = f) :
    (effective cfg (limitsOf t m) sp).cpu = float64 (durationSeconds (t * millisecond) * f) := by
  obtain ⟨hcpu, -, -⟩ := limitsOf_eq (t := t) ⟨by omega, by omega⟩ hm
  have hpos : 0 < (limitsOf t m).cpuSeconds := by
    have hnear := abs_le.mp (seconds_near ht.2)
    have hn : (100 : ℚ) ≤ t := by exact_mod_cast ht.1
    rw [hcpu]
    norm_num at hnear
    linarith
  rw [effective, positive_of_pos hpos, hcpu, hf]

/-- The floor of the wall clock is never above what the problem asks for. -/
lemma effective_wall (cfg : Defaults) (ht : 100 ≤ t ∧ t ≤ 10000) (hm : 0 < m ∧ m ≤ 1024)
    (hf : sp.timeFactor = f) (hf3 : f ≤ 3) :
    (effective cfg (limitsOf t m) sp).wall = max (5 * second) (3 * t * millisecond + 2 * second) ∧
      timeFlag (effective cfg (limitsOf t m) sp).cpu ≤ 3 * t * millisecond := by
  obtain ⟨-, hwall, -⟩ := limitsOf_eq (t := t) ⟨by omega, by omega⟩ hm
  have hflag := timeFlag_near (t := t) (f := f) ht.2 hf3
  rw [← effective_cpu cfg ht hm hf] at hflag
  have hscaled : (f : ℤ) * t * millisecond ≤ 3 * t * millisecond ∧ 0 ≤ (f : ℤ) * t * millisecond := by
    constructor
    · refine mul_le_mul_of_nonneg_right (mul_le_mul_of_nonneg_right ?_ (by omega)) (by decide)
      exact_mod_cast hf3
    · exact mul_nonneg (mul_nonneg (Int.natCast_nonneg f) (Int.natCast_nonneg t)) (by decide)
  have hbound : 3 * (t : ℤ) * millisecond ≤ 30 * second := by
    unfold millisecond second
    omega
  have hfits : int64 (timeFlag (effective cfg (limitsOf t m) sp).cpu + 2 * second) =
      timeFlag (effective cfg (limitsOf t m) sp).cpu + 2 * second := by
    have hsecond : second = 1000000000 := rfl
    exact int64_of_fits ⟨by omega, by omega⟩
  have hwallpos : 0 < (limitsOf t m).wall := by
    rw [hwall]
    exact lt_of_lt_of_le (by decide) (le_max_left _ _)
  refine ⟨?_, by omega⟩
  have hfloor : (effective cfg (limitsOf t m) sp).wall =
      wallFloor (limitsOf t m).wall (effective cfg (limitsOf t m) sp).cpu := by
    rw [effective, positive_of_pos hwallpos]
  rw [hfloor, wallFloor, hfits, if_neg, hwall]
  rw [hwall, not_lt]
  refine le_trans ?_ (le_max_right _ _)
  omega

lemma effective_memKB (cfg : Defaults) (ht : 100 ≤ t ∧ t ≤ 10000) (hm : 0 < m ∧ m ≤ 1024) :
    (effective cfg (limitsOf t m) sp).memKB = m * 1024 := by
  obtain ⟨-, -, hmem⟩ := limitsOf_eq (t := t) ⟨by omega, by omega⟩ hm
  have hpos : 0 < (limitsOf t m).memoryKB := by omega
  rw [effective, positive_of_pos hpos, hmem]

/-- **What a program is granted.**  The names that are taken for a submission are those of a language that can
be run, and mean the same for both.  Whatever the defaults of the runner are, a program in the language has the
time of its problem as often as the language asks for, up to a nanosecond, the wall clock comes two seconds
later, or more, and the memory of its sandbox is that of the problem with what the language needs, where the
heap of Java has that of the problem. -/
theorem limits_granted (cfg : Defaults) (lang : List Char) (timeLimitMs memoryLimitMb maxScore : ℤ) :
    (storedLanguage lang).map language = (language lang).map some ∧
    ∀ sp, language lang = some sp →
      let t := (clampLimits timeLimitMs memoryLimitMb maxScore).1
      let m := (clampLimits timeLimitMs memoryLimitMb maxScore).2.1
      let e := effective cfg (limitsOf t m) sp
      ∃ f : ℕ, sp.timeFactor = f ∧ (f = 1 ∨ f = 2 ∨ f = 3) ∧
        (timeFlag e.cpu = f * t * millisecond ∨ timeFlag e.cpu = f * t * millisecond - 1) ∧
        e.wall = max (5 * second) (3 * t * millisecond + 2 * second) ∧
        timeFlag e.cpu + 2 * second ≤ e.wall ∧
        e.memKB = m * 1024 ∧ e.boxMemoryKB sp = m * 1024 + sp.memoryBonusKB ∧ e.heapMB = m := by
  refine ⟨supportedLanguages_map _, fun sp hsp => ?_⟩
  have hbounds := clampLimits_bounds timeLimitMs memoryLimitMb maxScore
  intro t m e
  obtain ⟨n, hn⟩ : ∃ n : ℕ, t = n := ⟨t.toNat, by omega⟩
  have ht : 100 ≤ n ∧ n ≤ 10000 := by omega
  have hm : 0 < m ∧ m ≤ 1024 := by omega
  obtain ⟨f, hfactor, hflow, hfhigh⟩ := specs_timeFactor hsp
  have he : e = effective cfg (limitsOf n m) sp := by rw [← hn]
  obtain ⟨hwall, hflagle⟩ := effective_wall cfg ht hm hfactor hfhigh
  have hmem := @effective_memKB n m sp cfg ht hm
  rw [← he] at hwall hflagle hmem
  have hbonus := specs_memoryBonusKB hsp
  refine ⟨f, hfactor, by omega, ?_, ?_, ?_, hmem, ?_, ?_⟩
  · rw [he, effective_cpu cfg ht hm hfactor, hn]
    exact timeFlag_near ht.2 hfhigh
  · rw [hwall, hn]
  · rw [hwall]
    exact le_trans (by omega) (le_max_right _ _)
  · rw [Effective.boxMemoryKB, hmem]
    exact int64_of_fits ⟨by omega, by omega⟩
  · have hheap : (m * 1024).tdiv 1024 = m := Int.mul_tdiv_cancel m (by decide)
    rw [Effective.heapMB, hmem, hheap, if_neg (by omega)]

theorem limits_granted_sample : ∃ f : ℕ, specPython.timeFactor = f ∧ (f = 1 ∨ f = 2 ∨ f = 3) ∧
    let e := effective ⟨5, 10 * second, 262144, 10 * second, 1048576⟩ (limitsOf 1001 256) specPython
    (timeFlag e.cpu = f * 1001 * millisecond ∨ timeFlag e.cpu = f * 1001 * millisecond - 1) ∧
      e.wall = max (5 * second) (3 * 1001 * millisecond + 2 * second) ∧
      timeFlag e.cpu + 2 * second ≤ e.wall ∧ e.memKB = 256 * 1024 ∧
      e.boxMemoryKB specPython = 256 * 1024 + 64 * 1024 ∧ e.heapMB = 256 :=
  (limits_granted ⟨5, 10 * second, 262144, 10 * second, 1048576⟩ " Python3".toList 1001 256 100).2
    specPython (by decide +kernel)

end Granted

end Runner

end Labyrithm
