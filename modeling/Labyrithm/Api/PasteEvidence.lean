import Labyrithm.Go.Float
import Labyrithm.Go.Time

/-!
# Evidence of pasting

`evaluateSubmissionTelemetry` of `backend/internal/api/submissions.go` flags a submission of which hardly
anything was typed, by the share of its characters that were pasted.  Characters that were neither typed
nor pasted count as pasted, but only where there are more than 100 of them: with 100 or less what was
reported as pasted stands alone.

* `flagged_iff` — the rule, for counters that are not negative.
* `ratio_mono`, `lt_ratio`, `ratio_le` — the quotient of two `float64` against 0.75.

**`paste_monotone_iff`** — more pasted characters clear a submission exactly where they take the rest to
100 or less without being enough alone (`paste_clears`).
-/

namespace Labyrithm

namespace Api

open Go

/-! ## The evaluation -/

/-- The bytes of a `string`, whose number is an `int`. -/
structure Code where
  bytes : List UInt8
  fits : bytes.length < 2 ^ 63

/-- `len`. -/
def Code.len (code : Code) : ℤ := code.bytes.length

/-- The counters of `createSubmissionRequest`, each of which may be left out. -/
structure CreateSubmissionRequest where
  typedCount : Option ℤ := none
  pasteCount : Option ℤ := none
  pastedChars : Option ℤ := none
  maxPasteSize : Option ℤ := none
  deriving DecidableEq, Repr

/-- The evidence that is recorded. -/
structure PasteEvidence where
  codeLength : ℤ
  pastedChars : ℤ
  typedCount : ℤ
  pasteCount : ℤ
  maxPasteSize : ℤ
  pastedRatio : ℚ
  effectivePasted : ℤ
  unmonitoredAPI : Bool

/-- `float64(a) / float64(b)`. -/
def ratio (a b : ℤ) : ℚ := float64 (float64 a / float64 b)

namespace CreateSubmissionRequest

def pasted (req : CreateSubmissionRequest) : ℤ := req.pastedChars.getD 0

def typed (req : CreateSubmissionRequest) : ℤ := req.typedCount.getD 0

def isUnmonitored (req : CreateSubmissionRequest) : Bool :=
  req.pastedChars.isNone && req.typedCount.isNone

/-- `effectivePasted`, of a code of that length. -/
def effectivePasted (codeLen : ℤ) (req : CreateSubmissionRequest) : ℤ :=
  if req.isUnmonitored ∨ req.pasted = 0 ∧ req.typed = 0 then codeLen
  else
    let unaccounted := int64 (codeLen - int64 (req.typed + req.pasted))
    if unaccounted > 100 then int64 (req.pasted + unaccounted) else req.pasted

end CreateSubmissionRequest

/-- `evaluateSubmissionTelemetry`. -/
def evaluateSubmissionTelemetry (code : Code) (req : CreateSubmissionRequest) :
    Bool × Option PasteEvidence :=
  let codeLen := code.len
  if codeLen ≤ 150 then (false, none)
  else
    let effectivePasted := req.effectivePasted codeLen
    let pastedRatio := ratio effectivePasted codeLen
    if effectivePasted > 250 ∧ pastedRatio > 3 / 4 ∧ req.typed < 25 then
      (true, some
        { codeLength := codeLen
          pastedChars := req.pasted
          typedCount := req.typed
          pasteCount := req.pasteCount.getD 0
          maxPasteSize := req.maxPasteSize.getD 0
          pastedRatio := pastedRatio
          effectivePasted := effectivePasted
          unmonitoredAPI := req.isUnmonitored })
    else (false, none)

/-- The submission is flagged. -/
def Flagged (code : Code) (req : CreateSubmissionRequest) : Prop :=
  (evaluateSubmissionTelemetry code req).1 = true

/-- There is evidence for what is flagged, and for nothing else. -/
lemma evidence_isSome (code : Code) (req : CreateSubmissionRequest) :
    (evaluateSubmissionTelemetry code req).2.isSome = (evaluateSubmissionTelemetry code req).1 := by
  unfold evaluateSubmissionTelemetry
  dsimp only
  split_ifs <;> rfl

/-- A counter that is not negative; it is an `int`. -/
def Counter (n : ℤ) : Prop := 0 ≤ n ∧ n < 2 ^ 63

instance (n : ℤ) : Decidable (Counter n) := inferInstanceAs (Decidable (_ ∧ _))

/-- No counter of the request is negative. -/
structure CreateSubmissionRequest.NonNegative (req : CreateSubmissionRequest) : Prop where
  typedCount : ∀ n ∈ req.typedCount, Counter n
  pasteCount : ∀ n ∈ req.pasteCount, Counter n
  pastedChars : ∀ n ∈ req.pastedChars, Counter n
  maxPasteSize : ∀ n ∈ req.maxPasteSize, Counter n

/-- The request with another number of pasted characters. -/
def CreateSubmissionRequest.reporting (req : CreateSubmissionRequest) (pastedChars : ℤ) :
    CreateSubmissionRequest :=
  { req with pastedChars := some pastedChars }

/-! ## The quotient -/

section Ratio

variable {a a' b : ℤ}

lemma float64_pos {x : ℚ} (hx : 0 < x) : 0 < float64 x :=
  lt_of_lt_of_le (by positivity) (zpow_log_le_float64 hx)

lemma ratio_mono (ha : 0 < a) (h : a ≤ a') (hb : 0 < b) : ratio a b ≤ ratio a' b := by
  have hapos : (0 : ℚ) < a := by exact_mod_cast ha
  have hbpos : 0 < float64 b := float64_pos (by exact_mod_cast hb)
  have hle : float64 a ≤ float64 a' := float64_mono hapos (by exact_mod_cast h)
  exact float64_mono (div_pos (float64_pos hapos) hbpos) (div_le_div_of_nonneg_right hle hbpos.le)

/-- A quotient of 1537/2048 or more is above 0.75, whatever is rounded. -/
lemma lt_ratio (hb : 0 < b) (h : 1537 * b ≤ 2048 * a) : 3 / 4 < ratio a b := by
  have hbpos : (0 : ℚ) < b := by exact_mod_cast hb
  have hapos : (0 : ℚ) < a := by exact_mod_cast (show (0 : ℤ) < a by omega)
  have hquot : (1537 : ℚ) * b ≤ 2048 * a := by exact_mod_cast h
  have ha := (abs_le.mp (float64_error hapos)).1
  have hb' := (abs_le.mp (float64_error hbpos)).2
  have hstep : ((3073 : ℕ) : ℚ) * 2 ^ (-12 : ℤ) ≤ float64 a / float64 b := by
    rw [le_div_iff₀ (float64_pos hbpos)]
    norm_num at ha hb' ⊢
    linarith
  calc (3 : ℚ) / 4 < ((3073 : ℕ) : ℚ) * 2 ^ (-12 : ℤ) := by norm_num
    _ = float64 (((3073 : ℕ) : ℚ) * 2 ^ (-12 : ℤ)) :=
        (float64_dyadic (by norm_num) (by norm_num) (-12)).symm
    _ ≤ ratio a b := float64_mono (by positivity) hstep

/-- Up to 2^53 a quotient of 0.75 or less is not rounded to more. -/
lemma ratio_le {a b : ℕ} (ha : 0 < a) (hb : b < 2 ^ 53) (h : 4 * a ≤ 3 * b) : ratio a b ≤ 3 / 4 := by
  have hfloat_a : float64 ((a : ℤ) : ℚ) = a := by
    rw [Int.cast_natCast]
    exact float64_natCast ha (by omega)
  have hfloat_b : float64 ((b : ℤ) : ℚ) = b := by
    rw [Int.cast_natCast]
    exact float64_natCast (by omega) hb
  have hapos : (0 : ℚ) < a := by exact_mod_cast ha
  have hbpos : (0 : ℚ) < b := by exact_mod_cast (show 0 < b by omega)
  have hle : (a : ℚ) / b ≤ ((3 : ℕ) : ℚ) * 2 ^ (-2 : ℤ) := by
    have hcast : (4 : ℚ) * a ≤ 3 * b := by exact_mod_cast h
    rw [div_le_iff₀ hbpos]
    norm_num
    linarith
  rw [ratio, hfloat_a, hfloat_b]
  calc float64 ((a : ℚ) / b) ≤ float64 (((3 : ℕ) : ℚ) * 2 ^ (-2 : ℤ)) :=
        float64_mono (div_pos hapos hbpos) hle
    _ = ((3 : ℕ) : ℚ) * 2 ^ (-2 : ℤ) := float64_dyadic (by norm_num) (by norm_num) (-2)
    _ = 3 / 4 := by norm_num

end Ratio

/-! ## The rule -/

/-- What counts as pasted: all that was not typed, or what was reported. -/
def counted (codeLen typed pasted : ℤ) : ℤ :=
  if 100 < codeLen - (typed + pasted) then codeLen - typed else pasted

section Rule

variable {code : Code} {req : CreateSubmissionRequest}

lemma getD_counter {o : Option ℤ} (h : ∀ n ∈ o, Counter n) : Counter (o.getD 0) := by
  cases o with
  | none => decide
  | some n => exact h n rfl

/-- No sum or difference overflows where hardly anything was typed. -/
lemma effectivePasted_eq (h : req.NonNegative) (htyped : req.typed < 25) (hlen : 150 < code.len) :
    req.effectivePasted code.len = counted code.len req.typed req.pasted := by
  obtain ⟨hpasted, hpasted'⟩ : Counter req.pasted := getD_counter h.pastedChars
  obtain ⟨htyped', -⟩ : Counter req.typed := getD_counter h.typedCount
  have hfits : code.len < 2 ^ 63 := by
    have hbytes := code.fits
    unfold Code.len
    omega
  have hunaccounted : int64 (code.len - int64 (req.typed + req.pasted))
      = code.len - (req.typed + req.pasted) := by
    have hwrap : int64 (code.len - int64 (req.typed + req.pasted))
        = int64 (code.len - (req.typed + req.pasted)) := Int.sub_bmod_bmod
    rw [hwrap]
    exact int64_of_fits ⟨by omega, by omega⟩
  rw [CreateSubmissionRequest.effectivePasted, hunaccounted, counted]
  split_ifs with hzero hmany hmany
  · obtain hunmonitored | ⟨-, hnone⟩ := hzero
    · have hnone : req.typed = 0 := by
        simp [CreateSubmissionRequest.isUnmonitored] at hunmonitored
        simp [CreateSubmissionRequest.typed, hunmonitored.2]
      omega
    · omega
  · -- nothing was reported, so that all of the code is unaccounted for
    obtain hunmonitored | ⟨hnone, hnone'⟩ := hzero
    · simp [CreateSubmissionRequest.isUnmonitored] at hunmonitored
      simp [CreateSubmissionRequest.typed, CreateSubmissionRequest.pasted, hunmonitored.1,
        hunmonitored.2] at hmany
      omega
    · omega
  · dsimp only
    rw [if_pos hmany, int64_of_fits ⟨by omega, by omega⟩]
    omega
  · dsimp only
    rw [if_neg hmany]

/-- **When a submission is flagged.** -/
theorem flagged_iff (h : req.NonNegative) :
    Flagged code req ↔ 150 < code.len ∧ req.typed < 25
      ∧ 250 < counted code.len req.typed req.pasted
      ∧ 3 / 4 < ratio (counted code.len req.typed req.pasted) code.len := by
  by_cases htyped : req.typed < 25
  · by_cases hlen : 150 < code.len
    · rw [Flagged, evaluateSubmissionTelemetry, if_neg (not_le.mpr hlen)]
      dsimp only
      rw [effectivePasted_eq h htyped hlen]
      split_ifs with hrule
      · simp [hlen, htyped, hrule.1, hrule.2.1]
      · simp only [false_iff]
        rintro ⟨-, -, hmany, hratio⟩
        exact hrule ⟨hmany, hratio, htyped⟩
    · rw [Flagged, evaluateSubmissionTelemetry, if_pos (not_lt.mp hlen)]
      simp [hlen]
  · rw [Flagged, evaluateSubmissionTelemetry]
    dsimp only
    split_ifs with hlen hrule
    · simp [htyped]
    · exact absurd hrule.2.2 htyped
    · simp [htyped]

@[simp] lemma typed_reporting (pastedChars : ℤ) : (req.reporting pastedChars).typed = req.typed := rfl

@[simp] lemma pasted_reporting (pastedChars : ℤ) :
    (req.reporting pastedChars).pasted = pastedChars := rfl

lemma CreateSubmissionRequest.NonNegative.reporting (h : req.NonNegative) {pastedChars : ℤ}
    (hp : Counter pastedChars) : (req.reporting pastedChars).NonNegative where
  typedCount := h.typedCount
  pasteCount := h.pasteCount
  pastedChars n hn := by
    obtain rfl := Option.mem_some_iff.mp hn
    exact hp
  maxPasteSize := h.maxPasteSize

end Rule

/-! ## More pasted characters -/

/-- With `more` pasted characters the rest is 100 or less and no longer counts, and they are not enough
alone. -/
def SlipsUnder (code : Code) (req : CreateSubmissionRequest) (more : ℤ) : Prop :=
  req.typed < 25 ∧ 250 < code.len - req.typed
    ∧ 100 < code.len - (req.typed + req.pasted) ∧ code.len - (req.typed + more) ≤ 100
    ∧ (more ≤ 250 ∨ 4 * more ≤ 3 * code.len)

instance (code : Code) (req : CreateSubmissionRequest) (more : ℤ) :
    Decidable (SlipsUnder code req more) :=
  inferInstanceAs (Decidable (_ ∧ _))

/-- **What is flagged stays flagged with more pasted characters** unless these let it slip under. -/
theorem paste_monotone_iff (code : Code) {req : CreateSubmissionRequest} (h : req.NonNegative)
    {more : ℤ} (hmore : req.pasted < more) (hint : more < 2 ^ 63) :
    (Flagged code req → Flagged code (req.reporting more)) ↔ ¬ SlipsUnder code req more := by
  obtain ⟨hpasted, -⟩ : Counter req.pasted := getD_counter h.pastedChars
  obtain ⟨htyped', -⟩ : Counter req.typed := getD_counter h.typedCount
  have h' : (req.reporting more).NonNegative := h.reporting ⟨by omega, hint⟩
  rw [flagged_iff h, flagged_iff h', typed_reporting, pasted_reporting]
  constructor
  · rintro hkeeps ⟨htyped, hlong, hbefore, hafter, hfew⟩
    have hall : counted code.len req.typed req.pasted = code.len - req.typed := if_pos hbefore
    have halone : counted code.len req.typed more = more := if_neg (not_lt.mpr hafter)
    rw [hall, halone] at hkeeps
    obtain ⟨-, -, henough, hratio⟩ := hkeeps
      ⟨by omega, htyped, hlong, lt_ratio (by omega) (by omega)⟩
    obtain hfew | hfew := hfew
    · omega
    · -- such a code has less than 500 bytes, whose quotients are exact enough
      obtain ⟨n, rfl⟩ : ∃ n : ℕ, more = n := ⟨more.toNat, by omega⟩
      have hle : ratio n code.len ≤ 3 / 4 := by
        unfold Code.len at *
        exact ratio_le (by omega) (by omega) (by omega)
      exact absurd hratio (not_lt.mpr hle)
  · rintro hslips ⟨hlen, htyped, henough, hratio⟩
    refine ⟨hlen, htyped, ?_⟩
    by_cases hafter : 100 < code.len - (req.typed + more)
    · -- the rest counts as before
      have hbefore : 100 < code.len - (req.typed + req.pasted) := by omega
      have heq : counted code.len req.typed req.pasted = counted code.len req.typed more := by
        rw [counted, counted, if_pos hbefore, if_pos hafter]
      rw [← heq]
      exact ⟨henough, hratio⟩
    · have halone : counted code.len req.typed more = more := if_neg hafter
      rw [halone]
      by_cases hbefore : 100 < code.len - (req.typed + req.pasted)
      · have hall : counted code.len req.typed req.pasted = code.len - req.typed := if_pos hbefore
        rw [hall] at henough
        have hfew : ¬ (more ≤ 250 ∨ 4 * more ≤ 3 * code.len) := fun hfew =>
          hslips ⟨htyped, henough, hbefore, not_lt.mp hafter, hfew⟩
        rw [not_or] at hfew
        exact ⟨by omega, lt_ratio (by omega) (by omega)⟩
      · have hreported : counted code.len req.typed req.pasted = req.pasted := if_neg hbefore
        rw [hreported] at henough hratio
        exact ⟨by omega, lt_of_lt_of_le hratio (ratio_mono (by omega) hmore.le (by omega))⟩

/-- A code of 300 bytes. -/
def code300 : Code := ⟨List.replicate 300 120, by rw [List.length_replicate]; norm_num⟩

/-- Hardly anything was typed. -/
def fewTyped : CreateSubmissionRequest := { typedCount := some 5, pastedChars := some 50 }

lemma fewTyped_nonNegative : fewTyped.NonNegative where
  typedCount := by decide
  pasteCount := by decide
  pastedChars := by decide
  maxPasteSize := by decide

theorem paste_monotone_few :
    fewTyped.pasted < 260
      ∧ ((Flagged code300 fewTyped → Flagged code300 (fewTyped.reporting 260))
        ↔ ¬ SlipsUnder code300 fewTyped 260) :=
  ⟨by decide, paste_monotone_iff code300 fewTyped_nonNegative (by decide) (by norm_num)⟩

/-- **200 pasted characters clear what 50 do not.** -/
theorem paste_clears :
    ¬ ∀ (code : Code) (req : CreateSubmissionRequest), req.NonNegative →
      ∀ more : ℤ, req.pasted < more → more < 2 ^ 63 →
        Flagged code req → Flagged code (req.reporting more) := by
  intro h
  have hlen : code300.len = 300 := by rw [Code.len, code300, List.length_replicate]; rfl
  have hbefore : Flagged code300 fewTyped := by
    have hall : counted 300 fewTyped.typed fewTyped.pasted = 295 := by decide
    rw [flagged_iff fewTyped_nonNegative, hlen, hall]
    exact ⟨by norm_num, by decide, by norm_num, lt_ratio (by norm_num) (by norm_num)⟩
  have hafter := h code300 fewTyped fewTyped_nonNegative 200 (by decide) (by norm_num) hbefore
  have halone : counted 300 (fewTyped.reporting 200).typed (fewTyped.reporting 200).pasted = 200 := by
    decide
  rw [flagged_iff (fewTyped_nonNegative.reporting (by decide)), hlen, halone] at hafter
  exact absurd hafter.2.2.1 (by norm_num)

end Api

end Labyrithm
