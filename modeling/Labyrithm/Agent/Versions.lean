import Labyrithm.Agent.Enrollment
import Labyrithm.Agent.Policy
import Mathlib.Data.List.Lex

/-!
# Versions of the client

What `enrollAgent` reads of the settings, and what its checks make of the version of a client: the least
version and the binaries are rows of `backend/internal/agent/settings.go`, and two texts are compared by
`CompareSemver`.  A text that is no version counts as 0.0.0; what follows a hyphen is not looked at.  The
letters that `unicode.ToLower` changes are a parameter, `lower`.

* `Snapshot.enrollSettings` — what is read.
* `compareComponents_eq` — two texts are compared as the lists of their numbers are.
* `WrittenVersion` — a version with blanks around it, perhaps a `v` in front and a suffix.
* `parseSemverComponents_text` — it is read as it was written.

**`enroll_version`** — texts are compared by a total preorder, and a client whose version is written enrolls,
if nothing else stands against it, exactly where that is not earlier than the least one that is written.
-/

namespace Labyrithm

namespace Agent

open Go

/-! ## The settings -/

/-- `MinClientVersion`. -/
def Snapshot.minClientVersion (s : Snapshot) : List Char :=
  let val := trimSpace ((s.values.get? "proctor.min_client_version").getD [])
  if val = [] then "0.2.0".toList else val

/-- `EnforceBinaryHash`. -/
def Snapshot.enforceBinaryHash (s : Snapshot) : Bool := s.bool "proctor.enforce_binary_hash" false

/-- `AuthorizedBinaryHashes`. -/
def Snapshot.authorizedBinaryHashes (lower : Char → Char) (s : Snapshot) : List String :=
  let raw := trimSpace ((s.values.get? "proctor.authorized_binary_hashes").getD [])
  if raw = [] then []
  else ((split raw ',').map fun part => String.ofList ((trimSpace part).map lower)).filter
    fun trimmed => trimmed ≠ ""

/-- What `enrollAgent` reads of the snapshot. -/
def Snapshot.enrollSettings (lower : Char → Char) (s : Snapshot) : EnrollSettings where
  lower := lower
  minClientVersion := String.ofList s.minClientVersion
  enforceBinaryHash := s.enforceBinaryHash
  authorizedBinaryHashes := s.authorizedBinaryHashes lower

/-! ## The order -/

/-- Numbers are compared from the left. -/
lemma compareComponents_eq {as bs : List ℤ} (h : as.length = bs.length) :
    compareComponents as bs = if as < bs then -1 else if bs < as then 1 else 0 := by
  induction as generalizing bs with
  | nil =>
      obtain rfl : bs = [] := List.length_eq_zero_iff.mp h.symm
      rw [compareComponents, if_neg (lt_irrefl _), if_neg (lt_irrefl _)]
      exact nofun
  | cons a as ih =>
      cases bs with
      | nil => cases h
      | cons b bs =>
          rw [compareComponents, ih (Nat.succ.inj h)]
          rcases lt_trichotomy a b with hab | rfl | hab
          · rw [if_pos hab, if_pos (List.cons_lt_cons_iff.mpr (.inl hab))]
          · simp only [List.cons_lt_cons_iff, lt_irrefl, true_and, false_or, if_false]
          · rw [if_neg hab.not_gt, if_pos hab, if_neg, if_pos (List.cons_lt_cons_iff.mpr (.inl hab))]
            rw [List.cons_lt_cons_iff]
            omega

/-- Two texts are compared as their versions are. -/
lemma compareSemver_eq (a b : String) : compareSemver a b =
    if parseSemverComponents a < parseSemverComponents b then -1
    else if parseSemverComponents b < parseSemverComponents a then 1 else 0 :=
  compareComponents_eq rfl

lemma compareSemver_nonpos {a b : String} :
    compareSemver a b ≤ 0 ↔ parseSemverComponents a ≤ parseSemverComponents b := by
  rw [compareSemver_eq]
  split_ifs with hab hba
  · exact iff_of_true (by decide) hab.le
  · exact iff_of_false (by decide) hba.not_ge
  · exact iff_of_true le_rfl (not_lt.mp hba)

lemma compareSemver_neg {a b : String} :
    compareSemver a b < 0 ↔ parseSemverComponents a < parseSemverComponents b := by
  rw [compareSemver_eq]
  split_ifs with hab hba
  · exact iff_of_true (by decide) hab
  · exact iff_of_false (by decide) hab
  · exact iff_of_false (lt_irrefl _) hab

lemma compareSemver_swap (a b : String) : compareSemver a b = -compareSemver b a := by
  rw [compareSemver_eq, compareSemver_eq b a]
  split_ifs with hab hba hba
  · exact absurd (hab.trans hba) (lt_irrefl _)
  · rfl
  · rfl
  · rfl

/-! ## Versions that are written -/

/-- A version as it may be written: blanks, perhaps a mark, three numbers, and blanks or a suffix. -/
structure WrittenVersion where
  blanks : List Char
  mark : Option Char
  major : ℕ
  minor : ℕ
  patch : ℕ
  rest : List Char
  blank : ∀ ch ∈ blanks, isSpace ch = true
  isMark : ∀ ch, mark = some ch → ch = 'v' ∨ ch = 'V'
  fits : major < 2 ^ 63 ∧ minor < 2 ^ 63 ∧ patch < 2 ^ 63
  ending : (∀ ch ∈ rest, isSpace ch = true) ∨ rest.head? = some '-'

namespace WrittenVersion

variable (v : WrittenVersion)

/-- The three numbers with dots between them. -/
def core : List Char := decimal v.major ++ '.' :: (decimal v.minor ++ '.' :: decimal v.patch)

def text : List Char := v.blanks ++ ((v.mark.toList ++ v.core) ++ v.rest)

def numbers : List ℤ := [v.major, v.minor, v.patch]

end WrittenVersion

section Written

variable {v : WrittenVersion} {n : ℕ}

lemma not_isSpace_of_isDigit {ch : Char} (h : ch.isDigit = true) : isSpace ch = false := by
  have hrange : 48 ≤ ch.toNat ∧ ch.toNat ≤ 57 := by
    delta Char.isDigit at h
    rw [Bool.and_eq_true] at h
    exact ⟨of_decide_eq_true h.1, of_decide_eq_true h.2⟩
  simp only [isSpace, Bool.or_eq_false_iff, Bool.and_eq_false_iff, decide_eq_false_iff_not]
  omega

lemma decimal_not_mem {ch : Char} (h : ch.isDigit = false) : ch ∉ decimal n := by
  intro hmem
  rw [isDigit_of_mem_decimal hmem] at h
  cases h

lemma core_chars {ch : Char} (h : ch ∈ v.core) : ch.isDigit = true ∨ ch = '.' := by
  simp only [WrittenVersion.core, List.mem_append, List.mem_cons] at h
  rcases h with h | h | h | h | h
  · exact .inl (isDigit_of_mem_decimal h)
  · exact .inr h
  · exact .inl (isDigit_of_mem_decimal h)
  · exact .inr h
  · exact .inl (isDigit_of_mem_decimal h)

lemma head_decimal_ne {mark : Char} (h : mark.isDigit = false) (s : List Char) :
    trimPrefix mark (decimal n ++ s) = decimal n ++ s := by
  cases hn : decimal n with
  | nil => exact absurd hn (decimal_ne_nil n)
  | cons ch rest =>
      have hmem : ch ∈ decimal n := by
        rw [hn]
        exact List.mem_cons_self
      rw [List.cons_append, trimPrefix, if_neg fun heq => decimal_not_mem h (heq ▸ hmem)]

/-- The number of a part. -/
lemma semverComponent_decimal (h : n < 2 ^ 63) {parts : List (List Char)} {i : ℕ}
    (hpart : parts[i]? = some (decimal n)) : semverComponent parts i = n := by
  have htrim : trimSpace (decimal n) = decimal n := by
    have haround := trimSpace_around (s := decimal n) (u := []) (v := []) (by simp) (by simp)
      (fun ch hch => not_isSpace_of_isDigit (isDigit_of_mem_decimal (List.mem_of_mem_head? hch)))
      (fun ch hch => not_isSpace_of_isDigit (isDigit_of_mem_decimal (List.mem_of_mem_getLast? hch)))
    simpa using haround
  simp [semverComponent, hpart, htrim, atoi_decimal h]

/-- The parts of the numbers. -/
lemma split_core : split v.core '.' = [decimal v.major, decimal v.minor, decimal v.patch] := by
  have hdot : ∀ n, '.' ∉ decimal n := fun n => decimal_not_mem (by decide)
  rw [split, WrittenVersion.core, List.splitOn_append_cons_self_of_not_mem (hdot _),
    List.splitOn_append_cons_self_of_not_mem (hdot _), List.splitOn_eq_singleton (hdot _)]

lemma head_core {ch : Char} (h : v.core.head? = some ch) : ch.isDigit = true := by
  rw [WrittenVersion.core, List.head?_append_of_ne_nil _ (decimal_ne_nil _)] at h
  exact isDigit_of_mem_decimal (List.mem_of_mem_head? h)

lemma getLast_core {ch : Char} (h : v.core.getLast? = some ch) : ch.isDigit = true := by
  have hcore : v.core = (decimal v.major ++ '.' :: (decimal v.minor ++ ['.'])) ++ decimal v.patch := by
    simp [WrittenVersion.core]
  rw [hcore, List.getLast?_append_of_ne_nil _ (decimal_ne_nil _)] at h
  exact isDigit_of_mem_decimal (List.mem_of_mem_getLast? h)

lemma core_ne_nil : v.core ≠ [] := by simp [WrittenVersion.core]

/-- What is left of the text between the blanks: the mark, the numbers, and nothing or a suffix. -/
lemma trimSpace_text : ∃ suffix, (suffix = [] ∨ suffix.head? = some '-') ∧
    trimSpace v.text = v.mark.toList ++ (v.core ++ suffix) := by
  obtain ⟨r, b, hrest, hb, hr⟩ := exists_blanks_after v.rest
  have hsuffix : r = [] ∨ r.head? = some '-' := by
    cases r with
    | nil => exact .inl rfl
    | cons ch r =>
        refine .inr ?_
        rcases v.ending with hall | hhead
        · obtain ⟨c, hc⟩ := Option.isSome_iff_exists.mp (by simp : (ch :: r).getLast?.isSome)
          have hmem : c ∈ v.rest := by
            rw [hrest]
            exact List.mem_append_left _ (List.mem_of_mem_getLast? hc)
          exact absurd (hall c hmem) (by simp [hr c hc])
        · rw [hrest] at hhead
          exact hhead
  refine ⟨r, hsuffix, ?_⟩
  have htext : v.text = v.blanks ++ ((v.mark.toList ++ (v.core ++ r)) ++ b) := by
    simp [WrittenVersion.text, hrest]
  rw [htext]
  refine trimSpace_around v.blank hb (fun ch hch => ?_) (fun ch hch => ?_)
  · cases hmark : v.mark with
    | none =>
        rw [hmark, Option.toList_none, List.nil_append, List.head?_append_of_ne_nil _ core_ne_nil] at hch
        exact not_isSpace_of_isDigit (head_core hch)
    | some mark =>
        rw [hmark] at hch
        obtain rfl : mark = ch := Option.some.inj hch
        rcases v.isMark mark hmark with rfl | rfl <;> decide
  · have hne : v.core ++ r ≠ [] := fun h => core_ne_nil (List.append_eq_nil_iff.mp h).1
    rw [List.getLast?_append_of_ne_nil _ hne] at hch
    rcases List.eq_nil_or_concat r with rfl | ⟨r, c, rfl⟩
    · rw [List.append_nil] at hch
      exact not_isSpace_of_isDigit (getLast_core hch)
    · rw [List.getLast?_append_of_ne_nil _ (by simp)] at hch
      exact hr ch hch

lemma trimPrefix_text (suffix : List Char) :
    trimPrefix 'V' (trimPrefix 'v' (v.mark.toList ++ (v.core ++ suffix))) = v.core ++ suffix := by
  have hkept : ∀ {mark : Char}, mark.isDigit = false →
      trimPrefix mark (v.core ++ suffix) = v.core ++ suffix := by
    intro mark hmark
    rw [WrittenVersion.core, List.append_assoc]
    exact head_decimal_ne hmark _
  cases hmark : v.mark with
  | none =>
      rw [Option.toList_none, List.nil_append, hkept (by decide), hkept (by decide)]
  | some mark =>
      rw [Option.toList_some, List.singleton_append]
      rcases v.isMark mark hmark with rfl | rfl
      · rw [trimPrefix, if_pos rfl, hkept (by decide)]
      · rw [trimPrefix, if_neg (by decide), trimPrefix, if_pos rfl]

/-- **A version is read as it was written.** -/
lemma parseSemverComponents_text (v : WrittenVersion) :
    parseSemverComponents (String.ofList v.text) = v.numbers := by
  obtain ⟨suffix, hsuffix, htrim⟩ := trimSpace_text (v := v)
  have hcut : (v.core ++ suffix).takeWhile (fun ch => ch ≠ '-') = v.core := by
    have hcore : ∀ ch ∈ v.core, decide (ch ≠ '-') = true := by
      intro ch hch
      refine decide_eq_true fun heq => ?_
      rcases core_chars hch with hdigit | hdot
      · rw [heq] at hdigit
        exact absurd hdigit (by decide)
      · rw [heq] at hdot
        exact absurd hdot (by decide)
    rw [List.takeWhile_append_of_pos hcore]
    rcases hsuffix with rfl | hhead
    · rw [List.takeWhile_nil, List.append_nil]
    · cases suffix with
      | nil => cases hhead
      | cons ch suffix =>
          obtain rfl : ch = '-' := Option.some.inj hhead
          rw [List.takeWhile_cons_of_neg (by decide), List.append_nil]
  obtain ⟨hmajor, hminor, hpatch⟩ := v.fits
  simp only [parseSemverComponents, String.toList_ofList, htrim, trimPrefix_text, hcut, split_core]
  rw [semverComponent_decimal hmajor rfl, semverComponent_decimal hminor rfl, semverComponent_decimal hpatch rfl]
  rfl

lemma trimSpace_text_ne_nil : trimSpace v.text ≠ [] := by
  obtain ⟨suffix, -, htrim⟩ := trimSpace_text (v := v)
  rw [htrim]
  simp [core_ne_nil]

end Written

/-! ## Enrolment -/

section Enrolment

variable (lower : Char → Char) (s : Snapshot)

/-- The binary is one of those that are let in, where they are checked. -/
def Authorized (hash : String) : Prop :=
  s.enforceBinaryHash = true → s.authorizedBinaryHashes lower = [] ∨
    String.ofList ((trimSpace hash.toList).map lower) ∈ s.authorizedBinaryHashes lower

lemma empty_not_mem_authorizedBinaryHashes : "" ∉ s.authorizedBinaryHashes lower := by
  intro h
  simp only [Snapshot.authorizedBinaryHashes] at h
  split_ifs at h with hraw
  · cases h
  · simp at h

/-- The least version that is asked for is never empty. -/
lemma minClientVersion_ne_nil : s.minClientVersion ≠ [] := by
  simp only [Snapshot.minClientVersion]
  split_ifs with hval
  · decide
  · exact hval

lemma parse_minClientVersion {v : WrittenVersion}
    (h : s.values.get? "proctor.min_client_version" = some v.text) :
    parseSemverComponents (String.ofList s.minClientVersion) = v.numbers := by
  have hmin : s.minClientVersion = trimSpace v.text := by
    simp only [Snapshot.minClientVersion, h, Option.getD_some, if_neg trimSpace_text_ne_nil]
  rw [← parseSemverComponents_text v, hmin]
  simp only [parseSemverComponents, String.toList_ofList, trimSpace_idem]

/-- The client has to be updated. -/
def Outdated (version : String) : Prop :=
  version ≠ "" ∧ parseSemverComponents version < parseSemverComponents (String.ofList s.minClientVersion)

lemma outdated_iff (req : EnrollRequest) :
    (s.enrollSettings lower).outdated req = true ↔ Outdated s req.agentVersion := by
  have hmin : String.ofList s.minClientVersion ≠ "" := by
    intro h
    refine minClientVersion_ne_nil s ?_
    rw [← String.toList_ofList (l := s.minClientVersion), h]
    rfl
  simp [EnrollSettings.outdated, Snapshot.enrollSettings, hmin, Outdated, compareSemver_neg]

lemma unauthorized_iff (req : EnrollRequest) :
    (s.enrollSettings lower).unauthorized req = true ↔ ¬ Authorized lower s req.binaryHash := by
  have hempty := empty_not_mem_authorizedBinaryHashes lower s
  simp only [EnrollSettings.unauthorized, Bool.and_eq_true, Bool.or_eq_true, decide_eq_true_iff, Authorized]
  simp only [Snapshot.enrollSettings]
  generalize String.ofList ((trimSpace req.binaryHash.toList).map lower) = clientHash
  by_cases hnone : clientHash = ""
  · simp [hnone, hempty]
  · simp [hnone, and_assoc]

/-- What the checks say of a competitor. -/
lemma enrollRefusal_cases (req : EnrollRequest) :
    (enrollRefusal (some (s.enrollSettings lower)) true req = some .clientUpdateRequired ↔
      Outdated s req.agentVersion) ∧
    (enrollRefusal (some (s.enrollSettings lower)) true req = none ↔
      ¬ Outdated s req.agentVersion ∧ Authorized lower s req.binaryHash ∧
        req.consentVersion = consentVersion) := by
  have hcompetitor : ¬ true = false := nofun
  simp only [enrollRefusal, if_neg hcompetitor, Option.any_some]
  by_cases houtdated : (s.enrollSettings lower).outdated req = true
  · simp [houtdated, (outdated_iff lower s req).mp houtdated]
  have hcurrent := mt (outdated_iff lower s req).mpr houtdated
  by_cases hunauthorized : (s.enrollSettings lower).unauthorized req = true
  · simp [houtdated, hunauthorized, hcurrent, (unauthorized_iff lower s req).mp hunauthorized]
  have hauthorized := not_not.mp (mt (unauthorized_iff lower s req).mpr hunauthorized)
  by_cases hconsent : req.consentVersion = consentVersion
  · simp [houtdated, hunauthorized, hcurrent, hauthorized, hconsent]
  · simp [houtdated, hunauthorized, hcurrent, hconsent]

/-- **Versions at enrolment.**  Texts are compared by a total preorder.  Where the least version is written, a
client whose version is written is told to update exactly if its version is earlier, and enrolls exactly if it
is not, its binary is let in, and it has shown the disclosure that is in force.  A client that enrolls with
some version enrolls with every later one. -/
theorem enroll_version :
    (∀ a b, compareSemver a b = -compareSemver b a) ∧
    (∀ a b c, compareSemver a b ≤ 0 → compareSemver b c ≤ 0 → compareSemver a c ≤ 0) ∧
    (∀ v min : WrittenVersion, s.values.get? "proctor.min_client_version" = some min.text →
      ∀ req : EnrollRequest, req.agentVersion = String.ofList v.text →
        (enrollRefusal (some (s.enrollSettings lower)) true req = some .clientUpdateRequired ↔
          v.numbers < min.numbers) ∧
        (enrollRefusal (some (s.enrollSettings lower)) true req = none ↔
          min.numbers ≤ v.numbers ∧ Authorized lower s req.binaryHash ∧
            req.consentVersion = consentVersion)) ∧
    (∀ (req : EnrollRequest) (newer : String), req.agentVersion ≠ "" →
      compareSemver req.agentVersion newer ≤ 0 →
      enrollRefusal (some (s.enrollSettings lower)) true req = none →
      enrollRefusal (some (s.enrollSettings lower)) true { req with agentVersion := newer } = none) := by
  refine ⟨compareSemver_swap, fun a b c hab hbc => ?_, ?_, ?_⟩
  · exact compareSemver_nonpos.mpr ((compareSemver_nonpos.mp hab).trans (compareSemver_nonpos.mp hbc))
  · intro v min hmin req hversion
    have hwritten : req.agentVersion ≠ "" := by
      intro hempty
      refine trimSpace_text_ne_nil (v := v) ?_
      rw [← String.toList_ofList (l := v.text), ← hversion, hempty]
      rfl
    have houtdated : Outdated s req.agentVersion ↔ v.numbers < min.numbers := by
      rw [Outdated, and_iff_right hwritten, parse_minClientVersion s hmin, hversion,
        parseSemverComponents_text]
    obtain ⟨hupdate, hnone⟩ := enrollRefusal_cases lower s req
    rw [houtdated] at hupdate hnone
    rw [not_lt] at hnone
    exact ⟨hupdate, hnone⟩
  · intro req newer hwritten hle henrolled
    obtain ⟨hcurrent, hrest⟩ := (enrollRefusal_cases lower s req).2.mp henrolled
    refine (enrollRefusal_cases lower s { req with agentVersion := newer }).2.mpr ⟨?_, hrest⟩
    rintro ⟨-, hlt⟩
    exact hcurrent ⟨hwritten, (compareSemver_nonpos.mp hle).trans_lt hlt⟩

end Enrolment

/-- `v0.10.0-beta`, after a blank. -/
def sampleClient : WrittenVersion where
  blanks := [' ']
  mark := some 'v'
  major := 0
  minor := 10
  patch := 0
  rest := "-beta".toList
  blank := List.forall_mem_singleton.mpr rfl
  isMark := by
    intro ch h
    obtain rfl := Option.some.inj h
    exact .inl rfl
  fits := by decide
  ending := .inr rfl

/-- `0.2.0`. -/
def sampleMin : WrittenVersion where
  blanks := []
  mark := none
  major := 0
  minor := 2
  patch := 0
  rest := []
  blank := List.forall_mem_nil _
  isMark := by
    intro ch h
    cases h
  fits := by decide
  ending := .inl (List.forall_mem_nil _)

/-- Settings that ask for `0.2.0` at least. -/
def sampleSettings : Snapshot :=
  buildSnapshot Char.toLower ((∅ : Rows).insert "proctor.min_client_version" sampleMin.text)

theorem enroll_version_sample :
    let req : EnrollRequest := ⟨"m", "linux", String.ofList sampleClient.text, consentVersion, ""⟩
    let settings := some (sampleSettings.enrollSettings Char.toLower)
    enrollRefusal settings true req = none ∧
      enrollRefusal settings true { req with agentVersion := "1.0" } = none := by
  intro req settings
  obtain ⟨-, -, hwritten, hlater⟩ := enroll_version Char.toLower sampleSettings
  have hmin : sampleSettings.values.get? "proctor.min_client_version" = some sampleMin.text := rfl
  obtain ⟨-, hnone⟩ := hwritten sampleClient sampleMin hmin req rfl
  have henrolled := hnone.mpr ⟨by decide, fun h => absurd h (by decide), rfl⟩
  refine ⟨henrolled, hlater req "1.0" (by decide) ?_ henrolled⟩
  decide +kernel

end Agent

end Labyrithm
