import Labyrithm.Go.Map
import Labyrithm.Go.Strings

/-!
# Endpoint signals

`backend/internal/proctor/evaluator.go`, lines 86–297: what an observation of a contestant's machine is
folded into.  `endpointObservations` is the list of findings that `ApplyEndpointSignals` records, in
order; how they are recorded is in `Findings`.

A `range` over the dwell times meets their keys in some order, and each of the two matchers has its own.

* `matchForeground_matches` — an app that is reported contains a term of the denylist.
* `matchUnauthorizedForeground_unmatched` — and one that is reported as unauthorized none of the
  allowlist.
-/

namespace Labyrithm

namespace Proctor

/-- A value of a finding's evidence; `json` is any other value, by its text. -/
inductive Value
  | text (s : String)
  | flag (b : Bool)
  | number (n : ℤ)
  | texts (l : List String)
  | json (raw : String)
  deriving DecidableEq, Repr

/-- A `map[string]any`. -/
abbrev Evidence := List (String × Value)

/-- The arguments of `observe`. -/
structure Observation where
  ruleID : String
  defaultWeight : ℤ
  evidence : Evidence
  deriving DecidableEq, Repr

structure PortObservation where
  port : ℤ
  ruleID : String
  product : String
  confirmed : Bool
  deriving DecidableEq, Repr

structure SignalInput where
  userID : String
  internetReachable : Bool
  ports : List PortObservation
  processMatches : List String
  extensionMatches : List String
  totalProcesses : ℤ
  foregroundApp : String
  foregroundDwell : Go.Map String ℤ
  foregroundDenylist : List String
  foregroundAllowlist : List String

/-! ## Terms -/

/-- A rune that `tokenize` keeps. -/
def isWord (ch : Char) : Bool := ('a' ≤ ch && ch ≤ 'z') || ('0' ≤ ch && ch ≤ '9')

/-- `strings.FieldsFunc`, with the field that is being read. -/
def fields : List Char → List Char → List (List Char)
  | word, [] => if word = [] then [] else [word]
  | word, ch :: rest =>
      if isWord ch then fields (word ++ [ch]) rest
      else if word = [] then fields [] rest
      else word :: fields [] rest

def tokenize (value : String) : List (List Char) := fields [] (Go.toLower value.toList)

def matchesTerm (candidate term : List (List Char)) : Bool :=
  if term = [] ∨ candidate.length < term.length then false
  else (List.range (candidate.length + 1 - term.length)).any fun i =>
    (candidate.drop i).take term.length = term

/-- The terms of a list that are not empty. -/
def terms (list : List String) : List (List (List Char)) :=
  (list.map tokenize).filter fun tokens => tokens ≠ []

/-- `matchForeground`, with the keys of `dwell` in the order of the range. -/
def matchForeground (app : String) (dwell denylist : List String) : String :=
  ((if app ≠ "" then [app] else []) ++ dwell).find?
    (fun candidate => (terms denylist).any (matchesTerm (tokenize candidate))) |>.getD ""

/-- The launchers that go by another name, without `.exe`. -/
def launchers : List (String × String) :=
  [("idea64", "idea"), ("pycharm64", "pycharm"), ("clion64", "clion"), ("webstorm64", "webstorm"),
    ("goland64", "goland"), ("rider64", "rider"), ("phpstorm64", "phpstorm"),
    ("rubymine64", "rubymine"), ("datagrip64", "datagrip")]

/-- `strings.TrimSuffix`. -/
def trimSuffix (s suffix : List Char) : List Char :=
  if suffix <:+ s then s.take (s.length - suffix.length) else s

def foregroundLauncherAlias (app : String) : String :=
  let name := trimSuffix (Go.toLower app.toList) ".exe".toList
  (launchers.lookup (String.ofList name)).getD app

/-- Whether a candidate or its alias matches a term of the allowlist. -/
def allowed (allowlist : List String) (candidate : String) : Bool :=
  (terms allowlist).any fun term => matchesTerm (tokenize candidate) term
    || matchesTerm (tokenize (foregroundLauncherAlias candidate)) term

/-- `matchUnauthorizedForeground`, with the keys of `dwell` in the order of the range. -/
def matchUnauthorizedForeground (app : String) (dwell allowlist : List String) : String :=
  if allowlist = [] then ""
  else
    ((app :: dwell).filter fun candidate => candidate ≠ "" && candidate ≠ "unknown").find?
      (fun candidate => !allowed allowlist candidate) |>.getD ""

/-! ## Observations -/

/-- What `ApplyEndpointSignals` observes, the two ranges over the dwell times taken in these orders. -/
def endpointObservations (input : SignalInput) (deny allow : List String) : List Observation :=
  let denied := matchForeground input.foregroundApp deny input.foregroundDenylist
  let unauthorized := matchUnauthorizedForeground input.foregroundApp allow input.foregroundAllowlist
  let foreground (app : String) : Evidence :=
    [("app", .text app), ("dwell_ms", .number ((input.foregroundDwell.get? app).getD 0))]
  (if input.internetReachable then
    [⟨"net.internet", 50, [("reachable", .flag true),
      ("probes", .texts ["1.1.1.1:53", "8.8.8.8:53"])]⟩]
  else [])
  ++ ((input.ports.filter PortObservation.confirmed).map fun p =>
    ⟨p.ruleID, 40, [("port", .number p.port), ("product", .text p.product),
      ("confirmed", .flag true)]⟩)
  ++ (if input.processMatches ≠ [] then
    [⟨"ai.proc.denylist", 30, [("matches", .texts input.processMatches),
      ("total", .number input.totalProcesses)]⟩]
  else [])
  ++ (if input.extensionMatches ≠ [] then
    [⟨"ai.ext.detected", 0, [("extensions", .texts input.extensionMatches)]⟩]
  else [])
  ++ (if denied ≠ "" then [⟨"ai.fg.denylist", 25, foreground denied⟩] else [])
  ++ (if unauthorized ≠ "" then [⟨"app.unauthorized_foreground", 25, foreground unauthorized⟩]
  else [])

/-! ## What is matched -/

variable {app candidate : String} {dwell denylist allowlist : List String}

/-- An app that is reported as denied is one of the candidates, and contains a term. -/
lemma matchForeground_matches (h : matchForeground app dwell denylist ≠ "") :
    (matchForeground app dwell denylist = app ∨ matchForeground app dwell denylist ∈ dwell)
      ∧ ∃ term ∈ terms denylist,
          matchesTerm (tokenize (matchForeground app dwell denylist)) term := by
  unfold matchForeground at h ⊢
  cases hfind : List.find? _ _ with
  | none =>
      rw [hfind] at h
      exact absurd rfl h
  | some found =>
      have hmem := List.mem_of_find?_eq_some hfind
      have hmatch := List.find?_some hfind
      refine ⟨?_, by simpa using hmatch⟩
      by_cases happ : app = ""
      · exact .inr (by simpa [happ] using hmem)
      · simpa [happ] using hmem

/-- An app that is reported as unauthorized matches no term, and neither does its alias. -/
lemma matchUnauthorizedForeground_unmatched
    (h : matchUnauthorizedForeground app dwell allowlist ≠ "") :
    allowed allowlist (matchUnauthorizedForeground app dwell allowlist) = false := by
  unfold matchUnauthorizedForeground at h ⊢
  split_ifs at h ⊢ with hempty
  · exact absurd rfl h
  cases hfind : List.find? _ _ with
  | none =>
      rw [hfind] at h
      exact absurd rfl h
  | some found => simpa using List.find?_some hfind

example : matchForeground "com.apple.Terminal" ["com.lmstudio.app"] ["ai.ollama", "lmstudio"]
    = "com.lmstudio.app" := by decide +kernel

example : matchesTerm (tokenize "/home/janith/code/solution") (tokenize "jan") = false := by
  decide +kernel

end Proctor

end Labyrithm
