import Labyrithm.Agent.Gate
import Labyrithm.Go.Map
import Labyrithm.Go.Texts

/-!
# The policy that is served

`backend/internal/agent/settings.go`: the levers of a contest are rows of `contest_settings`, read again
and again into a snapshot, from which the gate, the agents and the evaluator are served.  A read that fails
leaves the snapshot as it was; a row that is missing or malformed leaves its own lever at the default.

The letters that `unicode.ToLower` changes are a parameter, `lower`.

* `splitTerms`, `buildSnapshot`, `Snapshot.reload` — the code.
* `Canonical` — a term as it is served; `splitTerms_canonical`.
* **`splitTerms_join`** — exactly the lists of different canonical terms are what is served of some text, and
  each of them is read back as it was written.
* **`policy_served`** — whatever was read, the policy in force has cadences that are positive and lists that are
  not empty, and comes from the last read that did not fail.
-/

namespace Labyrithm

namespace Agent

open Go

/-! ## Policies -/

structure Policy where
  heartbeatSeconds : ℤ
  portProbeSeconds : ℤ
  keepaliveSeconds : ℤ
  rulesRefreshSeconds : ℤ
  gateMaxStaleSeconds : ℤ
  processDenylist : List (List Char)
  foregroundDenylist : List (List Char)
  foregroundAllowlist : List (List Char)

/-- `DefaultPolicy().ProcessDenylist`. -/
def defaultProcessDenylist : List String :=
  ["ollama", "lmstudio", "lm studio", "jan", "gpt4all", "llama-server", "llama.cpp", "vllm",
   "koboldcpp", "localai", "text-generation-webui", "tabby serve", "gpt4all-chat", "copilot-agent",
   "copilot-language-server", "github.copilot", "codeium-lsp", "tabnine", "tabnine-deep-local",
   "continue.continue", "supermaven", "cursor", "windsurf", "trae", "pearai", "void-editor",
   "claude", "aider", "copilot", "sgpt", "interpreter", "open-interpreter", "cody", "goose", "llm",
   "gemini-cli", "amp", "qodo", "antigravity", "antigravity-ide", "cline", "roo-cline", "roocode",
   "open-webui", "chatbox", "cherry-studio"]

/-- `DefaultPolicy().ForegroundDenylist`. -/
def defaultForegroundDenylist : List String :=
  ["ai.ollama", "com.ollama", "lmstudio", "ai.jan", "com.gpt4all", "koboldcpp",
   "com.todesktop.230313mzl4w4u92", "com.exafunction.windsurf", "cursor", "windsurf", "trae",
   "pearai", "com.google.antigravity-ide", "antigravity", "chatbox", "cherry-studio"]

/-- `DefaultPolicy().ForegroundAllowlist`. -/
def defaultForegroundAllowlist : List String :=
  ["com.google.chrome", "chrome", "google-chrome", "org.mozilla.firefox", "firefox",
   "com.apple.safari", "safari", "com.microsoft.edgemac", "msedge", "edge", "com.brave.browser",
   "brave", "com.microsoft.vscode", "code", "com.microsoft.vscodeinsiders", "vscodium", "codium",
   "com.jetbrains.intellij", "idea", "com.jetbrains.pycharm", "pycharm", "com.jetbrains.clion",
   "clion", "com.jetbrains.webstorm", "webstorm", "com.jetbrains.goland", "goland",
   "com.jetbrains.rider", "rider", "com.apple.dt.xcode", "xcode", "devenv", "visual studio",
   "com.sublimetext.4", "com.sublimetext.3", "sublime_text", "sublime", "nvim", "neovim", "vim",
   "emacs", "eclipse", "codeblocks", "geany", "notepad++", "kate", "com.apple.terminal",
   "terminal", "com.googlecode.iterm2", "iterm", "iterm2", "windowsterminal", "cmd", "powershell",
   "pwsh", "alacritty", "kitty", "wezterm", "warp", "labyrithm-competitor",
   "com.minilabyrithm.competitor", "app", "com.apple.finder", "finder", "explorer",
   "systemsettings", "com.apple.systempreferences"]

/-- `DefaultPolicy`. -/
def defaultPolicy : Policy where
  heartbeatSeconds := 10
  portProbeSeconds := 60
  keepaliveSeconds := 300
  rulesRefreshSeconds := 300
  gateMaxStaleSeconds := Agent.gateMaxStaleSeconds
  processDenylist := defaultProcessDenylist.map String.toList
  foregroundDenylist := defaultForegroundDenylist.map String.toList
  foregroundAllowlist := defaultForegroundAllowlist.map String.toList

/-! ## Snapshots -/

/-- The rows by key. -/
abbrev Rows := Map String (List Char)

structure Snapshot where
  values : Rows
  policy : Policy
  degraded : Bool

section Code

variable (lower : Char → Char)

/-- A term of a list, if there is none like it. -/
def addTerm (out : List (List Char)) (part : List Char) : List (List Char) :=
  let term := (trimSpace part).map lower
  if term = [] ∨ out.contains term then out else out ++ [term]

/-- `splitTerms`. -/
def splitTerms (raw : List Char) : List (List Char) := (split raw ',').foldl (addTerm lower) []

/-- The value of `positiveInt`, if the key is not missing. -/
def positiveInt (values : Rows) (key : String) : Option ℤ :=
  (values.get? key).bind fun raw =>
    if trimSpace raw = [] then none else (atoi (trimSpace raw)).filter (0 < ·)

/-- The value of `terms`, if the key is not missing. -/
def terms (values : Rows) (key : String) : Option (List (List Char)) :=
  (values.get? key).bind fun raw => if splitTerms lower raw = [] then none else some (splitTerms lower raw)

/-- The keys of the cadences. -/
def intKeys : List String :=
  ["proctor.heartbeat_seconds", "proctor.port_probe_seconds", "proctor.keepalive_seconds",
    "proctor.rules_refresh_seconds", "proctor.gate_max_stale_seconds"]

/-- The keys of the lists. -/
def listKeys : List String :=
  ["proctor.process_denylist", "proctor.foreground_denylist", "proctor.foreground_allowlist"]

/-- The keys that fall back. -/
def missing (values : Rows) : List String :=
  (intKeys.filter fun key => (positiveInt values key).isNone) ++
    listKeys.filter fun key => (terms lower values key).isNone

/-- `buildSnapshot`. -/
def buildSnapshot (values : Rows) : Snapshot where
  values := values
  policy := {
    heartbeatSeconds :=
      (positiveInt values "proctor.heartbeat_seconds").getD defaultPolicy.heartbeatSeconds
    portProbeSeconds :=
      (positiveInt values "proctor.port_probe_seconds").getD defaultPolicy.portProbeSeconds
    keepaliveSeconds :=
      (positiveInt values "proctor.keepalive_seconds").getD defaultPolicy.keepaliveSeconds
    rulesRefreshSeconds :=
      (positiveInt values "proctor.rules_refresh_seconds").getD defaultPolicy.rulesRefreshSeconds
    gateMaxStaleSeconds :=
      (positiveInt values "proctor.gate_max_stale_seconds").getD defaultPolicy.gateMaxStaleSeconds
    processDenylist :=
      (terms lower values "proctor.process_denylist").getD defaultPolicy.processDenylist
    foregroundDenylist :=
      (terms lower values "proctor.foreground_denylist").getD defaultPolicy.foregroundDenylist
    foregroundAllowlist :=
      (terms lower values "proctor.foreground_allowlist").getD defaultPolicy.foregroundAllowlist }
  degraded := missing lower values ≠ []

/-- `NewSettings`. -/
def newSettings : Snapshot where
  values := ∅
  policy := defaultPolicy
  degraded := true

/-- What the database answers to the query of `Reload`: an error, or rows, of which `Scan` may fail for
some, and an error behind them. -/
inductive Answer
  | refused
  | rows (rows : List (Option (String × List Char))) (err : Bool)

/-- The loop over the rows, if all of them can be scanned. -/
def scanRows : Rows → List (Option (String × List Char)) → Option Rows
  | next, [] => some next
  | _, none :: _ => none
  | next, some (k, v) :: rows => scanRows (next.insert k v) rows

/-- What the query has read, if it has not failed. -/
def readRows : Answer → Option Rows
  | .refused => none
  | .rows rows err => if err then none else scanRows ∅ rows

/-- `Reload`. -/
def Snapshot.reload (s : Snapshot) (a : Answer) : Snapshot :=
  match readRows a with
  | none => s
  | some values => buildSnapshot lower values

/-- `Settings.bool`. -/
def Snapshot.bool (s : Snapshot) (key : String) (fallback : Bool) : Bool :=
  match s.values.get? key with
  | some value =>
      if value = "true".toList ∨ value = "1".toList then true
      else if value = "false".toList ∨ value = "0".toList then false
      else fallback
  | none => fallback

/-- `RequireAgentAttest`, `ContestAccessGrant` and `Policy`: what the gate reads. -/
def Snapshot.gateSettings (s : Snapshot) : Settings where
  requireAgentAttest := s.bool "require_agent_attest" true
  contestAccessGrant := ⟨s.bool "access.allow_web_only" false⟩
  gateMaxStaleSeconds := s.policy.gateMaxStaleSeconds

end Code

/-! ## Terms -/

/-- What is relied on of `unicode.ToLower`. -/
structure Lowers (lower : Char → Char) : Prop where
  ascii : ∀ ch, ch.toNat < 128 → lower ch = ch.toLower
  idem : ∀ ch, lower (lower ch) = lower ch
  isSpace : ∀ ch, isSpace (lower ch) = isSpace ch
  comma : ∀ ch, lower ch = ',' → ch = ','

/-- A term as it is served: not empty, in lower case, with no blanks around it and no comma in it. -/
structure Canonical (lower : Char → Char) (term : List Char) : Prop where
  ne_nil : term ≠ []
  lower : term.map lower = term
  trimmed : trimSpace term = term
  comma : ',' ∉ term

/-- A list as it is served. -/
structure CanonicalList (lower : Char → Char) (l : List (List Char)) : Prop where
  nodup : l.Nodup
  canonical : ∀ term ∈ l, Canonical lower term

section Terms

variable {lower : Char → Char} {s term raw : List Char} {l : List (List Char)}

lemma trimSpace_map (h : Lowers lower) (s : List Char) :
    trimSpace (s.map lower) = (trimSpace s).map lower := by
  have hspace : isSpace ∘ lower = isSpace := funext h.isSpace
  rw [trimSpace, trimSpace, List.dropWhile_map, hspace, ← List.map_reverse, List.dropWhile_map, hspace,
    ← List.map_reverse]

/-- What becomes of a part between two commas. -/
lemma canonical_of_part (h : Lowers lower) {part : List Char} (hpart : ',' ∉ part)
    (hne : (trimSpace part).map lower ≠ []) : Canonical lower ((trimSpace part).map lower) where
  ne_nil := hne
  lower := by
    rw [List.map_map]
    exact List.map_congr_left fun ch _ => h.idem ch
  trimmed := by rw [trimSpace_map h, trimSpace_idem]
  comma hmem := by
    obtain ⟨ch, hch, heq⟩ := List.mem_map.mp hmem
    exact hpart (h.comma ch heq ▸ trimSpace_subset part hch)

lemma addTerm_canonical (h : Lowers lower) {part : List Char} (hpart : ',' ∉ part)
    (hl : CanonicalList lower l) : CanonicalList lower (addTerm lower l part) := by
  simp only [addTerm]
  split_ifs with hskip
  · exact hl
  · rw [not_or] at hskip
    have hnew := mt List.contains_iff_mem.mpr hskip.2
    refine ⟨List.concat_eq_append ▸ hl.nodup.concat hnew, fun term hterm => ?_⟩
    rcases List.mem_append.mp hterm with hterm | hterm
    · exact hl.canonical term hterm
    · rw [List.mem_singleton.mp hterm]
      exact canonical_of_part h hpart hskip.1

lemma splitTerms_canonical (h : Lowers lower) (raw : List Char) :
    CanonicalList lower (splitTerms lower raw) := by
  have hfold : ∀ (parts l : List (List Char)), (∀ part ∈ parts, ',' ∉ part) → CanonicalList lower l →
      CanonicalList lower (parts.foldl (addTerm lower) l) := by
    intro parts
    induction parts with
    | nil => exact fun l _ hl => hl
    | cons part parts ih =>
        intro l hparts hl
        exact ih _ (fun p hp => hparts p (List.mem_cons_of_mem part hp))
          (addTerm_canonical h (hparts part List.mem_cons_self) hl)
  exact hfold _ [] (fun part hpart => not_mem_of_mem_split hpart) ⟨List.nodup_nil, by simp⟩

/-- Terms, written with commas between them. -/
def joinTerms (l : List (List Char)) : List Char := [','].intercalate l

lemma addTerm_of_canonical (hterm : Canonical lower term) (hnew : term ∉ l) :
    addTerm lower l term = l ++ [term] := by
  have hnew' := mt List.contains_iff_mem.mp hnew
  rw [addTerm, hterm.trimmed, hterm.lower, if_neg (not_or.mpr ⟨hterm.ne_nil, hnew'⟩)]

/-- Canonical terms are read back as they were written. -/
lemma splitTerms_of_canonical (hl : CanonicalList lower l) : splitTerms lower (joinTerms l) = l := by
  have hfold : ∀ (l out : List (List Char)), CanonicalList lower (out ++ l) →
      l.foldl (addTerm lower) out = out ++ l := by
    intro l
    induction l with
    | nil => exact fun out _ => (List.append_nil out).symm
    | cons term l ih =>
        intro out hall
        have hmem : term ∈ out ++ term :: l := by simp
        have hnew : term ∉ out := by
          intro hold
          exact (List.disjoint_of_nodup_append hall.nodup) hold List.mem_cons_self
        have hrest : CanonicalList lower (out ++ [term] ++ l) := by
          rw [← List.append_cons]
          exact hall
        rw [List.foldl_cons, addTerm_of_canonical (hall.canonical term hmem) hnew, ih _ hrest,
          ← List.append_cons]
  cases hl' : l with
  | nil => rfl
  | cons term rest =>
      rw [← hl', splitTerms, joinTerms, split,
        List.splitOn_intercalate ',' (fun t ht => (hl.canonical t ht).comma) (by rw [hl']; simp)]
      exact hfold l [] hl

/-- **The lists that are served.**  Whatever text is stored, what is served of it are different canonical
terms; and exactly these lists, written with commas, are read back as they are. -/
theorem splitTerms_join (h : Lowers lower) (raw : List Char) (l : List (List Char)) :
    CanonicalList lower (splitTerms lower raw) ∧
      (splitTerms lower (joinTerms l) = l ↔ CanonicalList lower l) := by
  refine ⟨splitTerms_canonical h raw, fun hback => ?_, splitTerms_of_canonical⟩
  rw [← hback]
  exact splitTerms_canonical h (joinTerms l)

end Terms

/-! ## The policy in force -/

/-- A policy that agents and gate can work with. -/
structure Policy.WellFormed (lower : Char → Char) (p : Policy) : Prop where
  cadences : ∀ n ∈ [p.heartbeatSeconds, p.portProbeSeconds, p.keepaliveSeconds, p.rulesRefreshSeconds,
    p.gateMaxStaleSeconds], 0 < n
  lists : ∀ l ∈ [p.processDenylist, p.foregroundDenylist, p.foregroundAllowlist],
    l ≠ [] ∧ CanonicalList lower l

section Policies

variable {lower : Char → Char} {values : Rows} {key : String}

/-- A term of ASCII as it is served. -/
def plain (term : List Char) : Bool :=
  term ≠ [] && trimSpace term = term && term.all fun ch => ch.toNat < 128 && ch.toLower = ch && ch ≠ ','

lemma canonical_of_plain (h : Lowers lower) {term : List Char} (hterm : plain term) :
    Canonical lower term := by
  simp only [plain, Bool.and_eq_true, decide_eq_true_eq, List.all_eq_true] at hterm
  obtain ⟨⟨hne, htrim⟩, hall⟩ := hterm
  refine ⟨hne, ?_, htrim, fun hcomma => (hall ',' hcomma).2 rfl⟩
  calc term.map lower = term.map id := List.map_congr_left fun ch hch => by
        rw [h.ascii ch (hall ch hch).1.1, (hall ch hch).1.2, id]
    _ = term := List.map_id term

lemma canonicalList_of_plain (h : Lowers lower) {l : List String} (hnodup : l.Nodup)
    (hall : (l.map String.toList).all plain = true) : CanonicalList lower (l.map String.toList) :=
  ⟨hnodup.map fun _ _ => String.toList_inj.mp,
    fun term hterm => canonical_of_plain h (List.all_eq_true.mp hall term hterm)⟩

lemma defaultPolicy_wellFormed (h : Lowers lower) : defaultPolicy.WellFormed lower where
  cadences := by decide
  lists := by
    have hprocess : CanonicalList lower defaultPolicy.processDenylist :=
      canonicalList_of_plain h (by decide +kernel) (by decide +kernel)
    have hforeground : CanonicalList lower defaultPolicy.foregroundDenylist :=
      canonicalList_of_plain h (by decide +kernel) (by decide +kernel)
    have hallow : CanonicalList lower defaultPolicy.foregroundAllowlist :=
      canonicalList_of_plain h (by decide +kernel) (by decide +kernel)
    intro l hl
    simp only [List.mem_cons, List.not_mem_nil, or_false] at hl
    rcases hl with rfl | rfl | rfl
    · exact ⟨List.cons_ne_nil _ _, hprocess⟩
    · exact ⟨List.cons_ne_nil _ _, hforeground⟩
    · exact ⟨List.cons_ne_nil _ _, hallow⟩

lemma positiveInt_pos {fallback : ℤ} (hfallback : 0 < fallback) :
    0 < (positiveInt values key).getD fallback := by
  cases hvalue : positiveInt values key with
  | none => exact hfallback
  | some n =>
      obtain ⟨raw, -, hraw⟩ := Option.bind_eq_some_iff.mp hvalue
      split_ifs at hraw
      exact of_decide_eq_true (Option.filter_eq_some_iff.mp hraw).2

lemma terms_canonical (h : Lowers lower) {fallback : List (List Char)}
    (hfallback : fallback ≠ [] ∧ CanonicalList lower fallback) :
    (terms lower values key).getD fallback ≠ [] ∧
      CanonicalList lower ((terms lower values key).getD fallback) := by
  cases hvalue : terms lower values key with
  | none => exact hfallback
  | some l =>
      obtain ⟨raw, -, hraw⟩ := Option.bind_eq_some_iff.mp hvalue
      split_ifs at hraw with hne
      obtain rfl := Option.some.inj hraw
      exact ⟨hne, splitTerms_canonical h raw⟩

/-- What a read gives is well-formed, whatever the rows are. -/
lemma buildSnapshot_wellFormed (h : Lowers lower) (values : Rows) :
    (buildSnapshot lower values).policy.WellFormed lower := by
  have hdefault := defaultPolicy_wellFormed h
  refine ⟨fun n hn => ?_, fun l hl => ?_⟩
  · simp only [buildSnapshot, List.mem_cons, List.not_mem_nil, or_false] at hn
    rcases hn with rfl | rfl | rfl | rfl | rfl <;> exact positiveInt_pos (by decide)
  · simp only [buildSnapshot, List.mem_cons, List.not_mem_nil, or_false] at hl
    rcases hl with rfl | rfl | rfl
    · exact terms_canonical h (hdefault.lists _ (by simp))
    · exact terms_canonical h (hdefault.lists _ (by simp))
    · exact terms_canonical h (hdefault.lists _ (by simp))

/-- The snapshot in force is that of the last read that has not failed. -/
lemma reload_eq (lower : Char → Char) (answers : List Answer) (s : Snapshot) :
    answers.foldl (Snapshot.reload lower) s
      = (answers.filterMap readRows).getLast?.elim s (buildSnapshot lower) := by
  induction answers using List.reverseRecOn generalizing s with
  | nil => rfl
  | append_singleton answers a ih =>
      rw [List.foldl_append, List.foldl_cons, List.foldl_nil, Snapshot.reload, List.filterMap_append]
      cases hrows : readRows a with
      | none => simpa [hrows] using ih s
      | some values => simp [hrows]

/-- A lever that is not at its fallback has a row that says so. -/
lemma Snapshot.bool_ne {s : Snapshot} {fallback : Bool} (hne : s.bool key fallback ≠ fallback) :
    ∃ value ∈ s.values.get? key, value = (if fallback then "false" else "true").toList ∨
      value = (if fallback then "0" else "1").toList := by
  unfold Snapshot.bool at hne
  cases hvalue : s.values.get? key with
  | none => simp [hvalue] at hne
  | some value =>
      refine ⟨value, rfl, ?_⟩
      simp only [hvalue] at hne
      by_cases htrue : value = "true".toList ∨ value = "1".toList
      · rw [if_pos htrue] at hne
        cases fallback with
        | true => exact absurd rfl hne
        | false => exact htrue
      · rw [if_neg htrue] at hne
        by_cases hfalse : value = "false".toList ∨ value = "0".toList
        · rw [if_pos hfalse] at hne
          cases fallback with
          | false => exact absurd rfl hne
          | true => exact hfalse
        · rw [if_neg hfalse] at hne
          exact absurd rfl hne

/-- **The policy that is served.**  After any reads, failed or not and whatever they found, the snapshot in
force is that of the last read that has not failed, its policy is well-formed, and the gate is only opened
wider than by default, or its attestation given up, by a row that says so. -/
theorem policy_served (h : Lowers lower) (answers : List Answer) :
    let s := answers.foldl (Snapshot.reload lower) newSettings
    s = (answers.filterMap readRows).getLast?.elim newSettings (buildSnapshot lower) ∧
      s.policy.WellFormed lower ∧
      0 < s.gateSettings.gateMaxStaleSeconds ∧
      (s.gateSettings.contestAccessGrant.webOnly = true →
        ∃ value ∈ s.values.get? "access.allow_web_only", value = "true".toList ∨ value = "1".toList) ∧
      (s.gateSettings.requireAgentAttest = false →
        ∃ value ∈ s.values.get? "require_agent_attest", value = "false".toList ∨ value = "0".toList) := by
  intro s
  have hs := reload_eq lower answers newSettings
  have hwell : s.policy.WellFormed lower := by
    change (answers.foldl (Snapshot.reload lower) newSettings).policy.WellFormed lower
    rw [hs]
    cases (answers.filterMap readRows).getLast? with
    | none => exact defaultPolicy_wellFormed h
    | some values => exact buildSnapshot_wellFormed h values
  refine ⟨hs, hwell, hwell.cadences _ (by simp [Snapshot.gateSettings]), fun hopen => ?_, fun hgiven => ?_⟩
  · have hne : s.bool "access.allow_web_only" false ≠ false := by
      rw [show s.bool "access.allow_web_only" false = true from hopen]
      decide
    exact Snapshot.bool_ne hne
  · have hne : s.bool "require_agent_attest" true ≠ true := by
      rw [show s.bool "require_agent_attest" true = false from hgiven]
      decide
    exact Snapshot.bool_ne hne

end Policies

/-! ## Letters of ASCII -/

lemma toLower_cases (ch : Char) : ch.toLower = ch ∨ ∃ n < 26, ch = Char.ofNat (65 + n) := by
  delta Char.toLower
  split
  · next h =>
      have hfirst : 65 ≤ ch.toNat := h.1
      have hlast : ch.toNat ≤ 90 := h.2
      exact .inr ⟨ch.toNat - 65, by omega, by rw [Nat.add_sub_cancel' hfirst, Char.ofNat_toNat]⟩
  · exact .inl rfl

/-- Lower-casing of ASCII alone is as it should be. -/
lemma lowers_toLower : Lowers Char.toLower := by
  refine ⟨fun _ _ => rfl, fun ch => ?_, fun ch => ?_, fun ch => ?_⟩ <;>
    rcases toLower_cases ch with h | ⟨n, hn, rfl⟩
  · rw [h, h]
  · revert n
    decide
  · rw [h]
  · revert n
    decide
  · rw [h]
    exact id
  · revert n
    decide

theorem splitTerms_join_sample :
    CanonicalList Char.toLower (splitTerms Char.toLower " Cursor, ,cursor,LM Studio".toList) ∧
      (splitTerms Char.toLower (joinTerms ["cursor".toList, "lm studio".toList])
          = ["cursor".toList, "lm studio".toList] ↔
        CanonicalList Char.toLower ["cursor".toList, "lm studio".toList]) :=
  splitTerms_join lowers_toLower _ _

/-- A read with a cadence of zero, one that fails at a row, and one that the database refuses. -/
def sampleAnswers : List Answer :=
  [.rows [some ("proctor.heartbeat_seconds", "0".toList), some ("access.allow_web_only", "true".toList)]
      false,
    .rows [some ("proctor.heartbeat_seconds", "5".toList), none] false, .refused]

theorem policy_served_sample :
    let s := sampleAnswers.foldl (Snapshot.reload Char.toLower) newSettings
    s = (sampleAnswers.filterMap readRows).getLast?.elim newSettings (buildSnapshot Char.toLower) ∧
      s.policy.WellFormed Char.toLower ∧
      0 < s.gateSettings.gateMaxStaleSeconds ∧
      (s.gateSettings.contestAccessGrant.webOnly = true →
        ∃ value ∈ s.values.get? "access.allow_web_only", value = "true".toList ∨ value = "1".toList) ∧
      (s.gateSettings.requireAgentAttest = false →
        ∃ value ∈ s.values.get? "require_agent_attest", value = "false".toList ∨ value = "0".toList) :=
  policy_served lowers_toLower sampleAnswers

end Agent

end Labyrithm
