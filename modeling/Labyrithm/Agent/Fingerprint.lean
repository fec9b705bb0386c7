import Mathlib.Data.List.Sort
import Mathlib.Data.List.DropRight
import Mathlib.Data.Nat.Digits.Lemmas
import Mathlib.Data.Multiset.MapFold
import Mathlib.Order.Lex
import Labyrithm.Agent.Signatures
import Labyrithm.Text.Separators

/-!
# The fingerprint of a report

`signal_hash` of `competitor-desktop/src-tauri/src/signals/mod.rs` feeds a hash with what is to be noticed
in a report: whether the internet is reached, the confirmed ports, the processes, the extensions and the
applications in the foreground, each list in order, each entry behind `|port:`, `|proc:`, `|ext:` or
`|fg:`.  Names are not escaped.

* `bytes_eq` — the bytes are one text of entries between separators.
* `signalHash_eq_iff` — short of a collision, the fingerprint tells what the bytes do.
* `entries_eq_iff` — the entries say what the report does, in whatever order it does.
* `faithful_of_clean` — reports without separators in their names are told apart.

**`faithful_iff`** — two reports are told apart as they should unless they come to the same pieces when
their names are cut at the separators, with different numbers of separators in them.
-/

namespace Labyrithm

namespace Agent

/-- The bytes of a text of ASCII. -/
def ascii (s : String) : List UInt8 := s.toList.map fun ch => UInt8.ofNat ch.toNat

/-! ## The report -/

/-- What is in an entry. -/
inductive EntryKind
  | port
  | proc
  | ext
  | fg
  deriving DecidableEq, Repr

def EntryKind.tail : EntryKind → List UInt8
  | port => ascii "port:"
  | proc => ascii "proc:"
  | ext => ascii "ext:"
  | fg => ascii "fg:"

def EntryKind.all : List EntryKind := [port, proc, ext, fg]

/-- `|port:`, `|proc:`, `|ext:` and `|fg:`. -/
def signalSeparators : Text.Separators UInt8 EntryKind where
  mark := 124
  tail := EntryKind.tail
  kinds := EntryKind.all
  complete k := by cases k <;> decide
  unmarked k := by cases k <;> decide
  free k l := by cases k <;> cases l <;> decide

/-- `PortMatch`. -/
structure PortMatch where
  port : UInt16
  ruleID : List UInt8
  confirmed : Bool
  deriving DecidableEq, Repr

/-- `SignalReport`, as far as the fingerprint goes.  The dwell times are a map. -/
structure SignalReport where
  foregroundDwell : List (List UInt8 × ℕ)
  ports : List PortMatch
  internetReachable : Bool
  processMatches : List (List UInt8)
  extensionMatches : List (List UInt8)
  nodup : (foregroundDwell.map Prod.fst).Nodup
  deriving DecidableEq, Repr

/-- A number in decimal. -/
def decimal (n : ℕ) : List UInt8 :=
  if n = 0 then [48] else (Nat.digits 10 n).reverse.map fun d => UInt8.ofNat (48 + d)

/-- `format!("{}:{}", p.rule_id, p.port)`. -/
def PortMatch.entry (p : PortMatch) : List UInt8 := p.ruleID ++ 58 :: decimal p.port.toNat

/-- The order of texts, byte by byte. -/
def textLe (x y : List UInt8) : Bool := x.map UInt8.toNat ≤ y.map UInt8.toNat

/-- `sort`. -/
def sortTexts (texts : List (List UInt8)) : List (List UInt8) :=
  texts.insertionSort fun x y => textLe x y

namespace SignalReport

/-- The ports that are confirmed. -/
def confirmed (r : SignalReport) : List PortMatch := r.ports.filter (·.confirmed)

/-- `foreground_dwell.keys()`. -/
def apps (r : SignalReport) : List (List UInt8) := r.foregroundDwell.map Prod.fst

/-- One of the loops. -/
def feed (k : EntryKind) (hasher : Hasher) (texts : List (List UInt8)) : Hasher :=
  texts.foldl (fun hasher entry => (hasher.update (signalSeparators.separator k)).update entry) hasher

/-- `signal_hash`, up to the digest. -/
def hasher (r : SignalReport) : Hasher :=
  let hasher := Hasher.new.update (if r.internetReachable then ascii "net:1" else ascii "net:0")
  let hasher := feed .port hasher (sortTexts (r.confirmed.map PortMatch.entry))
  let hasher := feed .proc hasher (sortTexts r.processMatches)
  let hasher := feed .ext hasher (sortTexts r.extensionMatches)
  feed .fg hasher (sortTexts r.apps)

/-- The bytes that are hashed. -/
def bytes (r : SignalReport) : List UInt8 := r.hasher.data

/-- `signal_hash`. -/
def signalHash (hash : List UInt8 → Vector UInt8 32) (r : SignalReport) : List UInt8 :=
  Go.hexEncode (r.hasher.finalize hash).toList

/-- Two reports agree on what is to be noticed. -/
structure Agrees (a b : SignalReport) : Prop where
  internetReachable : a.internetReachable = b.internetReachable
  ports : (a.confirmed.map fun p => (p.ruleID, p.port)).Perm (b.confirmed.map fun p => (p.ruleID, p.port))
  processes : a.processMatches.Perm b.processMatches
  extensions : a.extensionMatches.Perm b.extensionMatches
  apps : ∀ app, app ∈ a.apps ↔ app ∈ b.apps

/-- The bytes are the same exactly if the reports agree. -/
def Faithful (a b : SignalReport) : Prop := a.bytes = b.bytes ↔ a.Agrees b

/-- What the report has of one kind. -/
def texts (r : SignalReport) : EntryKind → List (List UInt8)
  | .port => sortTexts (r.confirmed.map PortMatch.entry)
  | .proc => sortTexts r.processMatches
  | .ext => sortTexts r.extensionMatches
  | .fg => sortTexts r.apps

/-- The entries in order. -/
def entries (r : SignalReport) : List (EntryKind × List UInt8) :=
  EntryKind.all.flatMap fun k => (r.texts k).map fun text => (k, text)

/-- The pieces that the names come to when they are cut at the separators in them. -/
def pieces (r : SignalReport) : List (EntryKind × List UInt8) := signalSeparators.pieces r.entries

/-- How many separators each name has in it. -/
def counts (r : SignalReport) : List ℕ := signalSeparators.counts r.entries

end SignalReport

/-! ## The bytes -/

section Bytes

open SignalReport

variable {r : SignalReport} {k : EntryKind} {hasher : Hasher}

lemma feed_data (texts : List (List UInt8)) : (feed k hasher texts).data
    = hasher.data ++ signalSeparators.join (texts.map fun text => (k, text)) := by
  induction texts generalizing hasher with
  | nil => exact (List.append_nil _).symm
  | cons text texts ih =>
      rw [feed, List.foldl_cons, ← feed, ih, List.map_cons, Text.Separators.join_cons]
      simp [Hasher.update]

/-- The bytes are one text of entries between separators. -/
lemma bytes_eq : r.bytes = (if r.internetReachable then ascii "net:1" else ascii "net:0")
    ++ signalSeparators.join r.entries := by
  simp only [bytes, SignalReport.hasher, feed_data, entries, EntryKind.all, List.flatMap_cons,
    List.flatMap_nil, List.append_nil, Text.Separators.join_append, List.append_assoc, texts]
  rfl

/-- The bytes are the same if the pieces are. -/
lemma bytes_eq_iff {a b : SignalReport} :
    a.bytes = b.bytes ↔ a.internetReachable = b.internetReachable ∧ a.pieces = b.pieces := by
  have hlen (r : SignalReport) : (if r.internetReachable then ascii "net:1" else ascii "net:0").length = 5 := by
    cases r.internetReachable <;> decide
  have hnet : ((if a.internetReachable then ascii "net:1" else ascii "net:0")
      = if b.internetReachable then ascii "net:1" else ascii "net:0")
        ↔ a.internetReachable = b.internetReachable := by
    cases a.internetReachable <;> cases b.internetReachable <;> decide
  rw [bytes_eq, bytes_eq, ← hnet, pieces, pieces, ← Text.Separators.join_eq_join_iff]
  constructor
  · intro h
    exact List.append_inj h (by rw [hlen, hlen])
  · rintro ⟨hfirst, hrest⟩
    rw [hfirst, hrest]

/-- A hash without a collision between the two tells what the bytes do. -/
theorem signalHash_eq_iff {hash : List UInt8 → Vector UInt8 32} {a b : SignalReport}
    (hfree : hash a.bytes = hash b.bytes → a.bytes = b.bytes) :
    a.signalHash hash = b.signalHash hash ↔ a.bytes = b.bytes := by
  constructor
  · intro h
    have hdecoded := congrArg Go.hexDecode h
    rw [signalHash, signalHash, Go.hexDecode_hexEncode, Go.hexDecode_hexEncode, Except.ok.injEq] at hdecoded
    exact hfree (Vector.toList_inj.mp hdecoded)
  · intro h
    exact congrArg (fun data => Go.hexEncode (hash data).toList) h

end Bytes

/-! ## Ports -/

section Ports

/-- The number of a text of digits. -/
def ofDecimal (text : List UInt8) : ℕ := Nat.ofDigits 10 (text.map fun b => b.toNat - 48).reverse

lemma toNat_digit {d : ℕ} (h : d < 10) : (UInt8.ofNat (48 + d)).toNat = 48 + d := by
  rw [UInt8.toNat_ofNat']
  omega

lemma ofDecimal_decimal (n : ℕ) : ofDecimal (decimal n) = n := by
  rw [decimal]
  split_ifs with hzero
  · rw [hzero]
    decide
  · have hmap : ((Nat.digits 10 n).reverse.map fun d => UInt8.ofNat (48 + d)).map (fun b => b.toNat - 48)
        = (Nat.digits 10 n).reverse := by
      rw [List.map_map]
      refine (List.map_congr_left fun d hd => ?_).trans (List.map_id _)
      have hlt : d < 10 := Nat.digits_lt_base (by norm_num) (List.mem_reverse.mp hd)
      rw [Function.comp_apply, toNat_digit hlt, Nat.add_sub_cancel_left, id_eq]
    rw [ofDecimal, hmap, List.reverse_reverse, Nat.ofDigits_digits]

lemma colon_not_mem_decimal (n : ℕ) : (58 : UInt8) ∉ decimal n := by
  rw [decimal]
  split_ifs
  · decide
  · rw [List.mem_map]
    rintro ⟨d, hd, hcolon⟩
    have hlt : d < 10 := Nat.digits_lt_base (by norm_num) (List.mem_reverse.mp hd)
    have hnat := congrArg UInt8.toNat hcolon
    rw [toNat_digit hlt] at hnat
    simp at hnat
    omega

/-- The text of a port says which it is: the last colon is the one in front of its number. -/
lemma entry_injective :
    Function.Injective fun q : List UInt8 × UInt16 => q.1 ++ 58 :: decimal q.2.toNat := by
  have hnumber (x : List UInt8) (n : ℕ) :
      (x ++ 58 :: decimal n).rtakeWhile (fun b => b ≠ 58) = decimal n := by
    have hdigits : ∀ b ∈ (decimal n).reverse, decide (b ≠ 58) = true := by
      intro b hb
      rw [decide_eq_true_eq]
      rintro rfl
      exact colon_not_mem_decimal n (List.mem_reverse.mp hb)
    rw [List.rtakeWhile, List.reverse_append, List.reverse_cons, List.append_assoc,
      List.takeWhile_append_of_pos hdigits]
    simp
  rintro ⟨x, m⟩ ⟨y, n⟩ h
  have hdecimal : decimal m.toNat = decimal n.toNat := by
    calc decimal m.toNat = (x ++ 58 :: decimal m.toNat).rtakeWhile (fun b => b ≠ 58) := (hnumber x _).symm
      _ = (y ++ 58 :: decimal n.toNat).rtakeWhile (fun b => b ≠ 58) := congrArg _ h
      _ = decimal n.toNat := hnumber y _
  have hport : m = n := UInt16.toNat_inj.mp (by rw [← ofDecimal_decimal m.toNat, hdecimal, ofDecimal_decimal])
  subst hport
  exact congrArg (·, m) (List.append_cancel_right h)

end Ports

/-! ## What the entries say -/

section Entries

open SignalReport

variable {a b : SignalReport} {l l' : List (List UInt8)}

lemma textLe_iff {x y : List UInt8} : textLe x y = true ↔ x.map UInt8.toNat ≤ y.map UInt8.toNat := by
  rw [textLe, decide_eq_true_eq]

/-- Sorting leaves what the list has, and nothing of its order. -/
lemma sortTexts_eq_iff : sortTexts l = sortTexts l' ↔ l.Perm l' := by
  constructor
  · intro h
    have hl : (sortTexts l).Perm l := List.perm_insertionSort _ l
    have hl' : (sortTexts l').Perm l' := List.perm_insertionSort _ l'
    rw [h] at hl
    exact hl.symm.trans hl'
  · intro h
    have htotal : Std.Total fun x y => textLe x y = true :=
      ⟨fun x y => by rw [textLe_iff, textLe_iff]; exact le_total _ _⟩
    have htrans : IsTrans (List UInt8) fun x y => textLe x y = true :=
      ⟨fun x y z hxy hyz => textLe_iff.mpr ((textLe_iff.mp hxy).trans (textLe_iff.mp hyz))⟩
    refine List.Perm.eq_of_pairwise ?_ (List.pairwise_insertionSort _ l)
      (List.pairwise_insertionSort _ l') ?_
    · intro x y _ _ hxy hyx
      have heq : x.map UInt8.toNat = y.map UInt8.toNat :=
        le_antisymm (textLe_iff.mp hxy) (textLe_iff.mp hyx)
      exact List.map_injective_iff.mpr (fun _ _ => UInt8.toNat_inj.mp) heq
    · exact ((List.perm_insertionSort _ l).trans h).trans (List.perm_insertionSort _ l').symm

/-- The entries of one kind. -/
lemma entries_filter (k : EntryKind) :
    (a.entries.filter fun e => e.1 = k).map Prod.snd = a.texts k := by
  cases k <;> simp [entries, EntryKind.all, List.filter_map, Function.comp_def]

lemma entries_eq_iff_texts : a.entries = b.entries ↔ ∀ k, a.texts k = b.texts k := by
  constructor
  · intro h k
    rw [← entries_filter, h, entries_filter]
  · intro h
    rw [entries, entries]
    simp only [h]

/-- The entries say what the report does. -/
theorem entries_eq_iff : a.internetReachable = b.internetReachable ∧ a.entries = b.entries ↔ a.Agrees b := by
  have hports : a.texts .port = b.texts .port ↔
      (a.confirmed.map fun p => (p.ruleID, p.port)).Perm (b.confirmed.map fun p => (p.ruleID, p.port)) := by
    rw [← List.map_perm_map_iff entry_injective, List.map_map, List.map_map]
    exact sortTexts_eq_iff
  have happs : a.texts .fg = b.texts .fg ↔ ∀ app, app ∈ a.apps ↔ app ∈ b.apps :=
    sortTexts_eq_iff.trans (List.perm_ext_iff_of_nodup a.nodup b.nodup)
  have hprocesses : a.texts .proc = b.texts .proc ↔ a.processMatches.Perm b.processMatches := sortTexts_eq_iff
  have hextensions : a.texts .ext = b.texts .ext ↔ a.extensionMatches.Perm b.extensionMatches :=
    sortTexts_eq_iff
  rw [entries_eq_iff_texts]
  constructor
  · rintro ⟨hnet, htexts⟩
    exact ⟨hnet, hports.mp (htexts .port), hprocesses.mp (htexts .proc), hextensions.mp (htexts .ext),
      happs.mp (htexts .fg)⟩
  · intro h
    refine ⟨h.internetReachable, fun k => ?_⟩
    cases k with
    | port => exact hports.mpr h.ports
    | proc => exact hprocesses.mpr h.processes
    | ext => exact hextensions.mpr h.extensions
    | fg => exact happs.mpr h.apps

end Entries

/-! ## Fingerprints -/

open SignalReport

/-- **When two reports are told apart as they should**: unless they come to the same pieces with different
numbers of separators in their names. -/
theorem faithful_iff (a b : SignalReport) : a.Faithful b ↔
    (a.internetReachable = b.internetReachable → a.pieces = b.pieces → a.counts = b.counts) := by
  have hentries : a.entries = b.entries ↔ a.pieces = b.pieces ∧ a.counts = b.counts :=
    Text.Separators.eq_iff_pieces_counts
  rw [SignalReport.Faithful, bytes_eq_iff, ← entries_eq_iff, hentries]
  constructor
  · intro h hnet hpieces
    exact (h.mp ⟨hnet, hpieces⟩).2.2
  · intro h
    constructor
    · rintro ⟨hnet, hpieces⟩
      exact ⟨hnet, hpieces, h hnet hpieces⟩
    · rintro ⟨hnet, hpieces, -⟩
      exact ⟨hnet, hpieces⟩

/-- Reports without separators in their names are told apart. -/
theorem faithful_of_clean {a b : SignalReport} (ha : ∀ e ∈ a.entries, signalSeparators.Clean e.2)
    (hb : ∀ e ∈ b.entries, signalSeparators.Clean e.2) : a.Faithful b := by
  refine (faithful_iff a b).mpr fun _ hpieces => ?_
  rw [pieces, pieces, Text.Separators.pieces_of_clean ha, Text.Separators.pieces_of_clean hb] at hpieces
  rw [counts, counts, hpieces]

/-- A report of applications in the foreground. -/
def foregroundReport (apps : List String) (h : ((apps.map fun app => (ascii app, 0)).map Prod.fst).Nodup) :
    SignalReport where
  foregroundDwell := apps.map fun app => (ascii app, 0)
  ports := []
  internetReachable := false
  processMatches := []
  extensionMatches := []
  nodup := h

/-- One application whose name has a separator in it, and two applications. -/
theorem faithful_fails : ¬ ∀ a b : SignalReport, a.Faithful b := by
  intro h
  have hagrees := (h (foregroundReport ["com.apple.Terminal|fg:com.ollama"] (by decide))
    (foregroundReport ["com.apple.Terminal", "com.ollama"] (by decide))).mp (by decide +kernel)
  have hollama := (hagrees.apps (ascii "com.ollama")).mpr (by decide +kernel)
  exact absurd hollama (by decide +kernel)

end Agent

end Labyrithm
