import Mathlib.Data.List.Infix
import Mathlib.Data.List.Basic
import Mathlib.Tactic.Common

/-!
# Records that arrive in pieces

Records are written one after the other, each with a mark behind it, and read from pieces into which the
text was cut without regard to the marks.  The reader splits what it has at the marks, hands on the
records that are complete, and keeps the rest for the next piece.

* `cut` — the records of a text that are complete, and the rest.
* `feed`, `feedAll` — the reader.
* `cut_append` — text that comes later only changes the rest.
* **`feedAll_eq`** — the reader hands on the records of the whole text, however that was cut.
* `cut_written` — what was written from records is cut into them, where no mark begins inside a record.
* `written_cut` — nothing is lost.
* **`cut_of_prefix`** — a text that breaks off is cut into the records that are in it whole.
-/

namespace Text

variable {α : Type} [DecidableEq α]

/-- A character in front of a text that is cut into records and a rest. -/
def inFront (a : α) : List (List α) × List α → List (List α) × List α
  | ([], rest) => ([], a :: rest)
  | (record :: records, rest) => ((a :: record) :: records, rest)

/-- The records of a text and the rest, when its first `n` characters still belong to a mark. -/
def cutFrom (mark : List α) : ℕ → List α → List (List α) × List α
  | _, [] => ([], [])
  | n + 1, _ :: s => cutFrom mark n s
  | 0, a :: s =>
      if mark.isPrefixOf (a :: s) then
        ([] :: (cutFrom mark (mark.length - 1) s).1, (cutFrom mark (mark.length - 1) s).2)
      else inFront a (cutFrom mark 0 s)

/-- The records of a text, and the rest: all parts that `split` gives, and the last one. -/
def cut (mark s : List α) : List (List α) × List α := cutFrom mark 0 s

/-- A piece arrives: the records that are complete now, and what is kept. -/
def feed (mark kept piece : List α) : List (List α) × List α := cut mark (kept ++ piece)

/-- The pieces arrive one after the other. -/
def feedAll (mark : List α) : List α → List (List α) → List (List α) × List α
  | kept, [] => ([], kept)
  | kept, piece :: pieces =>
      ((feed mark kept piece).1 ++ (feedAll mark (feed mark kept piece).2 pieces).1,
        (feedAll mark (feed mark kept piece).2 pieces).2)

/-- Records, each with the mark behind it. -/
def written (mark : List α) (records : List (List α)) : List α := records.flatMap (· ++ mark)

variable {mark s t : List α} {n : ℕ}

/-! ## One cut -/

attribute [local simp] cutFrom in
/-- A text shorter than the mark has no record. -/
lemma cutFrom_of_short (h : s.length < mark.length) : cutFrom mark 0 s = ([], s) := by
  induction s with
  | nil => rfl
  | cons a s ih =>
      have hnot : ¬ mark.isPrefixOf (a :: s) := by
        intro hmark
        have hle := (List.isPrefixOf_iff_prefix.mp hmark).length_le
        omega
      rw [cutFrom, if_neg hnot, ih (Nat.lt_of_succ_lt h)]
      rfl

omit [DecidableEq α] in
lemma inFront_eq_nil {a : α} {p : List (List α) × List α} (h : (inFront a p).1 = []) : p.1 = [] := by
  obtain ⟨records, rest⟩ := p
  cases records with
  | nil => rfl
  | cons record records => exact absurd h (List.cons_ne_nil _ _)

/-- A text without a record is its own rest. -/
lemma cutFrom_rest (h : (cutFrom mark 0 s).1 = []) : cutFrom mark 0 s = ([], s) := by
  induction s with
  | nil => rfl
  | cons a s ih =>
      by_cases hmark : mark.isPrefixOf (a :: s)
      · rw [cutFrom, if_pos hmark] at h
        exact absurd h (List.cons_ne_nil _ _)
      · rw [cutFrom, if_neg hmark] at h ⊢
        rw [ih (inFront_eq_nil h)]
        rfl

/-- Text that comes later only changes the rest. -/
lemma cutFrom_append (hn : n ≤ s.length) (t : List α) :
    cutFrom mark n (s ++ t)
      = ((cutFrom mark n s).1 ++ (cut mark ((cutFrom mark n s).2 ++ t)).1,
        (cut mark ((cutFrom mark n s).2 ++ t)).2) := by
  induction s generalizing n with
  | nil =>
      obtain rfl : n = 0 := by simpa using hn
      rfl
  | cons a s ih =>
      cases n with
      | succ n => exact ih (Nat.le_of_succ_le_succ hn)
      | zero =>
          by_cases hmark : mark.isPrefixOf (a :: s)
          · -- a mark that is there stays
            have hstarts := List.isPrefixOf_iff_prefix.mp hmark
            have hlater : mark.isPrefixOf (a :: (s ++ t)) :=
              List.isPrefixOf_iff_prefix.mpr (hstarts.trans (List.prefix_append (a :: s) t))
            have hlen : mark.length - 1 ≤ s.length := by
              have hle := hstarts.length_le
              rw [List.length_cons] at hle
              omega
            rw [List.cons_append, cutFrom, if_pos hlater, cutFrom, if_pos hmark, ih hlen]
            rfl
          · by_cases hlater : mark.isPrefixOf (a :: (s ++ t))
            · -- a mark across the end: the text was too short to have one
              have hshort : (a :: s).length < mark.length := by
                by_contra hlen
                refine hmark (List.isPrefixOf_iff_prefix.mpr ?_)
                exact List.prefix_of_prefix_length_le (List.isPrefixOf_iff_prefix.mp hlater)
                  (List.prefix_append (a :: s) t) (Nat.le_of_not_lt hlen)
              rw [cutFrom_of_short hshort]
              rfl
            · have hs := ih (Nat.zero_le s.length)
              cases hrecords : (cutFrom mark 0 s).1 with
              | nil =>
                  have hrest : cutFrom mark 0 (a :: s) = ([], a :: s) := by
                    rw [cutFrom, if_neg hmark, cutFrom_rest hrecords]
                    rfl
                  rw [hrest]
                  rfl
              | cons record records =>
                  have hpair : cutFrom mark 0 s = (record :: records, (cutFrom mark 0 s).2) := by
                    rw [← hrecords]
                  rw [hrecords] at hs
                  rw [List.cons_append, cutFrom, if_neg hlater, hs, cutFrom, if_neg hmark, hpair]
                  rfl

/-- Text that comes later only changes the rest. -/
theorem cut_append (mark s t : List α) :
    cut mark (s ++ t) = ((cut mark s).1 ++ (cut mark ((cut mark s).2 ++ t)).1,
      (cut mark ((cut mark s).2 ++ t)).2) := cutFrom_append (Nat.zero_le _) t

omit [DecidableEq α] in
lemma written_cons (record : List α) (records : List (List α)) :
    written mark (record :: records) = record ++ (mark ++ written mark records) := by
  rw [written, List.flatMap_cons, List.append_assoc]
  rfl

omit [DecidableEq α] in
lemma written_inFront (a : α) (p : List (List α) × List α) :
    written mark (inFront a p).1 ++ (inFront a p).2 = a :: (written mark p.1 ++ p.2) := by
  obtain ⟨records, rest⟩ := p
  cases records with
  | nil => rfl
  | cons record records =>
      simp only [inFront, written_cons]
      rfl

/-- Nothing is lost by a cut. -/
lemma written_cutFrom (hmark : mark ≠ []) (hn : n ≤ s.length) :
    written mark (cutFrom mark n s).1 ++ (cutFrom mark n s).2 = s.drop n := by
  induction s generalizing n with
  | nil =>
      obtain rfl : n = 0 := by simpa using hn
      rfl
  | cons a s ih =>
      cases n with
      | succ n => exact ih (Nat.le_of_succ_le_succ hn)
      | zero =>
          by_cases hpos : mark.isPrefixOf (a :: s)
          · obtain ⟨rest, hrest⟩ := List.isPrefixOf_iff_prefix.mp hpos
            have hcount : mark.length - 1 + 1 = mark.length :=
              Nat.succ_pred_eq_of_pos (List.length_pos_iff.mpr hmark)
            have hlen : mark.length - 1 ≤ s.length := by
              have hle := congrArg List.length hrest
              rw [List.length_append, List.length_cons] at hle
              omega
            have hdrop : s.drop (mark.length - 1) = rest := by
              have hcons : (a :: s).drop (mark.length - 1 + 1) = rest := by
                rw [hcount, ← hrest, List.drop_left]
              exact hcons
            rw [cutFrom, if_pos hpos, written_cons, List.nil_append, List.append_assoc, ih hlen, hdrop,
              hrest, List.drop_zero]
          · rw [cutFrom, if_neg hpos, written_inFront, ih (Nat.zero_le _)]
            rfl

lemma written_cut (hmark : mark ≠ []) (s : List α) :
    written mark (cut mark s).1 ++ (cut mark s).2 = s := written_cutFrom hmark (Nat.zero_le _)

/-! ## The reader -/

/-- What is kept has no record in it. -/
lemma cut_rest (mark s : List α) : cut mark (cut mark s).2 = ([], (cut mark s).2) := by
  have happend := congrArg Prod.fst (cut_append mark s [])
  rw [List.append_nil, List.append_nil] at happend
  exact cutFrom_rest (List.self_eq_append_right.mp happend)

/-- **The records of the whole text, however it was cut into pieces.** -/
theorem feedAll_eq (mark kept : List α) (hkept : cut mark kept = ([], kept)) (pieces : List (List α)) :
    feedAll mark kept pieces = cut mark (kept ++ pieces.flatten) := by
  induction pieces generalizing kept with
  | nil => simp [feedAll, hkept]
  | cons piece pieces ih =>
      have hrest : cut mark (feed mark kept piece).2 = ([], (feed mark kept piece).2) :=
        cut_rest mark (kept ++ piece)
      rw [feedAll, ih _ hrest, List.flatten_cons, ← List.append_assoc, cut_append mark (kept ++ piece)]
      rfl

/-- The records of a text that breaks off are the first ones of the whole. -/
lemma cut_prefix (mark s t : List α) : (cut mark s).1 <+: (cut mark (s ++ t)).1 := by
  rw [cut_append mark s t]
  exact List.prefix_append _ _

/-! ## The writer -/

/-- No mark begins in the record before the one behind it. -/
def Free (mark record : List α) : Prop :=
  ∀ u a v, record = u ++ a :: v → ¬ mark <+: a :: v ++ mark

/-- The mark in front of a text. -/
lemma cutFrom_mark (hmark : mark ≠ []) (s : List α) :
    cut mark (mark ++ s) = ([] :: (cut mark s).1, (cut mark s).2) := by
  have hskip : ∀ (u : List α), cutFrom mark u.length (u ++ s) = cutFrom mark 0 s := by
    intro u
    induction u with
    | nil => rfl
    | cons a u ih => exact ih
  cases hm : mark with
  | nil => exact absurd hm hmark
  | cons a u =>
      have hpos : mark.isPrefixOf (a :: (u ++ s)) := by
        rw [List.isPrefixOf_iff_prefix, hm]
        exact List.prefix_append (a :: u) s
      rw [← hm, cut]
      nth_rewrite 2 [hm]
      rw [List.cons_append, cutFrom, if_pos hpos]
      have hlen : mark.length - 1 = u.length := by rw [hm]; rfl
      rw [hlen, hskip u]
      rfl

/-- A record with its mark. -/
lemma cut_record (hmark : mark ≠ []) {record : List α} (h : Free mark record) (s : List α) :
    cut mark (record ++ (mark ++ s)) = (record :: (cut mark s).1, (cut mark s).2) := by
  induction record with
  | nil => exact cutFrom_mark hmark s
  | cons a record ih =>
      have hfree : Free mark record := fun u b v heq => h (a :: u) b v (by rw [heq]; rfl)
      have hnot : ¬ mark.isPrefixOf (a :: (record ++ (mark ++ s))) := by
        intro hstarts
        refine h [] a record rfl ?_
        have hlong : a :: record ++ mark <+: a :: (record ++ (mark ++ s)) := by
          rw [← List.append_assoc]
          exact List.prefix_append (a :: (record ++ mark)) s
        refine List.prefix_of_prefix_length_le (List.isPrefixOf_iff_prefix.mp hstarts) hlong ?_
        rw [List.length_append, List.length_cons]
        omega
      have htail := ih hfree
      rw [cut] at htail ⊢
      rw [List.cons_append, cutFrom, if_neg hnot, htail]
      rfl

/-- **What was written from records is cut into them.** -/
theorem cut_written (hmark : mark ≠ []) {records : List (List α)} (h : ∀ r ∈ records, Free mark r) :
    cut mark (written mark records) = (records, []) := by
  induction records with
  | nil => rfl
  | cons record records ih =>
      rw [written_cons, cut_record hmark (h record List.mem_cons_self),
        ih fun r hr => h r (List.mem_cons_of_mem record hr)]

/-- **Of a text that breaks off, the records that are in it whole.** -/
theorem cut_of_prefix (hmark : mark ≠ []) {records : List (List α)} (h : ∀ r ∈ records, Free mark r)
    (hs : s <+: written mark records) :
    ∃ k, (cut mark s).1 = records.take k ∧ written mark (records.take k) <+: s ∧
      ∀ j ≤ records.length, written mark (records.take j) <+: s → j ≤ k := by
  obtain ⟨t, ht⟩ := hs
  have hrecords : (cut mark s).1 <+: records := by
    have hstarts := cut_prefix mark s t
    rwa [ht, cut_written hmark h] at hstarts
  have htake := List.prefix_iff_eq_take.mp hrecords
  refine ⟨(cut mark s).1.length, htake, ?_, fun j hj hwritten => ?_⟩
  · rw [← htake]
    exact ⟨(cut mark s).2, written_cut hmark s⟩
  · obtain ⟨u, hu⟩ := hwritten
    have hstarts := cut_prefix mark (written mark (records.take j)) u
    rw [hu, cut_written hmark fun r hr => h r (List.mem_of_mem_take hr)] at hstarts
    have hle := hstarts.length_le
    rwa [List.length_take, Nat.min_eq_left hj] at hle

end Text
