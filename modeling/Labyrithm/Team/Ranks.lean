import Mathlib.Data.Int.ConditionallyCompleteOrder
import Mathlib.Data.List.Sort
import Mathlib.Tactic
import Mathlib.Data.Prod.Lex
import Mathlib.Order.WithBot
import Labyrithm.Team.Leaderboard

/-!
# Ranks

`assignLeaderboardRanks` of `backend/internal/team/leaderboard.go` goes through the lines in the order of
the query and compares each with the one before.  Two lines share a rank if they have the same total and
the same last submission; a line of its own has its position.

* `rankKey` — what a line is ranked by: the total, downwards, and the last submission, the missing one
  last.
* `assignRanksFrom_eq` — the loop, with the lines before it.
* `leaderboard_sorted` — the order of both queries is one that the loop can go by.

**`ranks_count`** — the rank of a line is one more than the number of lines that are strictly better, the
lines with the same key are those with the same rank, and the ranks do not decrease.
-/

namespace Labyrithm

open Sql

/-- The key that a line is ranked by. -/
abbrev RankKey := ℤ ×ₗ WithTop Time

/-- `NULLS LAST`. -/
def nullsLast : Option Time → WithTop Time
  | some t => (t : WithTop Time)
  | none => ⊤

def rankKey (e : LeaderboardEntry) : RankKey := toLex (-e.totalScore, nullsLast e.lastSubmissionAt)

/-- A line that is strictly better: more points, or as many and an earlier last submission. -/
def better (a b : LeaderboardEntry) : Bool :=
  b.totalScore < a.totalScore ∨
    (a.totalScore = b.totalScore ∧ beforeNullsLast a.lastSubmissionAt b.lastSubmissionAt)

/-- The number of lines that are strictly better, and one. -/
def countRank (entries : List LeaderboardEntry) (e : LeaderboardEntry) : ℕ :=
  1 + entries.countP fun x => better x e

/-! ## Keys -/

section Keys

variable {a b : LeaderboardEntry} {t u : Option Time}

lemma beforeNullsLast_iff : beforeNullsLast t u = true ↔ nullsLast t < nullsLast u := by
  cases t with
  | none => exact iff_of_false (by simp [beforeNullsLast]) not_top_lt
  | some t =>
      cases u with
      | none => exact iff_of_true rfl (WithTop.coe_lt_top t)
      | some u =>
          rw [beforeNullsLast, decide_eq_true_eq]
          exact WithTop.coe_lt_coe.symm

lemma nullsLast_inj : nullsLast t = nullsLast u ↔ t = u := by
  cases t <;> cases u <;> simp [nullsLast]

lemma better_iff : better a b = true ↔ rankKey a < rankKey b := by
  rw [better, decide_eq_true_eq, rankKey, rankKey, Prod.Lex.toLex_lt_toLex, beforeNullsLast_iff]
  simp only [neg_lt_neg_iff, neg_inj]

lemma isTie_iff : isTie a b = true ↔ rankKey a = rankKey b := by
  rw [isTie, decide_eq_true_eq, rankKey, rankKey, toLex_inj, Prod.mk.injEq, neg_inj, nullsLast_inj]

lemma rankKey_le_of_boardOrder {collation : String → ℕ} (h : boardOrder collation a b = true) :
    rankKey a ≤ rankKey b := by
  rw [boardOrder, decide_eq_true_eq] at h
  obtain h | ⟨hscore, h | ⟨htime, -⟩⟩ := h
  · exact (better_iff.mp (by simp [better, h])).le
  · exact (better_iff.mp (by simp [better, hscore, h])).le
  · exact (isTie_iff.mp (by simp [isTie, hscore, htime])).le

end Keys

/-! ## The loop -/

section Loop

variable {entries before rest : List LeaderboardEntry} {prev : LeaderboardEntry}

/-- Whatever stands before a better line is better, and nothing after it is. -/
lemma countP_better {curr : LeaderboardEntry} (hbefore : ∀ x ∈ before, rankKey x < rankKey curr)
    (hrest : ∀ x ∈ rest, rankKey curr ≤ rankKey x) :
    (before ++ curr :: rest).countP (fun x => better x curr) = before.length := by
  have hall : before.countP (fun x => better x curr) = before.length :=
    List.countP_eq_length.mpr fun x hx => better_iff.mpr (hbefore x hx)
  have hnone : (curr :: rest).countP (fun x => better x curr) = 0 := by
    rw [List.countP_eq_zero]
    intro x hx
    rw [better_iff, not_lt]
    obtain rfl | hx := List.mem_cons.mp hx
    · exact le_rfl
    · exact hrest x hx
  rw [List.countP_append, hall, hnone, add_zero]

/-- The rank of a line depends on its key alone. -/
lemma countRank_congr {a b : LeaderboardEntry} (h : rankKey a = rankKey b) :
    countRank entries a = countRank entries b := by
  refine congrArg (1 + ·) (List.countP_congr fun x _ => ?_)
  rw [better_iff, better_iff, h]

/-- The loop from the line after `prev`, whose rank is right. -/
lemma assignRanksFrom_eq
    (hsorted : (before ++ prev :: rest).Pairwise fun a b => rankKey a ≤ rankKey b) :
    assignRanksFrom (before.length + 1) (countRank (before ++ prev :: rest) prev) prev rest
      = rest.map fun e => { e with rank := countRank (before ++ prev :: rest) e } := by
  induction rest generalizing before prev with
  | nil => rfl
  | cons curr rest ih =>
      have hlist : before ++ prev :: curr :: rest = (before ++ [prev]) ++ curr :: rest := by simp
      have hlen : (before ++ [prev]).length = before.length + 1 := by simp
      have hrank : (if isTie curr prev then countRank (before ++ prev :: curr :: rest) prev
          else before.length + 1 + 1) = countRank (before ++ prev :: curr :: rest) curr := by
        rw [hlist] at hsorted ⊢
        obtain ⟨hbefore, hrest, hcross⟩ := List.pairwise_append.mp hsorted
        split_ifs with htie
        · exact countRank_congr (isTie_iff.mp htie).symm
        · have hlt : rankKey prev < rankKey curr :=
            lt_of_le_of_ne (hcross prev (by simp) curr (by simp)) fun heq =>
              htie (isTie_iff.mpr heq.symm)
          have hbetter : ∀ x ∈ before ++ [prev], rankKey x < rankKey curr := by
            intro x hx
            obtain hx | hx := List.mem_append.mp hx
            · exact lt_of_le_of_lt ((List.pairwise_append.mp hbefore).2.2 x hx prev (by simp)) hlt
            · obtain rfl := List.mem_singleton.mp hx
              exact hlt
          rw [countRank, countP_better hbetter (List.pairwise_cons.mp hrest).1, hlen]
          omega
      rw [hlist] at hsorted
      rw [assignRanksFrom, hrank, List.map_cons]
      refine congrArg _ ?_
      rw [hlist, ← hlen]
      exact ih hsorted

/-- The ranks that are assigned count the better lines. -/
lemma assignLeaderboardRanks_eq (hsorted : entries.Pairwise fun a b => rankKey a ≤ rankKey b) :
    assignLeaderboardRanks entries
      = entries.map fun e => { e with rank := countRank entries e } := by
  cases entries with
  | nil => rfl
  | cons e rest =>
      have hfirst : countRank (e :: rest) e = 1 := by
        have hnone : (e :: rest).countP (fun x => better x e) = 0 :=
          @countP_better [] rest e (by simp) (List.pairwise_cons.mp hsorted).1
        rw [countRank, hnone]
      have hrest := @assignRanksFrom_eq [] rest e hsorted
      rw [List.nil_append, List.length_nil, hfirst] at hrest
      rw [assignLeaderboardRanks, List.map_cons, hfirst]
      exact congrArg _ hrest

/-- A better line has a better rank, for what is better than it is better than the other, and so is the
line itself. -/
lemma countRank_lt {a b : LeaderboardEntry} (ha : a ∈ entries) (h : rankKey a < rankKey b) :
    countRank entries a < countRank entries b := by
  have hmono (l : List LeaderboardEntry) :
      l.countP (fun x => better x a) ≤ l.countP fun x => better x b :=
    List.countP_mono_left fun x _ hx => better_iff.mpr ((better_iff.mp hx).trans h)
  have hself : better a a = false := by
    rw [Bool.eq_false_iff, ne_eq, better_iff]
    exact lt_irrefl _
  obtain ⟨l, l', rfl⟩ := List.append_of_mem ha
  have hout : (a :: l').countP (fun x => better x a) = l'.countP fun x => better x a :=
    List.countP_cons_of_neg (by rw [hself]; exact Bool.false_ne_true)
  have hin : (a :: l').countP (fun x => better x b) = (l'.countP fun x => better x b) + 1 :=
    List.countP_cons_of_pos (better_iff.mpr h)
  rw [countRank, countRank, List.countP_append, List.countP_append, hout, hin]
  have hl := hmono l
  have hl' := hmono l'
  omega

lemma countRank_le {a b : LeaderboardEntry} (ha : a ∈ entries) (h : rankKey a ≤ rankKey b) :
    countRank entries a ≤ countRank entries b := by
  obtain heq | hlt := h.eq_or_lt
  · exact (countRank_congr heq).le
  · exact (countRank_lt ha hlt).le

lemma countRank_eq_iff {a b : LeaderboardEntry} (ha : a ∈ entries) (hb : b ∈ entries) :
    countRank entries a = countRank entries b ↔ rankKey a = rankKey b := by
  refine ⟨fun h => ?_, countRank_congr⟩
  obtain hlt | heq | hlt := lt_trichotomy (rankKey a) (rankKey b)
  · exact absurd h (countRank_lt ha hlt).ne
  · exact heq
  · exact absurd h (countRank_lt hb hlt).ne'

end Loop

/-! ## The board -/

/-- The key of the order of the queries. -/
def boardKey (collation : String → ℕ) (e : LeaderboardEntry) : RankKey ×ₗ ℕ :=
  toLex (rankKey e, collation e.teamName)

lemma boardOrder_iff {collation : String → ℕ} {a b : LeaderboardEntry} :
    boardOrder collation a b = true ↔ boardKey collation a ≤ boardKey collation b := by
  have hbetter : rankKey a < rankKey b ↔ b.totalScore < a.totalScore ∨ (a.totalScore = b.totalScore
      ∧ beforeNullsLast a.lastSubmissionAt b.lastSubmissionAt = true) := by
    rw [← better_iff, better, decide_eq_true_eq]
  have htie : rankKey a = rankKey b
      ↔ a.totalScore = b.totalScore ∧ a.lastSubmissionAt = b.lastSubmissionAt := by
    rw [← isTie_iff, isTie, decide_eq_true_eq]
  rw [boardOrder, decide_eq_true_eq, boardKey, boardKey, Prod.Lex.toLex_le_toLex, hbetter, htie,
    and_or_left, or_assoc, and_assoc]

/-- The lines are ranked in the order of the query. -/
theorem leaderboard_sorted (collation : String → ℕ) (entries : List LeaderboardEntry) :
    (entries.insertionSort fun a b => boardOrder collation a b).Pairwise
      fun a b => boardOrder collation a b = true := by
  have htotal : Std.Total fun a b => boardOrder collation a b = true :=
    ⟨fun a b => by rw [boardOrder_iff, boardOrder_iff]; exact le_total _ _⟩
  have htrans : IsTrans LeaderboardEntry fun a b => boardOrder collation a b = true :=
    ⟨fun a b c hab hbc => boardOrder_iff.mpr ((boardOrder_iff.mp hab).trans (boardOrder_iff.mp hbc))⟩
  exact List.pairwise_insertionSort _ entries

/-- **The rank of a line counts the lines that are strictly better**, lines have the same rank exactly if
they have the same total and the same last submission or both none, and the ranks do not decrease. -/
theorem ranks_count (collation : String → ℕ) (entries : List LeaderboardEntry)
    (hsorted : entries.Pairwise fun a b => boardOrder collation a b = true) :
    assignLeaderboardRanks entries = entries.map (fun e => { e with rank := countRank entries e })
      ∧ (∀ a ∈ assignLeaderboardRanks entries, ∀ b ∈ assignLeaderboardRanks entries, a.rank = b.rank ↔
        a.totalScore = b.totalScore ∧ a.lastSubmissionAt = b.lastSubmissionAt)
      ∧ ((assignLeaderboardRanks entries).map LeaderboardEntry.rank).Pairwise (· ≤ ·) := by
  have hkeys := hsorted.imp rankKey_le_of_boardOrder
  rw [assignLeaderboardRanks_eq hkeys]
  refine ⟨rfl, ?_, ?_⟩
  · intro a ha b hb
    obtain ⟨x, hx, rfl⟩ := List.mem_map.mp ha
    obtain ⟨y, hy, rfl⟩ := List.mem_map.mp hb
    have hiff := countRank_eq_iff hx hy
    rwa [← isTie_iff, isTie, decide_eq_true_eq] at hiff
  · rw [List.map_map, List.pairwise_map]
    exact hkeys.imp_of_mem fun ha _ h => countRank_le ha h

/-- A line with a total and a last submission. -/
def rankSample (name : String) (totalScore : ℤ) (lastSubmissionAt : Option Time) : LeaderboardEntry :=
  ⟨name.length, name, totalScore, 0, lastSubmissionAt, 0⟩

/-- Two ties, one of them without a submission. -/
theorem ranks_count_sample :
    (assignLeaderboardRanks [rankSample "Alpha" 200 (some 5), rankSample "Beta" 100 (some 7),
        rankSample "Delta" 100 (some 7), rankSample "Gamma" 0 none, rankSample "Omega" 0 none]).map
          LeaderboardEntry.rank = [1, 2, 2, 4, 4] := by
  rw [(ranks_count (fun name => name.length) _ (by decide +kernel)).1]
  decide +kernel

end Labyrithm
