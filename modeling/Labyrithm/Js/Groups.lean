import Mathlib.Data.List.Dedup
import Mathlib.Data.List.Induction
import Mathlib.Data.List.Perm.Basic
import Mathlib.Tactic.Common

/-!
# Groups

A `Map` of JavaScript keeps its keys in the order in which they were first set.  A loop that puts every
item into the entry of its key groups the items: the keys come in the order of their first items, and each
entry is what its own items make of it, in their order.

* `firsts` — the keys in the order of their first occurrences.
* **`group_eq`** — the map that a loop leaves.
* **`flatMap_filter_perm`** — the groups together are the items.
-/

namespace Js

variable {α κ υ : Type} [DecidableEq κ]

/-- The elements in the order of their first occurrences. -/
def firsts (l : List κ) : List κ := l.reverse.dedup.reverse

/-- The entry of a key is changed, and made first where there is none. -/
def upsert (m : List (κ × υ)) (k : κ) (init : υ) (change : υ → υ) : List (κ × υ) :=
  if k ∈ m.map Prod.fst then m.map fun e => if e.1 = k then (e.1, change e.2) else e
  else m ++ [(k, change init)]

/-- A loop over items, each of which changes the entry of its key. -/
def group (key : α → κ) (init : α → υ) (change : υ → α → υ) (items : List α) : List (κ × υ) :=
  items.foldl (fun m a => upsert m (key a) (init a) fun v => change v a) []

/-! ## Keys -/

section Firsts

variable {l : List κ} {k : κ}

@[simp] lemma mem_firsts : k ∈ firsts l ↔ k ∈ l := by simp [firsts]

lemma nodup_firsts (l : List κ) : (firsts l).Nodup := List.nodup_reverse.mpr (List.nodup_dedup _)

lemma firsts_concat (l : List κ) (k : κ) :
    firsts (l ++ [k]) = if k ∈ l then firsts l else firsts l ++ [k] := by
  rw [firsts, List.reverse_append, List.reverse_singleton, List.singleton_append]
  split_ifs with h
  · rw [List.dedup_cons_of_mem (List.mem_reverse.mpr h), firsts]
  · rw [List.dedup_cons_of_notMem (fun hmem => h (List.mem_reverse.mp hmem)), List.reverse_cons, firsts]

end Firsts

/-! ## Entries -/

section Group

variable {key : α → κ} {init : α → υ} {change : υ → α → υ} {entry : List α → υ}

/-- **What the loop leaves**, where `entry` says what the items of a group make of it. -/
theorem group_eq (hfirst : ∀ a, entry [a] = change (init a) a)
    (hnext : ∀ l a, l ≠ [] → entry (l ++ [a]) = change (entry l) a) (items : List α) :
    group key init change items
      = (firsts (items.map key)).map fun k => (k, entry (items.filter fun a => key a = k)) := by
  induction items using List.reverseRecOn with
  | nil => rfl
  | append_singleton items a ih =>
      have hkeys : (group key init change items).map Prod.fst = firsts (items.map key) := by
        rw [ih, List.map_map]
        exact List.map_id _
      have hstep : group key init change (items ++ [a])
          = upsert (group key init change items) (key a) (init a) fun v => change v a := by
        rw [group, List.foldl_append]
        rfl
      have hother : ∀ k, k ≠ key a →
          (items ++ [a]).filter (fun b => key b = k) = items.filter fun b => key b = k := by
        intro k hk
        simp [List.filter_append, Ne.symm hk]
      have hown : (items ++ [a]).filter (fun b => key b = key a)
          = items.filter (fun b => key b = key a) ++ [a] := by simp [List.filter_append]
      rw [hstep, upsert, hkeys, List.map_append, List.map_singleton, firsts_concat]
      by_cases hmem : key a ∈ items.map key
      · rw [if_pos (mem_firsts.mpr hmem), if_pos hmem, ih, List.map_map]
        refine List.map_congr_left fun k _ => ?_
        have hne : items.filter (fun b => key b = key a) ≠ [] := by
          obtain ⟨b, hb, hkey⟩ := List.mem_map.mp hmem
          exact List.ne_nil_of_mem (List.mem_filter.mpr ⟨hb, by simp [hkey]⟩)
        by_cases hk : k = key a
        · subst hk
          simp only [Function.comp_apply, if_true]
          rw [hown, hnext _ _ hne]
        · simp only [Function.comp_apply, if_neg hk]
          rw [hother k hk]
      · rw [if_neg (mt mem_firsts.mp hmem), if_neg hmem, List.map_append, List.map_singleton, ih]
        have hnone : items.filter (fun b => key b = key a) = [] :=
          List.filter_eq_nil_iff.mpr fun b hb hkey =>
            hmem (List.mem_map.mpr ⟨b, hb, by simpa using hkey⟩)
        congr 1
        · refine List.map_congr_left fun k hk => ?_
          have hne : k ≠ key a := fun heq => hmem (heq ▸ mem_firsts.mp hk)
          rw [hother k hne]
        · rw [hown, hnone, List.nil_append, hfirst]

/-- **The groups together are the items.** -/
theorem flatMap_filter_perm (key : α → κ) (items : List α) :
    ((firsts (items.map key)).flatMap fun k => items.filter fun a => key a = k).Perm items := by
  have hkeys : ∀ keys : List κ, keys.Nodup →
      (keys.flatMap fun k => items.filter fun a => key a = k).Perm
        (items.filter fun a => key a ∈ keys) := by
    intro keys hnodup
    induction keys with
    | nil => simp
    | cons k keys ih =>
        obtain ⟨hk, hnodup⟩ := List.nodup_cons.mp hnodup
        have hsplit := List.filter_append_perm (fun a => decide (key a = k))
          (items.filter fun a => key a ∈ k :: keys)
        rw [List.filter_filter, List.filter_filter] at hsplit
        have hown : (items.filter fun a => decide (key a = k) && decide (key a ∈ k :: keys))
            = items.filter fun a => key a = k := by
          refine List.filter_congr fun a _ => ?_
          by_cases ha : key a = k <;> simp [ha]
        have hrest : (items.filter fun a => (!decide (key a = k)) && decide (key a ∈ k :: keys))
            = items.filter fun a => key a ∈ keys := by
          refine List.filter_congr fun a _ => ?_
          by_cases ha : key a = k
          · simp [ha, hk]
          · simp [ha]
        rw [hown, hrest] at hsplit
        rw [List.flatMap_cons]
        exact ((ih hnodup).append_left _).trans hsplit
  refine (hkeys _ (nodup_firsts _)).trans (List.Perm.of_eq ?_)
  exact List.filter_eq_self.mpr fun a ha => by simpa using ⟨a, ha, rfl⟩

end Group

end Js
