import Mathlib.Order.Lattice
import Mathlib.Data.List.Basic
import Mathlib.Tactic.Common

/-!
# Coalesced writes

A writer that collects rows and writes, of each batch, only the last row of every key.  Of the rows of
one key (`Coalesce.written`) the table gets to see one for each batch (`Coalesce.kept`).  A column that
is overwritten does not tell the difference, a column that keeps a running maximum may.

* `foldl_key` — what a fold that writes by keys does at one of them.
* `getLast?_kept` — the last row is always among those that are kept.
* **`highest_kept_eq_iff`** — the maximum survives if and only if every row left out is outweighed, by
  the maximum so far or by a row that was kept.
-/

namespace Sql

namespace Coalesce

variable {κ ρ σ β : Type} [DecidableEq κ]

/-! ## One row of a batch for each key -/

/-- The last row of a key. -/
def lastOf (key : ρ → κ) (k : κ) (batch : List ρ) : Option ρ :=
  (batch.filter fun r => key r = k).getLast?

/-- The rows of a key that are written, one of each batch in which the key occurs. -/
def kept (key : ρ → κ) (k : κ) (batches : List (List ρ)) : List ρ :=
  batches.filterMap (lastOf key k)

/-- All the rows of a key. -/
def written (key : ρ → κ) (k : κ) (batches : List (List ρ)) : List ρ :=
  batches.flatten.filter fun r => key r = k

variable {key : ρ → κ} {k : κ} {batch : List ρ} {batches : List (List ρ)}

lemma lastOf_concat (r : ρ) :
    lastOf key k (batch ++ [r]) = if key r = k then some r else lastOf key k batch := by
  by_cases h : key r = k <;> simp [lastOf, h]

lemma key_of_lastOf {r : ρ} (h : lastOf key k batch = some r) : key r = k := by
  simpa using (List.mem_filter.mp (List.mem_of_getLast? h)).2

/-- A row that is there has a last one of its key. -/
lemma lastOf_isSome {r : ρ} (h : r ∈ batch) : (lastOf key (key r) batch).isSome := by
  have hmem : r ∈ batch.filter fun r' => key r' = key r := List.mem_filter.mpr ⟨h, by simp⟩
  exact List.getLast?_isSome.mpr (List.ne_nil_of_mem hmem)

lemma kept_cons :
    kept key k (batch :: batches) = (lastOf key k batch).toList ++ kept key k batches := by
  cases h : lastOf key k batch <;> simp [kept, h]

lemma written_cons :
    written key k (batch :: batches)
      = batch.filter (fun r => key r = k) ++ written key k batches := by
  simp [written]

lemma kept_concat :
    kept key k (batches ++ [batch]) = kept key k batches ++ (lastOf key k batch).toList := by
  cases h : lastOf key k batch <;> simp [kept, h]

lemma kept_subset_written : kept key k batches ⊆ written key k batches := by
  induction batches with
  | nil => simp [kept]
  | cons batch batches ih =>
      rw [kept_cons, written_cons]
      refine List.append_subset.mpr ⟨fun r hr => ?_, fun r hr => ?_⟩
      · have hlast : lastOf key k batch = some r := Option.mem_toList.mp hr
        exact List.mem_append_left _ (List.mem_of_getLast? hlast)
      · exact List.mem_append_right _ (ih hr)

lemma getLast?_kept : (kept key k batches).getLast? = (written key k batches).getLast? := by
  induction batches with
  | nil => rfl
  | cons batch batches ih =>
      have hlast : (lastOf key k batch).toList.getLast? = lastOf key k batch := by
        cases lastOf key k batch <;> rfl
      rw [kept_cons, written_cons, List.getLast?_append, List.getLast?_append, ih, hlast]
      rfl

/-- A fold that writes by keys, at one key. -/
lemma foldl_key {f : Option σ → ρ → Option σ} {save : (κ → Option σ) → ρ → κ → Option σ}
    (hsave : ∀ t r, save t r k = if key r = k then f (t k) r else t k) (rows : List ρ)
    (t : κ → Option σ) :
    rows.foldl save t k = (rows.filter fun r => key r = k).foldl f (t k) := by
  induction rows generalizing t with
  | nil => rfl
  | cons r rows ih =>
      rw [List.foldl_cons, ih, hsave]
      by_cases h : key r = k <;> simp [h]

/-! ## A running maximum -/

section Highest

variable [LinearOrder β] {a x : β} {xs ys : List β}

/-- The maximum of what there was and what comes. -/
def highest (a : β) (xs : List β) : β := xs.foldl (· ⊔ ·) a

lemma highest_le_iff {b : β} : highest a xs ≤ b ↔ a ≤ b ∧ ∀ x ∈ xs, x ≤ b := by
  induction xs generalizing a with
  | nil => simp [highest]
  | cons x xs ih =>
      have hcons : highest a (x :: xs) = highest (a ⊔ x) xs := rfl
      rw [hcons, ih, sup_le_iff, List.forall_mem_cons, and_assoc]

lemma le_highest_iff : x ≤ highest a xs ↔ x ≤ a ∨ ∃ y ∈ xs, x ≤ y := by
  induction xs generalizing a with
  | nil => simp [highest]
  | cons y xs ih =>
      have hcons : highest a (y :: xs) = highest (a ⊔ y) xs := rfl
      rw [hcons, ih, le_sup_iff, List.exists_mem_cons_iff, or_assoc]

/-- What is left out matters unless it is outweighed. -/
lemma highest_eq_iff (h : xs ⊆ ys) :
    highest a xs = highest a ys ↔ ∀ y ∈ ys, y ≤ a ∨ ∃ x ∈ xs, y ≤ x := by
  have hle : highest a xs ≤ highest a ys :=
    highest_le_iff.mpr ⟨le_highest_iff.mpr (.inl le_rfl),
      fun x hx => le_highest_iff.mpr (.inr ⟨x, h hx, le_rfl⟩)⟩
  calc highest a xs = highest a ys
      ↔ highest a ys ≤ highest a xs := ⟨fun heq => heq.ge, hle.antisymm⟩
    _ ↔ ∀ y ∈ ys, y ≤ highest a xs :=
        ⟨fun hge => (highest_le_iff.mp hge).2,
          fun hall => highest_le_iff.mpr ⟨le_highest_iff.mpr (.inl le_rfl), hall⟩⟩
    _ ↔ ∀ y ∈ ys, y ≤ a ∨ ∃ x ∈ xs, y ≤ x := by simp only [le_highest_iff]

/-- Every row of the key is outweighed, by what there was or by a row that is kept. -/
def Outweighed (f : ρ → β) (a : β) (key : ρ → κ) (k : κ) (batches : List (List ρ)) : Prop :=
  ∀ r ∈ written key k batches, f r ≤ a ∨ ∃ r' ∈ kept key k batches, f r ≤ f r'

instance (f : ρ → β) (a : β) : Decidable (Outweighed f a key k batches) :=
  inferInstanceAs (Decidable (∀ r ∈ written key k batches, _))

theorem highest_kept_eq_iff (f : ρ → β) :
    highest a ((kept key k batches).map f) = highest a ((written key k batches).map f)
      ↔ Outweighed f a key k batches := by
  rw [highest_eq_iff (List.map_subset f kept_subset_written)]
  simp [Outweighed]

end Highest

end Coalesce

end Sql
