import Mathlib.Data.List.AList
import Mathlib.Algebra.BigOperators.Group.List.Basic
import Mathlib.Tactic.Common

/-!
# Maps

Go's `map`, as Mathlib's association list without a key twice.  An iteration (`range`) meets the
entries in some order; what a program computes from one is worth stating only where the order does not
matter.  `Map.sum` adds up a quantity of the entries, and follows an insertion and a deletion.
-/

namespace Go

/-- `map[κ]υ`. -/
abbrev Map (κ υ : Type) := AList fun _ : κ => υ

namespace Map

variable {κ υ M : Type} [DecidableEq κ] [AddCommMonoid M]

/-- `m[k]`. -/
def get? (m : Map κ υ) (k : κ) : Option υ := m.lookup k

variable {m : Map κ υ} {k k' : κ} {v w : υ}

lemma mem_entries : (⟨k, v⟩ : Sigma fun _ : κ => υ) ∈ m.entries ↔ m.get? k = some v :=
  AList.mem_lookup_iff.symm

@[simp] lemma get?_empty : (∅ : Map κ υ).get? k = none := AList.lookup_empty k

lemma get?_insert : Map.get? (m.insert k v) k' = if k' = k then some v else m.get? k' := by
  split_ifs with h
  · rw [h]
    exact AList.lookup_insert m
  · exact AList.lookup_insert_ne h

lemma get?_erase : Map.get? (m.erase k) k' = if k' = k then none else m.get? k' := by
  split_ifs with h
  · rw [h]
    exact AList.lookup_erase k m
  · exact AList.lookup_erase_ne h

@[simp] lemma get?_insert_eq_some :
    Map.get? (m.insert k v) k' = some w ↔ k' = k ∧ v = w ∨ k' ≠ k ∧ m.get? k' = some w := by
  rw [get?_insert]
  split_ifs with h <;> simp [h]

@[simp] lemma get?_erase_eq_some :
    Map.get? (m.erase k) k' = some w ↔ k' ≠ k ∧ m.get? k' = some w := by
  rw [get?_erase]
  split_ifs with h <;> simp [h]

lemma erase_of_get? (h : m.get? k = none) : m.erase k = m := by
  have hkey : k ∉ m.keys := fun hk => AList.lookup_eq_none.mp h hk
  exact AList.ext (List.kerase_of_notMem_keys hkey)

/-- A `range` that deletes the entries of a kind. -/
def eraseIf (p : υ → Bool) (m : Map κ υ) : Map κ υ where
  entries := m.entries.filter fun e => !p e.2
  nodupKeys := List.NodupKeys.sublist List.filter_sublist m.nodupKeys

lemma get?_eraseIf (p : υ → Bool) (m : Map κ υ) (k : κ) :
    (eraseIf p m).get? k = (m.get? k).filter fun v => !p v := by
  ext v
  rw [← mem_entries, Option.filter_eq_some_iff, ← mem_entries]
  exact List.mem_filter

/-- An entry, and what is left without it. -/
lemma perm_erase (h : m.get? k = some v) : m.entries.Perm (⟨k, v⟩ :: (m.erase k).entries) := by
  have hmem : (⟨k, v⟩ : Sigma fun _ : κ => υ) ∈ m.entries := mem_entries.mpr h
  obtain ⟨w, l₁, l₂, -, hl, herase⟩ := List.exists_of_kerase (List.mem_keys_of_mem hmem)
  have hget : m.get? k = some w := mem_entries.mp (by rw [hl]; simp)
  obtain rfl := Option.some.inj (h.symm.trans hget)
  change m.entries.Perm (⟨k, v⟩ :: m.entries.kerase k)
  rw [herase, hl]
  exact List.perm_middle

lemma length_erase (h : m.get? k = some v) :
    m.entries.length = (m.erase k).entries.length + 1 := by
  simpa using (perm_erase h).length_eq

/-- What a `range` over the keys in some order meets. -/
lemma filter_range {key : υ → κ} (hkey : ∀ k v, m.get? k = some v → key v = k) {order : List κ}
    (h : order.Perm m.keys) (k : κ) :
    (order.filterMap m.get?).filter (fun v => key v = k) = (m.get? k).toList := by
  have hrange : ∀ l : List κ, l.Nodup → (l.filterMap m.get?).filter (fun v => key v = k)
      = if k ∈ l then (m.get? k).toList else [] := by
    intro l hl
    induction l with
    | nil => rfl
    | cons k' l ih =>
        obtain ⟨hk', hl⟩ := List.nodup_cons.mp hl
        cases hget : m.get? k' with
        | none =>
            rw [List.filterMap_cons_none hget, ih hl]
            by_cases heq : k = k'
            · subst heq
              simp [hget]
            · simp [heq]
        | some v =>
            rw [List.filterMap_cons_some hget, List.filter_cons, ih hl, hkey k' v hget]
            by_cases heq : k = k'
            · subst heq
              simp [hget, hk']
            · simp [heq, Ne.symm heq]
  rw [hrange order (h.nodup_iff.mpr m.nodupKeys)]
  split_ifs with hmem
  · rfl
  · have hnone : m.get? k = none := AList.lookup_eq_none.mpr fun hk => hmem (h.mem_iff.mpr hk)
    rw [hnone]
    rfl

/-- The sum of a quantity over the entries. -/
def sum (f : κ → υ → M) (m : Map κ υ) : M := (m.entries.map fun e => f e.1 e.2).sum

variable {f g : κ → υ → M}

omit [DecidableEq κ] in
@[simp] lemma sum_empty : sum f (∅ : Map κ υ) = 0 := rfl

lemma sum_erase (h : m.get? k = some v) : sum f m = f k v + sum f (m.erase k) := by
  simpa [sum] using ((perm_erase h).map fun e => f e.1 e.2).sum_eq

lemma sum_insert (h : m.get? k = none) : sum f (m.insert k v) = f k v + sum f m := by
  have hmem : k ∉ m := AList.lookup_eq_none.mp h
  simp only [sum, AList.entries_insert_of_notMem hmem, List.map_cons, List.sum_cons]

lemma sum_congr (h : ∀ k v, m.get? k = some v → f k v = g k v) : sum f m = sum g m := by
  have : m.entries.map (fun e => f e.1 e.2) = m.entries.map fun e => g e.1 e.2 :=
    List.map_congr_left fun e he => h e.1 e.2 (mem_entries.mp he)
  rw [sum, sum, this]

end Map

end Go
