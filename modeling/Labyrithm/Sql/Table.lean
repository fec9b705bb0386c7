import Mathlib.Data.List.AList
import Mathlib.Tactic.Common

/-!
# Tables with a primary key

A table is Mathlib's association list: the rows with their keys, no key twice.  `lookup`, `insert`
and `erase` are Mathlib's; what is added here is the scan (`rows`), the `DELETE … WHERE` on the
key (`eraseWhere`), an `UPDATE` of every row (`mapRows`) and a statement that changes or deletes
each row (`filterMapRows`).
-/

namespace Sql

/-- A table with keys `κ` and rows `ρ`. -/
abbrev Table (κ ρ : Type) := AList fun _ : κ => ρ

namespace Table

variable {κ ρ : Type}

/-- The rows with their keys, in the order a scan meets them. -/
def rows (t : Table κ ρ) : List (κ × ρ) := t.entries.map fun e => (e.1, e.2)

lemma rows_nodup_keys (t : Table κ ρ) : (t.rows.map Prod.fst).Nodup := by
  have h := t.keys_nodup
  simpa [rows, AList.keys, List.keys, Function.comp_def] using h

/-- An `UPDATE` of every row. -/
def mapRows (f : ρ → ρ) (t : Table κ ρ) : Table κ ρ where
  entries := t.entries.map fun e => ⟨e.1, f e.2⟩
  nodupKeys := by
    have h := t.nodupKeys
    simpa [List.NodupKeys, List.keys, Function.comp_def] using h

variable [DecidableEq κ]

@[simp] lemma mem_rows {t : Table κ ρ} {k : κ} {r : ρ} : (k, r) ∈ t.rows ↔ t.lookup k = some r := by
  rw [← Option.mem_def, AList.mem_lookup_iff]
  simp only [rows, List.mem_map, Prod.mk.injEq]
  constructor
  · rintro ⟨⟨k', r'⟩, h, rfl, rfl⟩
    exact h
  · exact fun h => ⟨⟨k, r⟩, h, rfl, rfl⟩

/-- `DELETE … WHERE` on the key. -/
def eraseWhere (p : κ → Bool) (t : Table κ ρ) : Table κ ρ :=
  (t.keys.filter p).foldl (fun t k => t.erase k) t

lemma lookup_foldl_erase (ks : List κ) (t : Table κ ρ) (k : κ) :
    (ks.foldl (fun t k => t.erase k) t).lookup k = if k ∈ ks then none else t.lookup k := by
  induction ks generalizing t with
  | nil => simp
  | cons a ks ih =>
      rw [List.foldl_cons, ih]
      by_cases hk : k ∈ ks
      · simp [hk]
      · by_cases ha : k = a
        · subst ha
          simp
        · simp [hk, ha, AList.lookup_erase_ne ha]

@[simp] lemma lookup_eraseWhere (p : κ → Bool) (t : Table κ ρ) (k : κ) :
    (t.eraseWhere p).lookup k = if p k then none else t.lookup k := by
  rw [eraseWhere, lookup_foldl_erase]
  by_cases hp : p k
  · by_cases hk : k ∈ t
    · have : k ∈ t.keys := AList.mem_keys.mp hk
      simp [hp, this]
    · simp [hp, AList.lookup_eq_none.mpr hk]
  · simp [hp]

lemma lookup_insert_eq (t : Table κ ρ) (k k' : κ) (r : ρ) :
    (t.insert k r).lookup k' = if k = k' then some r else t.lookup k' := by
  by_cases h : k = k'
  · subst h
    simp
  · rw [if_neg h, AList.lookup_insert_ne (Ne.symm h)]

/-- One row more at most. -/
lemma length_filter_insert_le (p : κ × ρ → Bool) (t : Table κ ρ) (k : κ) (r : ρ) :
    ((rows (t.insert k r)).filter p).length ≤
      (t.rows.filter p).length + if p (k, r) then 1 else 0 := by
  have hsub : ((List.kerase k t.entries).map fun e => (e.1, e.2)).Sublist t.rows :=
    (List.kerase_sublist k t.entries).map _
  have hle := (hsub.filter p).length_le
  simp only [rows, AList.entries_insert, List.map_cons, List.filter_cons]
  split_ifs with hp
  · simpa [rows] using hle
  · simpa [rows] using hle

lemma lookup_erase_eq (t : Table κ ρ) (k k' : κ) :
    (t.erase k).lookup k' = if k = k' then none else t.lookup k' := by
  by_cases h : k = k'
  · subst h
    simp
  · rw [if_neg h, AList.lookup_erase_ne (Ne.symm h)]

/-- An upsert changes nothing only where the row is there already. -/
lemma insert_same_iff {t : Table κ ρ} {k : κ} {r : ρ} :
    (∀ k', (t.insert k r).lookup k' = t.lookup k') ↔ t.lookup k = some r := by
  constructor
  · intro h
    rw [← h k, AList.lookup_insert]
  · intro h k'
    rw [lookup_insert_eq]
    split_ifs with hk
    · rw [← hk, h]
    · rfl

lemma dlookup_map (f : ρ → ρ) (es : List (Sigma fun _ : κ => ρ)) (k : κ) :
    List.dlookup k (es.map fun e => (⟨e.1, f e.2⟩ : Sigma fun _ : κ => ρ))
      = Option.map f (List.dlookup k es : Option ρ) := by
  induction es with
  | nil => rfl
  | cons e es ih =>
      obtain ⟨k', r⟩ := e
      by_cases h : k = k'
      · subst h
        simp
      · rw [List.map_cons, List.dlookup_cons_ne _ _ h, List.dlookup_cons_ne _ _ h, ih]

@[simp] lemma lookup_mapRows (f : ρ → ρ) (t : Table κ ρ) (k : κ) :
    (t.mapRows f).lookup k = Option.map f (t.lookup k : Option ρ) :=
  dlookup_map f t.entries k

/-- An `UPDATE` of every row or a `DELETE`, by the key and the row. -/
def filterMapRows (f : κ → ρ → Option ρ) (t : Table κ ρ) : Table κ ρ where
  entries := t.entries.filterMap fun e => (f e.1 e.2).map fun r => ⟨e.1, r⟩
  nodupKeys := by
    refine List.nodupKeys_iff_pairwise.mpr
      ((List.nodupKeys_iff_pairwise.mp t.nodupKeys).filterMap _ ?_)
    intro e e' hne b hb b' hb'
    obtain ⟨r, -, rfl⟩ := Option.map_eq_some_iff.mp hb
    obtain ⟨r', -, rfl⟩ := Option.map_eq_some_iff.mp hb'
    exact hne

@[simp] lemma lookup_filterMapRows (f : κ → ρ → Option ρ) (t : Table κ ρ) (k : κ) :
    (t.filterMapRows f).lookup k = (t.lookup k).bind (f k) := by
  ext r
  rw [← Option.mem_def, AList.mem_lookup_iff, Option.bind_eq_some_iff]
  simp only [filterMapRows, List.mem_filterMap, Option.map_eq_some_iff]
  constructor
  · rintro ⟨⟨k', r'⟩, hmem, r'', hf, heq⟩
    cases heq
    exact ⟨r', AList.mem_lookup_iff.mpr hmem, hf⟩
  · rintro ⟨r', hlookup, hf⟩
    exact ⟨⟨k, r'⟩, AList.mem_lookup_iff.mp hlookup, r, hf, rfl⟩

end Table

end Sql
