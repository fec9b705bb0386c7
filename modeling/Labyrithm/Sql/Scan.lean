import Mathlib.Data.List.Nodup
import Mathlib.Data.List.Basic
import Mathlib.Tactic.Common

/-!
# Updates row by row

An `UPDATE` finds the rows it is about and writes them one after the other, in an order that is the
database's.  A unique constraint that is not deferrable is checked at every row, so an update of a
unique column may fail on the way even where its result is fine.

* `Scan` — an order for the positions that are found.
* `visit` — the values of a column after some of the rows were written; `getElem?_visit` which ones
  have the new value.
* `Scan.visit_eq_map` — what the statement comes to, in any order.
* **`Scan.nodup_visit_take`** — if no new value is an old one, and different old values get different
  new ones, no value is there twice after any number of rows.
-/

namespace Sql

/-- The order in which a statement visits the rows it has found, given by their positions. -/
structure Scan where
  order : List ℕ → List ℕ
  perm : ∀ found, (order found).Perm found

/-- The rows in the order they are found. -/
def Scan.forward : Scan := ⟨id, fun _ => .refl _⟩

/-- And in the opposite order. -/
def Scan.backward : Scan := ⟨List.reverse, fun found => found.reverse_perm⟩

variable {α : Type} {f : α → α} {values : List α} {visits : List ℕ}

/-- The positions of the values an `UPDATE` is about. -/
def found (cond : α → Bool) (values : List α) : List ℕ :=
  (List.range values.length).filter fun i => values[i]?.any cond

lemma nodup_found (cond : α → Bool) (values : List α) : (found cond values).Nodup :=
  List.nodup_range.filter _

lemma mem_found {cond : α → Bool} {i : ℕ} :
    i ∈ found cond values ↔ ∃ v ∈ values[i]?, cond v = true := by
  simp only [found, List.mem_filter, List.mem_range, Option.any_eq_true, Option.mem_def,
    and_iff_right_iff_imp]
  rintro ⟨v, hv, -⟩
  exact (List.getElem?_eq_some_iff.mp hv).1

/-- The values after the rows at some positions were written. -/
def visit (f : α → α) (values : List α) (visits : List ℕ) : List α :=
  visits.foldl (fun values i => values.modify i f) values

@[simp] lemma length_visit : (visit f values visits).length = values.length := by
  unfold visit
  induction visits generalizing values with
  | nil => rfl
  | cons i visits ih => rw [List.foldl_cons, ih, List.length_modify]

/-- A row that was written has the new value, another one the old. -/
lemma getElem?_visit (hvisits : visits.Nodup) (j : ℕ) :
    (visit f values visits)[j]? = if j ∈ visits then values[j]?.map f else values[j]? := by
  unfold visit
  induction visits generalizing values with
  | nil => simp
  | cons i visits ih =>
      obtain ⟨hi, hvisits⟩ := List.nodup_cons.mp hvisits
      rw [List.foldl_cons, ih hvisits, List.getElem?_modify]
      by_cases hij : i = j
      · subst hij
        simp [hi]
      · simp [hij, Ne.symm hij]

lemma nodup_visit (hvalues : values.Nodup) (hvisits : visits.Nodup)
    (hnew : ∀ i ∈ visits, ∀ v ∈ values[i]?, f v ∉ values)
    (hinj : ∀ i ∈ visits, ∀ j ∈ visits, ∀ v ∈ values[i]?, ∀ w ∈ values[j]?, f v = f w → v = w) :
    (visit f values visits).Nodup := by
  have hold : ∀ i j, i < values.length → values[i]? = values[j]? → i = j :=
    fun i j hi h => (List.getElem?_inj hi hvalues).mp h
  rw [List.nodup_iff_getElem?_ne_getElem?]
  intro i j hij hj heq
  rw [length_visit] at hj
  have hi : i < values.length := Nat.lt_trans hij hj
  rw [getElem?_visit hvisits, getElem?_visit hvisits] at heq
  simp only [List.getElem?_eq_getElem hi, List.getElem?_eq_getElem hj, Option.map_some] at heq
  split_ifs at heq with hvi hvj hvj
  · have hvw := hinj i hvi j hvj values[i] (by simp [hi]) values[j] (by simp [hj])
      (Option.some.inj heq)
    exact Nat.ne_of_lt hij (hold i j hi (by simp [hi, hj, hvw]))
  · exact hnew i hvi values[i] (by simp [hi]) (by
      rw [Option.some.inj heq]
      exact List.getElem_mem hj)
  · exact hnew j hvj values[j] (by simp [hj]) (by
      rw [← Option.some.inj heq]
      exact List.getElem_mem hi)
  · exact Nat.ne_of_lt hij (hold i j hi (by simpa [hi, hj] using heq))

section Scan

variable {cond : α → Bool} (scan : Scan)

lemma Scan.mem_order {i : ℕ} : i ∈ scan.order (found cond values) ↔ ∃ v ∈ values[i]?, cond v = true :=
  (scan.perm _).mem_iff.trans mem_found

lemma Scan.nodup_order : (scan.order (found cond values)).Nodup :=
  (scan.perm _).nodup_iff.mpr (nodup_found cond values)

/-- What an `UPDATE` comes to does not depend on the order. -/
theorem Scan.visit_eq_map :
    visit f values (scan.order (found cond values)) = values.map fun v => if cond v then f v else v := by
  refine List.ext_getElem? fun i => ?_
  rw [getElem?_visit scan.nodup_order, List.getElem?_map]
  cases hv : values[i]? with
  | none => simp
  | some v =>
      by_cases hcond : cond v = true
      · rw [if_pos (scan.mem_order.mpr ⟨v, hv, hcond⟩)]
        simp [hcond]
      · rw [if_neg fun hi => ?_]
        · simp [hcond]
        · obtain ⟨w, hw, hcond'⟩ := scan.mem_order.mp hi
          obtain rfl := Option.some.inj (hv.symm.trans hw)
          exact hcond hcond'

/-- At no point of an `UPDATE` do two rows have the same value. -/
theorem Scan.nodup_visit_take (hvalues : values.Nodup)
    (hnew : ∀ v ∈ values, cond v = true → f v ∉ values)
    (hinj : ∀ v ∈ values, ∀ w ∈ values, cond v = true → cond w = true → f v = f w → v = w) (k : ℕ) :
    (visit f values ((scan.order (found cond values)).take k)).Nodup := by
  have hcond : ∀ i ∈ (scan.order (found cond values)).take k, ∀ v ∈ values[i]?, cond v = true := by
    intro i hi v hv
    obtain ⟨w, hw, hcond⟩ := scan.mem_order.mp (List.mem_of_mem_take hi)
    obtain rfl := Option.some.inj (hv.symm.trans hw)
    exact hcond
  refine nodup_visit hvalues (scan.nodup_order.sublist (List.take_sublist _ _)) ?_ ?_
  · exact fun i hi v hv => hnew v (List.mem_of_getElem? hv) (hcond i hi v hv)
  · exact fun i hi j hj v hv w hw => hinj v (List.mem_of_getElem? hv) w (List.mem_of_getElem? hw)
      (hcond i hi v hv) (hcond j hj w hw)

end Scan

end Sql
