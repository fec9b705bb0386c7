import Mathlib.Data.List.Basic
import Mathlib.Data.List.Nodup
import Mathlib.Tactic.Common

/-!
# Rows that are written by their keys

`INSERT … ON CONFLICT (key) DO UPDATE`, with nothing said about the table but what the statement does:
writes of different keys do not disturb each other, and of two writes of one key the last counts.
Several such statements in a row are not one; a writer may be stopped between two of them, and others
may come in between.

* `Upsert` — a table that is written by keys, `Upsert.saves` several writes.
* `saves_perm` — where no key comes twice, the order does not matter.
* `saves_eq_self_iff` — and nothing changes if and only if every row has its value already.
* **`save_comm_saves`** — a write may be taken before those of another writer that leave its key alone.
-/

namespace Sql

/-- A table that is written by keys. -/
structure Upsert (σ ρ κ : Type) where
  key : ρ → κ
  save : σ → ρ → σ
  comm : ∀ {r r'}, key r ≠ key r' → ∀ s, save (save s r) r' = save (save s r') r
  last : ∀ {r r'}, key r = key r' → ∀ s, save (save s r) r' = save s r'

namespace Upsert

variable {σ ρ κ : Type} (t : Upsert σ ρ κ)

/-- One write after the other. -/
def saves (s : σ) (rs : List ρ) : σ := rs.foldl t.save s

variable {t} {s : σ} {r : ρ} {rs rs' : List ρ}

lemma saves_append : t.saves s (rs ++ rs') = t.saves (t.saves s rs) rs' := List.foldl_append

/-- Two writes may be exchanged, unless they write different values to one key. -/
lemma save_comm {r r' : ρ} (h : t.key r = t.key r' → r = r') (s : σ) :
    t.save (t.save s r) r' = t.save (t.save s r') r := by
  by_cases hkey : t.key r = t.key r'
  · rw [h hkey]
  · exact t.comm hkey s

lemma eq_of_key (hnodup : (rs.map t.key).Nodup) {r r' : ρ} (hr : r ∈ rs) (hr' : r' ∈ rs)
    (h : t.key r = t.key r') : r = r' := List.inj_on_of_nodup_map hnodup hr hr' h

/-- The order does not matter. -/
lemma saves_perm (hnodup : (rs.map t.key).Nodup) (hperm : rs.Perm rs') (s : σ) :
    t.saves s rs = t.saves s rs' :=
  hperm.foldl_eq' (fun _ hr _ hr' s => save_comm (eq_of_key hnodup hr hr') s) s

/-- A write may be taken before others. -/
lemma save_comm_saves (h : ∀ r' ∈ rs, t.key r' = t.key r → r' = r) :
    t.save (t.saves s rs) r = t.saves (t.save s r) rs := by
  induction rs generalizing s with
  | nil => rfl
  | cons r' rs ih =>
      obtain ⟨hfirst, hrest⟩ := List.forall_mem_cons.mp h
      have hswap : t.save (t.save s r') r = t.save (t.save s r) r' := save_comm hfirst s
      calc t.save (t.saves s (r' :: rs)) r
          = t.saves (t.save (t.save s r') r) rs := ih hrest
        _ = t.saves (t.save s r) (r' :: rs) := by rw [hswap]; rfl

/-- Writes change nothing if and only if each of them does not. -/
lemma saves_eq_self_iff (hnodup : (rs.map t.key).Nodup) :
    t.saves s rs = s ↔ ∀ r ∈ rs, t.save s r = s := by
  constructor
  · intro h r hr
    obtain ⟨before, after, rfl⟩ := List.append_of_mem hr
    -- the row is written last
    have hperm : (before ++ r :: after).Perm ((before ++ after) ++ [r]) :=
      List.perm_middle.trans (List.perm_append_singleton _ _).symm
    have hlast : t.saves s (before ++ r :: after) = t.save (t.saves s (before ++ after)) r := by
      rw [saves_perm hnodup hperm, saves_append]
      rfl
    rw [← h, hlast]
    exact t.last rfl _
  · intro h
    induction rs with
    | nil => rfl
    | cons r rs ih =>
        obtain ⟨hfirst, hrest⟩ := List.forall_mem_cons.mp h
        have hskip : t.saves s (r :: rs) = t.saves s rs := by
          change t.saves (t.save s r) rs = _
          rw [hfirst]
        exact hskip.trans (ih (List.nodup_cons.mp hnodup).2 hrest)

end Upsert

end Sql
