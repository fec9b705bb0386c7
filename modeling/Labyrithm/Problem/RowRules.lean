import Labyrithm.Problem.Suite

/-!
# Rules for the statements on tests

What a call can rely on while others edit the same suite, and what its statements come to.

Whoever holds the row of the problem finds the tests with their ids and ordinals as they were, or none;
whoever holds the row of a test finds that row.  So `Working`, for a call that holds the row of the
problem: the committed suite has the tests of the suite it started from, though not their contents, and
every row it has written is its own.

* `edits` — the discipline; `Frame` what a lock is good for.
* `recheck_does`, `lockRow_does`, `insertRow_does` — statements about one row.
* `renumber_does`, `distribute_does` — an `UPDATE` of the ordinals, and the new points, make of the rows
  what they would make of them alone.
-/

namespace Labyrithm

namespace Problem

open Sql Tx ProblemRow

/-! ## Rows -/

/-- The rows after some writes. -/
def rowsAfter (ws : List RowWrite) (tests : List TestRow) : List TestRow :=
  ws.foldl (fun tests w => w.apply tests) tests

/-- The row with an id. -/
def rowWith (id : String) (tests : List TestRow) : Option TestRow := tests.find? (·.id = id)

/-- Which test it is, and where. -/
def TestRow.key (t : TestRow) : String × ℤ := (t.id, t.ordinal)

section Rows

variable {id : String} {tests : List TestRow} {ws : List RowWrite} {t : TestRow}

@[simp] lemma rowsAfter_nil (tests : List TestRow) : rowsAfter [] tests = tests := rfl

lemma rowsAfter_append (ws ws' : List RowWrite) (tests : List TestRow) :
    rowsAfter (ws ++ ws') tests = rowsAfter ws' (rowsAfter ws tests) := by
  simp [rowsAfter]

@[simp] lemma rowsAfter_singleton (w : RowWrite) (tests : List TestRow) :
    rowsAfter [w] tests = w.apply tests := rfl

lemma view_eq (ws : List RowWrite) (p : ProblemRow) :
    view ws p = { p with tests := rowsAfter ws p.tests } := by
  induction ws generalizing p with
  | nil => rfl
  | cons w ws ih => exact ih { p with tests := w.apply p.tests }

lemma rowWith_modifyRow {id' : String} {f : TestRow → TestRow} (hne : id' ≠ id)
    (hf : ∀ t, (f t).id = t.id) : rowWith id (modifyRow id' f tests) = rowWith id tests := by
  have hid (t : TestRow) : (if t.id = id' then f t else t).id = t.id := by
    split_ifs
    · exact hf t
    · rfl
  simp only [rowWith, modifyRow, List.find?_map, Function.comp_def, hid]
  cases hfind : tests.find? (·.id = id) with
  | none => rfl
  | some t =>
      have ht : t.id = id := by simpa using List.find?_some hfind
      rw [Option.map_some, if_neg (ht ▸ hne.symm)]

/-- A write changes one row. -/
lemma rowWith_apply {w : RowWrite} (hne : w.id ≠ id) : rowWith id (w.apply tests) = rowWith id tests := by
  cases w with
  | insert row =>
      have hrow : [row].find? (·.id = id) = none := by simpa [RowWrite.id] using hne
      simp only [rowWith, RowWrite.apply, List.find?_append, hrow, Option.or_none]
  | delete id' =>
      simp only [rowWith, RowWrite.apply, List.find?_filter]
      congr 1
      ext t
      by_cases ht : t.id = id
      · simpa [ht, RowWrite.id] using Ne.symm hne
      · simp [ht]
  | setOrdinal id' ordinal => exact rowWith_modifyRow hne fun _ => rfl
  | setPoints id' points => exact rowWith_modifyRow hne fun _ => rfl
  | setContent id' content => exact rowWith_modifyRow hne fun _ => rfl

lemma rowWith_rowsAfter (h : ∀ w ∈ ws, w.id ≠ id) :
    rowWith id (rowsAfter ws tests) = rowWith id tests := by
  induction ws generalizing tests with
  | nil => rfl
  | cons w ws ih =>
      rw [show rowsAfter (w :: ws) tests = rowsAfter ws (w.apply tests) from rfl,
        ih fun w' hw' => h w' (List.mem_cons_of_mem _ hw'), rowWith_apply (h w (by simp))]

lemma rowWith_some (h : rowWith id tests = some t) : t ∈ tests ∧ t.id = id :=
  ⟨List.mem_of_find?_eq_some h, by simpa using List.find?_some h⟩

/-- A row that is found again by its id, and meets the condition still. -/
lemma recheck_some {met : TestRow → Bool} (h : tests.find? (fun t => t.id = id && met t) = some t) :
    t ∈ tests ∧ t.id = id ∧ met t = true := by
  have hmet := List.find?_some h
  simp only [Bool.and_eq_true, decide_eq_true_eq] at hmet
  exact ⟨List.mem_of_find?_eq_some h, hmet.1, hmet.2⟩

lemma rowWith_of_mem (hnodup : (tests.map (·.id)).Nodup) (ht : t ∈ tests) (hid : t.id = id) :
    rowWith id tests = some t := by
  cases hrow : rowWith id tests with
  | none => exact absurd hid (by simpa using List.find?_eq_none.mp hrow t ht)
  | some u =>
      obtain ⟨hu, huid⟩ := rowWith_some hrow
      rw [List.inj_on_of_nodup_map hnodup hu ht (huid.trans hid.symm)]

/-- Rows in the order of their ordinals are sorted. -/
lemma byOrdinal_eq (h : (tests.map (·.ordinal)).Pairwise (· ≤ ·)) : byOrdinal tests = tests :=
  List.Pairwise.insertionSort_eq (List.pairwise_map.mp h)

lemma pairwise_oneTo (n : ℕ) : (oneTo n).Pairwise (· ≤ ·) := by
  refine List.pairwise_map.mpr (List.pairwise_lt_range.imp fun {i j} hij => ?_)
  omega

lemma ProblemRow.Numbered.byOrdinal_eq {p : ProblemRow} (h : p.Numbered) : byOrdinal p.tests = p.tests := by
  refine Problem.byOrdinal_eq ?_
  show p.ordinals.Pairwise (· ≤ ·)
  rw [h]
  exact pairwise_oneTo _

end Rows

/-! ## The discipline -/

/-- What is as it was for a call that holds a lock. -/
def Frame (e : Edit) : RowLock → ProblemRow → ProblemRow → Prop
  | .problem, p, p' =>
      e.SameGrounds p p' ∧ (p'.tests.map (·.key) = p.tests.map (·.key) ∨ p'.tests = [])
  | .test id, p, p' => rowWith id p'.tests = rowWith id p.tests

lemma Edit.SameGrounds.refl (e : Edit) (p : ProblemRow) : e.SameGrounds p p := by
  cases e with
  | addSingleTest => exact ⟨rfl, rfl, Iff.rfl⟩
  | deleteSingleTest => exact rfl
  | updateSingleTest | replaceTests => trivial

lemma Edit.SameGrounds.trans {e : Edit} {a b c : ProblemRow} (hab : e.SameGrounds a b)
    (hbc : e.SameGrounds b c) : e.SameGrounds a c := by
  cases e with
  | addSingleTest =>
      exact ⟨hbc.1.trans hab.1, hbc.2.1.trans hab.2.1, hbc.2.2.trans hab.2.2⟩
  | deleteSingleTest => exact Eq.trans hbc hab
  | updateSingleTest | replaceTests => trivial

/-- The edits of one suite, in a problem that is worth `m`. -/
def edits (sha : List UInt8 → String) (m : ℤ) : Discipline Edit ProblemRow RowWrite RowLock where
  inv := ProblemRow.Suite sha m
  frame := Frame
  frame_refl e l p := by
    cases l with
    | problem => exact ⟨.refl e p, .inl rfl⟩
    | test id => exact rfl
  frame_trans e l a b c hab hbc := by
    cases l with
    | problem =>
        refine ⟨hab.1.trans hbc.1, ?_⟩
        rcases hbc.2 with hkeys | hnil
        · rcases hab.2 with hkeys' | hnil
          · exact .inl (hkeys.trans hkeys')
          · rw [hnil, List.map_nil, List.map_eq_nil_iff] at hkeys
            exact .inr hkeys
        · exact .inr hnil
    | test id => exact Eq.trans hbc hab
  guard := Edit.Undisturbed sha
  rel e p p' := e.op.run sha p = .ok p'

section Rules

variable {sha : List UInt8 → String} {m : ℤ} {e : Edit} {α : Type} {H : List RowLock}
  {ws : List RowWrite} {base c c' : ProblemRow} {Q : α → Assert ProblemRow RowWrite RowLock}

/-- What a call can rely on with the locks it holds. -/
abbrev Relies (sha : List UInt8 → String) (m : ℤ) (e : Edit) (H : List RowLock) (c c' : ProblemRow) :
    Prop := ((edits sha m).protocol e).Rely H c c'

/-- The handler commits what the call does alone, and where it succeeds `Q` holds at the end. -/
abbrev Does (sha : List UInt8 → String) (m : ℤ) (e : Edit) (t : EditHandler α)
    (Q : α → Assert ProblemRow RowWrite RowLock) : Assert ProblemRow RowWrite RowLock :=
  Attains ((edits sha m).protocol e) ((edits sha m).Commits e) t Q

lemma Relies.mono {H' : List RowLock} (h : Relies sha m e H' c c') (hsub : H ⊆ H') :
    Relies sha m e H c c' := ⟨h.1, fun l hl => h.2 l (hsub hl)⟩

/-- The rows of others are as they were. -/
lemma frame_of_locked {id : String} (hlocked : ∀ w ∈ ws, RowLock.test w.id ∈ H)
    (hid : RowLock.test id ∉ H) (c : ProblemRow) : Frame e (.test id) c (view ws c) := by
  rw [view_eq]
  refine rowWith_rowsAfter fun w hw heq => hid ?_
  rw [← heq]
  exact hlocked w hw

/-! ## The row of the problem -/

/-- The suite has the tests of another with their ordinals, and what the call has gone by. -/
structure Settled (sha : List UInt8 → String) (m : ℤ) (e : Edit) (base c : ProblemRow) : Prop where
  suite : c.Suite sha m
  grounds : e.SameGrounds base c
  keys : c.tests.map (·.key) = base.tests.map (·.key)

/-- The locks are enough for the suite to stay so. -/
def Holds (sha : List UInt8 → String) (m : ℤ) (e : Edit) (base : ProblemRow) (H : List RowLock) : Prop :=
  ∀ c c', Settled sha m e base c → Relies sha m e H c c' → Settled sha m e base c'

/-- A call that holds the row of the problem, in the middle of its work. -/
structure Working (sha : List UInt8 → String) (m : ℤ) (e : Edit) (base : ProblemRow) (H : List RowLock)
    (ws : List RowWrite) (c : ProblemRow) : Prop where
  settled : Settled sha m e base c
  holds : Holds sha m e base H
  locked : ∀ w ∈ ws, RowLock.test w.id ∈ H

lemma Working.rely (h : Working sha m e base H ws c) (hc : Relies sha m e H c c') :
    Working sha m e base H ws c' := ⟨h.holds c c' h.settled hc, h.holds, h.locked⟩

lemma Working.lock (h : Working sha m e base H ws c) (l : RowLock) :
    Working sha m e base (l :: H) ws c where
  settled := h.settled
  holds c c' hc hrely := h.holds c c' hc (hrely.mono (List.subset_cons_self l H))
  locked w hw := List.mem_cons_of_mem _ (h.locked w hw)

lemma Working.put (h : Working sha m e base H ws c) {w : RowWrite} (hw : RowLock.test w.id ∈ H) :
    Working sha m e base H (ws ++ [w]) c where
  settled := h.settled
  holds := h.holds
  locked w' hw' := by
    rcases List.mem_append.mp hw' with hw' | hw'
    · exact h.locked w' hw'
    · rwa [List.mem_singleton.mp hw']

/-! ## Statements about one row -/

lemma recheck_does {cond : TestRow → Bool} {id : String} {k : Option TestRow → EditHandler α}
    (h : ∀ c₁ c₂, Relies sha m e H c c₁ → Relies sha m e (.test id :: H) c₁ c₂ →
      Does sha m e (k ((view ws c₂).tests.find? fun t => t.id = id && cond t)) Q (.test id :: H) ws c₂) :
    Does sha m e (recheck cond id >>= k) Q H ws c :=
  fun c₁ h₁ c₂ h₂ => h c₁ c₂ h₁ h₂

lemma lockRow_does {cond : TestRow → Bool} {k : Option TestRow → EditHandler α}
    (hnone : ∀ c', Relies sha m e H c c' → (view ws c').tests.find? cond = none →
      Does sha m e (k none) Q H ws c')
    (hsome : ∀ t c₁ c₂ c₃, Relies sha m e H c c₁ → (view ws c₁).tests.find? cond = some t →
      Relies sha m e H c₁ c₂ → Relies sha m e (.test t.id :: H) c₂ c₃ →
      Does sha m e (k ((view ws c₃).tests.find? fun u => u.id = t.id && cond u)) Q
        (.test t.id :: H) ws c₃) :
    Does sha m e (lockRow cond >>= k) Q H ws c := by
  intro c₁ h₁
  change Does sha m e (recheckFound cond ((view ws c₁).tests.find? cond) >>= k) Q H ws c₁
  cases hfind : (view ws c₁).tests.find? cond with
  | none => exact hnone c₁ h₁ hfind
  | some t => exact recheck_does fun c₂ c₃ h₂ h₃ => hsome t c₁ c₂ c₃ h₁ hfind h₂ h₃

/-- What was free is, where the row of the problem is held. -/
lemma insertRow_does {row : TestRow} {k : Unit → EditHandler α}
    (h : ∀ c₁ c₂ c₃, Relies sha m e H c c₁ → Relies sha m e (.problem :: H) c₁ c₂ →
      Relies sha m e (.test row.id :: .problem :: H) c₂ c₃ →
      (∀ t ∈ (view ws c₃).tests, t.id ≠ row.id ∧ t.ordinal ≠ row.ordinal) →
      Does sha m e (k ()) Q (.test row.id :: .problem :: H) (ws ++ [.insert row]) c₃) :
    Does sha m e (insertRow row >>= k) Q H ws c := by
  intro c₁ h₁ c₂ h₂ c₃ h₃
  change Does sha m e ((if (view ws c₃).tests.any (fun t => t.id = row.id || t.ordinal = row.ordinal)
    then throw .uniqueViolation else put (.insert row)) >>= k) Q _ ws c₃
  split_ifs with htaken
  · exact Attains.throw
  · refine Attains.put (h c₁ c₂ c₃ h₁ h₂ h₃ fun t ht => ?_)
    exact not_or.mp fun heq => htaken (List.any_eq_true.mpr ⟨t, ht, by simpa using heq⟩)

/-! ## Statements about many rows -/

lemma mem_rowsFound {scan : Scan} {cond : TestRow → Bool} {tests : List TestRow} {id : String} :
    id ∈ rowsFound scan cond tests ↔ ∃ t ∈ tests, t.id = id ∧ cond t = true := by
  simp only [rowsFound, List.mem_filterMap, scan.mem_order, Option.map_eq_some_iff]
  constructor
  · rintro ⟨i, ⟨t, ht, hcond⟩, u, hu, rfl⟩
    obtain rfl := Option.some.inj (ht.symm.trans hu)
    exact ⟨t, List.mem_of_getElem? ht, rfl, hcond⟩
  · rintro ⟨t, ht, rfl, hcond⟩
    obtain ⟨i, hi⟩ := List.mem_iff_getElem?.mp ht
    exact ⟨i, ⟨t, hi, hcond⟩, t, hi, rfl⟩

lemma nodup_rowsFound {scan : Scan} {cond : TestRow → Bool} {tests : List TestRow}
    (h : (tests.map (·.id)).Nodup) : (rowsFound scan cond tests).Nodup := by
  refine List.Nodup.filterMap (fun i j id hi hj => ?_) scan.nodup_order
  obtain ⟨t, ht, -⟩ := Option.map_eq_some_iff.mp hi
  have hlt : i < (tests.map (·.id)).length := by
    rw [List.length_map]
    exact (List.getElem?_eq_some_iff.mp ht).1
  refine (List.getElem?_inj hlt h).mp ?_
  rw [List.getElem?_map, List.getElem?_map]
  exact hi.trans hj.symm

/-- The tests that a statement of the call sees, the same in every suite it may come to. -/
def Sees (sha : List UInt8 → String) (m : ℤ) (e : Edit) (base : ProblemRow) (ws : List RowWrite)
    (ks : List (String × ℤ)) : Prop :=
  ∀ c, Settled sha m e base c → (rowsAfter ws c.tests).map (·.key) = ks

lemma ordinal_of_key {ks : List (String × ℤ)} (hnodup : (ks.map Prod.fst).Nodup) {id : String} {o : ℤ}
    (hmem : (id, o) ∈ ks) {rows : List TestRow} (hrows : rows.map (·.key) = ks) {t : TestRow}
    (ht : t ∈ rows) (hid : t.id = id) : t.ordinal = o := by
  have hkey : t.key ∈ ks := hrows ▸ List.mem_map_of_mem ht
  have heq := List.inj_on_of_nodup_map hnodup hkey hmem hid
  exact congrArg Prod.snd heq

/-- The ids of the tests whose ordinals meet a condition, in some order. -/
structure Finds (cond : ℤ → Bool) (ks : List (String × ℤ)) (ids : List String) : Prop where
  nodup : ids.Nodup
  mem : ∀ id, id ∈ ids ↔ ∃ o, (id, o) ∈ ks ∧ cond o = true

lemma finds_rowsFound {scan : Scan} {cond : ℤ → Bool} {tests : List TestRow} {ks : List (String × ℤ)}
    (hkeys : tests.map (·.key) = ks) (hnodup : (ks.map Prod.fst).Nodup) :
    Finds cond ks (rowsFound scan (fun t => cond t.ordinal) tests) where
  nodup := by
    refine nodup_rowsFound ?_
    rw [← hkeys, List.map_map] at hnodup
    exact hnodup
  mem id := by
    rw [mem_rowsFound, ← hkeys]
    constructor
    · rintro ⟨t, ht, rfl, hcond⟩
      exact ⟨t.ordinal, List.mem_map_of_mem ht, hcond⟩
    · rintro ⟨o, ho, hcond⟩
      obtain ⟨t, ht, heq⟩ := List.mem_map.mp ho
      obtain ⟨rfl, rfl⟩ := Prod.mk.inj heq
      exact ⟨t, ht, rfl, hcond⟩

/-- A row of which the new ordinal is written, if it is one of those that are done. -/
def renumbered (f : ℤ → ℤ) (done : List String) (t : TestRow) : TestRow :=
  if t.id ∈ done then { t with ordinal := f t.ordinal } else t

@[simp] lemma renumbered_id (f : ℤ → ℤ) (done : List String) (t : TestRow) :
    (renumbered f done t).id = t.id := by
  unfold renumbered
  split_ifs <;> rfl

/-- In the middle of an `UPDATE` of the ordinals: in every suite the call may come to, the rows that are
done have the new ones. -/
structure Renumbering (sha : List UInt8 → String) (m : ℤ) (e : Edit) (base : ProblemRow) (f : ℤ → ℤ)
    (H₀ : List RowLock) (ws₀ : List RowWrite) (ids done rest : List String) (H : List RowLock)
    (ws : List RowWrite) (c : ProblemRow) : Prop where
  todo : done ++ rest = ids
  working : Working sha m e base H ws c
  locks : H₀ ⊆ H
  rows : ∀ d, Settled sha m e base d →
    rowsAfter ws d.tests = (rowsAfter ws₀ d.tests).map (renumbered f done)

section Renumber

variable {cond : ℤ → Bool} {f : ℤ → ℤ} {ks : List (String × ℤ)} {H₀ : List RowLock}
  {ws₀ : List RowWrite} {ids done rest : List String} {id : String}

lemma Renumbering.rely (h : Renumbering sha m e base f H₀ ws₀ ids done rest H ws c)
    (hc : Relies sha m e H c c') : Renumbering sha m e base f H₀ ws₀ ids done rest H ws c' :=
  ⟨h.todo, h.working.rely hc, h.locks, h.rows⟩

lemma Renumbering.lock (h : Renumbering sha m e base f H₀ ws₀ ids done rest H ws c) (l : RowLock) :
    Renumbering sha m e base f H₀ ws₀ ids done rest (l :: H) ws c :=
  ⟨h.todo, h.working.lock l, fun _ hl => List.mem_cons_of_mem _ (h.locks hl), h.rows⟩

/-- The next row is still there, and has its old ordinal. -/
lemma Renumbering.next (h : Renumbering sha m e base f H₀ ws₀ ids done (id :: rest) H ws c)
    (hsees : Sees sha m e base ws₀ ks) (hnodup : (ks.map Prod.fst).Nodup) (hids : Finds cond ks ids) :
    id ∉ done ∧ ∃ o, (id, o) ∈ ks ∧ ∃ t,
      ((view ws c).tests.find? fun t => t.id = id && cond t.ordinal) = some t ∧ t.id = id ∧
        t.ordinal = o := by
  have hnot : id ∉ done := by
    have hd := hids.nodup
    rw [← h.todo, List.nodup_append] at hd
    exact fun hin => hd.2.2 id hin id (by simp) rfl
  obtain ⟨o, ho, hcond⟩ := (hids.mem id).mp (h.todo ▸ by simp)
  refine ⟨hnot, o, ho, ?_⟩
  have hset := h.working.settled
  have hview : (view ws c).tests = (rowsAfter ws₀ c.tests).map (renumbered f done) := by
    rw [view_eq, h.rows c hset]
  cases hrow : (view ws c).tests.find? (fun t => t.id = id && cond t.ordinal) with
  | none =>
      exfalso
      have hkey : (id, o) ∈ (rowsAfter ws₀ c.tests).map (·.key) := by
        rw [hsees c hset]
        exact ho
      obtain ⟨t, ht, heq⟩ := List.mem_map.mp hkey
      obtain ⟨hid, hord⟩ := Prod.mk.inj heq
      have hsame : renumbered f done t = t := if_neg (hid ▸ hnot)
      have hin : t ∈ (view ws c).tests := by
        rw [hview]
        exact hsame ▸ List.mem_map_of_mem ht
      have hmiss := List.find?_eq_none.mp hrow t hin
      simp [hid, hord, hcond] at hmiss
  | some t =>
      obtain ⟨hin, hid, -⟩ := recheck_some hrow
      rw [hview] at hin
      obtain ⟨u, hu, rfl⟩ := List.mem_map.mp hin
      rw [renumbered_id] at hid
      have hsame : renumbered f done u = u := if_neg (hid ▸ hnot)
      exact ⟨_, rfl, by rw [renumbered_id, hid], by
        rw [hsame]
        exact ordinal_of_key hnodup ho (hsees c hset) hu hid⟩

/-- One row is written. -/
lemma Renumbering.put (h : Renumbering sha m e base f H₀ ws₀ ids done (id :: rest) H ws c)
    (hsees : Sees sha m e base ws₀ ks) (hnodup : (ks.map Prod.fst).Nodup) {o : ℤ} (ho : (id, o) ∈ ks)
    (hnot : id ∉ done) (hlock : RowLock.test id ∈ H) :
    Renumbering sha m e base f H₀ ws₀ ids (done ++ [id]) rest H (ws ++ [.setOrdinal id (f o)]) c where
  todo := by simpa using h.todo
  working := h.working.put hlock
  locks := h.locks
  rows d hset := by
    rw [rowsAfter_append, rowsAfter_singleton, h.rows d hset]
    simp only [RowWrite.apply, modifyRow, List.map_map]
    refine List.map_congr_left fun u hu => ?_
    rw [Function.comp_apply, renumbered_id]
    by_cases hui : u.id = id
    · have hord := ordinal_of_key hnodup ho (hsees d hset) hu hui
      rw [if_pos hui]
      simp [renumbered, hui, hnot, hord]
    · rw [if_neg hui]
      simp [renumbered, hui]

lemma renumberRow_does (hsees : Sees sha m e base ws₀ ks) (hnodup : (ks.map Prod.fst).Nodup)
    (hids : Finds cond ks ids) (h : Renumbering sha m e base f H₀ ws₀ ids done (id :: rest) H ws c) :
    Does sha m e
      (do
        let row ← recheck (fun t => cond t.ordinal) id
        match row with
        | none => return ()
        | some t => writeOrdinal f t)
      (fun _ => Renumbering sha m e base f H₀ ws₀ ids (done ++ [id]) rest) H ws c := by
  refine recheck_does fun c₁ c₂ h₁ h₂ => ?_
  have h₂ := ((h.rely h₁).lock (.test id)).rely h₂
  obtain ⟨hnot, o, ho, t, hrow, rfl, hord⟩ := h₂.next hsees hnodup hids
  rw [hrow]
  refine Attains.select fun c₃ h₃ => ?_
  split_ifs
  · exact Attains.throw
  · intro c₄ h₄ c₅ h₅
    have hput := ((h₂.rely h₃).rely h₄).put hsees hnodup ho hnot (by simp)
    rw [← hord] at hput
    exact hput.rely h₅

variable (cond f) in
/-- An `UPDATE` of the ordinals. -/
lemma renumber_does {scan : Scan} (hW : Working sha m e base H ws c) (hsees : Sees sha m e base ws ks)
    (hnodup : (ks.map Prod.fst).Nodup) :
    Does sha m e (updateRows scan (fun t => cond t.ordinal) (writeOrdinal f))
      (fun _ H' ws' c' => Working sha m e base H' ws' c' ∧ H ⊆ H' ∧
        ∀ d, Settled sha m e base d →
          rowsAfter ws' d.tests = (rowsAfter ws d.tests).map (renumberIf cond f)) H ws c := by
  refine Attains.select fun c₁ h₁ => ?_
  have hW₁ := hW.rely h₁
  have hids : Finds cond ks (rowsFound scan (fun t => cond t.ordinal) (view ws c₁).tests) := by
    rw [view_eq]
    exact finds_rowsFound (hsees c₁ hW₁.settled) hnodup
  generalize rowsFound scan (fun t => cond t.ordinal) (view ws c₁).tests = ids at hids ⊢
  have hstart : Renumbering sha m e base f H ws ids [] ids H ws c₁ :=
    ⟨rfl, hW₁, List.Subset.refl H, 
      fun d _ => (List.map_id'' (fun t => by simp [renumbered]) _).symm⟩
  refine Attains.seq hW₁.settled.suite
    (Attains.forEach (J := Renumbering sha m e base f H ws ids) (fun _ _ _ _ _ h hc => h.rely hc)
      (fun _ _ _ _ _ _ _ h => renumberRow_does hsees hnodup hids h) [] hW₁.settled.suite hstart) ?_
  intro _ H' ws' c₂ _ h
  refine Attains.pure fun c₃ h₃ => ⟨(h.rely h₃).working, h.locks, fun d hset => ?_⟩
  rw [h.rows d hset]
  refine List.map_congr_left fun t ht => ?_
  have hkey : (t.id, t.ordinal) ∈ ks := hsees d hset ▸ List.mem_map_of_mem (f := (·.key)) ht
  have hiff : t.id ∈ [] ++ ids ↔ cond t.ordinal = true := by
    rw [List.nil_append, hids.mem]
    constructor
    · rintro ⟨o, ho, hcond⟩
      rwa [ordinal_of_key hnodup ho (hsees d hset) ht rfl]
    · exact fun hcond => ⟨t.ordinal, hkey, hcond⟩
  simp only [renumbered, renumberIf, hiff]

end Renumber

/-! ## New points -/

/-- The rows before a position have their shares. -/
def shared (maxScore : ℤ) (n k : ℕ) (rows : List TestRow) : List TestRow :=
  rows.mapIdx fun i t => if i < k then { t with points := share maxScore n i } else t

lemma map_id_shared (maxScore : ℤ) (n k : ℕ) (rows : List TestRow) :
    (shared maxScore n k rows).map (·.id) = rows.map (·.id) := by
  refine List.ext_getElem (by simp [shared]) fun i hi _ => ?_
  simp only [shared, List.getElem_map, List.getElem_mapIdx]
  split_ifs <;> rfl

lemma shared_zero (maxScore : ℤ) (n : ℕ) (rows : List TestRow) : shared maxScore n 0 rows = rows := by
  refine List.ext_getElem (by simp [shared]) fun i _ _ => ?_
  simp [shared]

/-- The row at the position gets its share. -/
lemma modifyRow_shared {maxScore : ℤ} {n k : ℕ} {rows : List TestRow} {ids : List String} {id : String}
    (hrows : rows.map (·.id) = ids) (hnodup : ids.Nodup) (hk : ids[k]? = some id) :
    modifyRow id (fun t => { t with points := share maxScore n k }) (shared maxScore n k rows) =
      shared maxScore n (k + 1) rows := by
  refine List.ext_getElem (by simp [modifyRow, shared]) fun i hi hi' => ?_
  have hlen : i < rows.length := by simpa [shared] using hi'
  have hid : ∀ h : i < rows.length, rows[i].id = id ↔ i = k := by
    intro h
    have hat : ids[i]? = some rows[i].id := by simp [← hrows, h]
    constructor
    · intro heq
      have hlt : i < ids.length := by rw [← hrows, List.length_map]; exact h
      exact (List.getElem?_inj hlt hnodup).mp (by rw [hat, heq, hk])
    · rintro rfl
      exact Option.some.inj (hat.symm.trans hk)
  simp only [modifyRow, shared, List.getElem_map, List.getElem_mapIdx]
  rcases Nat.lt_trichotomy i k with hlt | rfl | hgt
  · have hne : ¬ rows[i].id = id := fun heq => Nat.ne_of_lt hlt ((hid hlen).mp heq)
    simp [hlt, hne, Nat.lt_succ_of_lt hlt]
  · simp [(hid hlen).mpr rfl]
  · have hne : ¬ rows[i].id = id := fun heq => Nat.ne_of_gt hgt ((hid hlen).mp heq)
    simp [Nat.not_lt.mpr hgt.le, Nat.not_lt.mpr (Nat.succ_le_of_lt hgt), hne]

/-- In the middle of `DistributeProblemPointsTx`: the rows that are done have their shares. -/
structure Sharing (sha : List UInt8 → String) (m : ℤ) (e : Edit) (base : ProblemRow) (maxScore : ℤ)
    (H₀ : List RowLock) (ws₀ : List RowWrite) (ids : List String) (done rest : List (String × ℕ))
    (H : List RowLock) (ws : List RowWrite) (c : ProblemRow) : Prop where
  todo : done ++ rest = ids.zipIdx
  working : Working sha m e base H ws c
  locks : H₀ ⊆ H
  rows : ∀ d, Settled sha m e base d →
    rowsAfter ws d.tests = shared maxScore ids.length done.length (rowsAfter ws₀ d.tests)

section Share

variable {maxScore : ℤ} {ks : List (String × ℤ)} {H₀ : List RowLock} {ws₀ : List RowWrite}
  {ids : List String} {done rest : List (String × ℕ)} {id : String} {i : ℕ}

lemma Sharing.rely (h : Sharing sha m e base maxScore H₀ ws₀ ids done rest H ws c)
    (hc : Relies sha m e H c c') : Sharing sha m e base maxScore H₀ ws₀ ids done rest H ws c' :=
  ⟨h.todo, h.working.rely hc, h.locks, h.rows⟩

lemma Sharing.lock (h : Sharing sha m e base maxScore H₀ ws₀ ids done rest H ws c) (l : RowLock) :
    Sharing sha m e base maxScore H₀ ws₀ ids done rest (l :: H) ws c :=
  ⟨h.todo, h.working.lock l, fun _ hl => List.mem_cons_of_mem _ (h.locks hl), h.rows⟩

lemma ids_of_sees (hsees : Sees sha m e base ws₀ ks) {d : ProblemRow} (hset : Settled sha m e base d) :
    (rowsAfter ws₀ d.tests).map (·.id) = ks.map Prod.fst := by
  rw [← hsees d hset, List.map_map]
  rfl

/-- The next row is where its number says. -/
lemma Sharing.at (h : Sharing sha m e base maxScore H₀ ws₀ ids done ((id, i) :: rest) H ws c) :
    i = done.length ∧ ids[done.length]? = some id := by
  have hat : ids.zipIdx[done.length]? = some (id, i) := by simp [← h.todo]
  rw [List.getElem?_zipIdx, Option.map_eq_some_iff] at hat
  obtain ⟨id', hid, heq⟩ := hat
  obtain ⟨rfl, rfl⟩ := Prod.mk.inj heq
  exact ⟨by omega, hid⟩

/-- And is still there. -/
lemma Sharing.next (h : Sharing sha m e base maxScore H₀ ws₀ (ks.map Prod.fst) done ((id, i) :: rest) H ws c)
    (hsees : Sees sha m e base ws₀ ks) : ∃ t ∈ (view ws c).tests, t.id = id := by
  have hset := h.working.settled
  have hmem : id ∈ ((view ws c).tests).map (·.id) := by
    rw [view_eq, h.rows c hset, map_id_shared, ids_of_sees hsees hset]
    exact List.mem_of_getElem? h.at.2
  obtain ⟨t, ht, hid⟩ := List.mem_map.mp hmem
  exact ⟨t, ht, hid⟩

lemma Sharing.put
    (h : Sharing sha m e base maxScore H₀ ws₀ (ks.map Prod.fst) done ((id, i) :: rest) H ws c)
    (hsees : Sees sha m e base ws₀ ks) (hnodup : (ks.map Prod.fst).Nodup) (hlock : RowLock.test id ∈ H) :
    Sharing sha m e base maxScore H₀ ws₀ (ks.map Prod.fst) (done ++ [(id, i)]) rest H
      (ws ++ [.setPoints id (share maxScore (ks.map Prod.fst).length i)]) c where
  todo := by simpa using h.todo
  working := h.working.put hlock
  locks := h.locks
  rows d hset := by
    obtain ⟨hi, hid⟩ := h.at
    rw [rowsAfter_append, rowsAfter_singleton, h.rows d hset, List.length_append, hi]
    exact modifyRow_shared (ids_of_sees hsees hset) hnodup hid

lemma writeShare_does (hsees : Sees sha m e base ws₀ ks) (hnodup : (ks.map Prod.fst).Nodup)
    {x : String × ℕ}
    (h : Sharing sha m e base maxScore H₀ ws₀ (ks.map Prod.fst) done (x :: rest) H ws c) :
    Does sha m e
      (do
        let row ← lockRow (·.id = x.1)
        match row with
        | none => return ()
        | some t => put (.setPoints t.id (share maxScore (ks.map Prod.fst).length x.2)))
      (fun _ => Sharing sha m e base maxScore H₀ ws₀ (ks.map Prod.fst) (done ++ [x]) rest) H ws c := by
  obtain ⟨id, i⟩ := x
  refine lockRow_does (fun c₁ h₁ hnone => ?_) fun t c₁ c₂ c₃ h₁ hfind h₂ h₃ => ?_
  · obtain ⟨t, ht, hid⟩ := (h.rely h₁).next hsees
    exact absurd hid (by simpa using List.find?_eq_none.mp hnone t ht)
  · obtain rfl : t.id = id := by simpa using List.find?_some hfind
    have h₃ := (((h.rely h₁).rely h₂).lock (.test t.id)).rely h₃
    obtain ⟨u, hu, hid⟩ := h₃.next hsees
    cases hrow : (view ws c₃).tests.find? (fun u => u.id = t.id && decide (u.id = t.id)) with
    | none =>
        have hmiss := List.find?_eq_none.mp hrow u hu
        simp [hid] at hmiss
    | some v =>
        have hvid : v.id = t.id := (recheck_some hrow).2.1
        intro c₄ h₄ c₅ h₅
        have hput := ((h₃.rely h₄).put hsees hnodup (by simp)).rely h₅
        rw [← hvid] at hput ⊢
        exact hput

/-- `DistributeProblemPointsTx` splits the score among the rows that the call sees. -/
lemma distribute_does (hW : Working sha m e base H ws c) (hsees : Sees sha m e base ws ks)
    (hnodup : (ks.map Prod.fst).Nodup) (hsorted : (ks.map Prod.snd).Pairwise (· ≤ ·)) :
    Does sha m e (distributeProblemPointsTx maxScore)
      (fun _ H' ws' c' => Working sha m e base H' ws' c' ∧ H ⊆ H' ∧
        ∀ d, Settled sha m e base d → view ws' d = (view ws d).distributeProblemPoints maxScore)
      H ws c := by
  refine Attains.select fun c₁ h₁ => ?_
  have hW₁ := hW.rely h₁
  have hids : (byOrdinal (view ws c₁).tests).map (·.id) = ks.map Prod.fst := by
    have hkeys := hsees c₁ hW₁.settled
    rw [view_eq, byOrdinal_eq, ids_of_sees hsees hW₁.settled]
    rw [← hkeys, List.map_map] at hsorted
    exact hsorted
  have hlen : ∀ d, Settled sha m e base d → (rowsAfter ws d.tests).length = (ks.map Prod.fst).length :=
    fun d hset => by rw [← ids_of_sees hsees hset, List.length_map]
  rw [hids]
  split_ifs with hnone
  · refine Attains.pure fun c₂ h₂ => ⟨hW₁.rely h₂, List.Subset.refl H, fun d hset => ?_⟩
    unfold distributeProblemPoints
    split_ifs with hscore
    · rfl
    · have hnil : rowsAfter ws d.tests = [] := by
        rw [← List.length_eq_zero_iff, hlen d hset, hnone.resolve_right hscore]
        rfl
      simp [view_eq, hnil]
  · have hstart : Sharing sha m e base maxScore H ws (ks.map Prod.fst) [] (ks.map Prod.fst).zipIdx
        H ws c₁ := ⟨rfl, hW₁, List.Subset.refl H, fun d _ => (shared_zero _ _ _).symm⟩
    refine Attains.seq hW₁.settled.suite
      (Attains.forEach (J := Sharing sha m e base maxScore H ws (ks.map Prod.fst))
        (fun _ _ _ _ _ h hc => h.rely hc)
        (fun _ _ _ _ _ _ _ h => writeShare_does hsees hnodup h) [] hW₁.settled.suite hstart) ?_
    intro _ H' ws' c₂ _ h
    refine Attains.pure fun c₃ h₃ => ⟨(h.rely h₃).working, h.locks, fun d hset => ?_⟩
    have hscore : ¬ maxScore ≤ 0 := fun hle => hnone (.inr hle)
    rw [view_eq, view_eq, distributeProblemPoints, if_neg hscore, h.rows d hset]
    simp only [List.nil_append, List.length_zipIdx, ← hlen d hset, ProblemRow.mk.injEq, true_and]
    refine List.ext_getElem (by simp [shared]) fun i hi hi' => ?_
    have hlt : i < (rowsAfter ws d.tests).length := by simpa using hi'
    simp [shared, hlt]

end Share

end Rules

end Problem

end Labyrithm
