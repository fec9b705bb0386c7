import Mathlib.Algebra.Order.Group.Int
import Mathlib.Algebra.Order.Ring.Int
import Mathlib.Data.List.Nodup
import Mathlib.Data.List.Sort
import Mathlib.Tactic.Common
import Mathlib.Tactic.Ring

/-!
# Pages of a table

`usePagination` and `pageWindow` of `admin-frontend/src/hooks/use-pagination.ts`: a table shows one page of its
rows, and buttons for some of the pages.  The page that is asked for may be past the end, when rows are gone, and
an effect brings it back some time after the render; a quotient is taken exactly.

* `Pagination.view` — what a render shows, `Pagination.step` what may happen between two renders.
* `pages_flatten` — the pages together are the rows.
* `Filled` — the numbers around a page, and at both ends.
* `fill_spec` — what the loop over the distances leaves.

**`pages_shown`** — whatever happens, a page that exists is shown, with all its rows, and it is empty only where
there are no rows; and the buttons lead to the pages that they name.
**`pageWindow_spec`** — which buttons there are.
-/

namespace Labyrithm

namespace Console

/-! ## The table -/

section Table

variable {α : Type}

/-- `Array.prototype.slice`, where an index below zero counts from the end. -/
def slice (items : List α) (start stop : ℤ) : List α :=
  let index := fun i : ℤ => if i < 0 then (items.length + i).toNat else i.toNat
  (items.take (index stop)).drop (index start)

/-- The state of `usePagination`, with the rows that it is given. -/
structure Pagination (α : Type) where
  items : List α
  page : ℤ
  pageSize : ℤ

namespace Pagination

/-- The first render. -/
def new (items : List α) (initialPageSize : ℤ) : Pagination α := ⟨items, 1, initialPageSize⟩

variable (s : Pagination α)

def pageCount : ℤ := max 1 ((s.items.length + s.pageSize - 1) / s.pageSize)

def safePage : ℤ := min s.page s.pageCount

/-- What a render shows: `PaginationState`. -/
structure View (α : Type) where
  page : ℤ
  pageSize : ℤ
  pageCount : ℤ
  totalItems : ℤ
  firstItem : ℤ
  lastItem : ℤ
  items : List α

def view : View α where
  page := s.safePage
  pageSize := s.pageSize
  pageCount := s.pageCount
  totalItems := s.items.length
  firstItem := if s.items.length = 0 then 0 else (s.safePage - 1) * s.pageSize + 1
  lastItem := min (s.safePage * s.pageSize) s.items.length
  items := slice s.items ((s.safePage - 1) * s.pageSize) ((s.safePage - 1) * s.pageSize + s.pageSize)

end Pagination

/-- What may happen: the rows change, the effect runs, or a button is used. -/
inductive PageEvent (α : Type)
  | rows (items : List α)
  | clamp
  | setPage (next : ℤ)
  | setPageSize (size : ℤ)

def Pagination.step (s : Pagination α) : PageEvent α → Pagination α
  | .rows items => { s with items := items }
  | .clamp => { s with page := s.safePage }
  | .setPage next => { s with page := min (max 1 next) s.pageCount }
  | .setPageSize size => { s with pageSize := size, page := 1 }

def Pagination.run (s : Pagination α) (events : List (PageEvent α)) : Pagination α :=
  events.foldl Pagination.step s

end Table

/-! ## The buttons -/

section Buttons

/-- `Set.prototype.add`. -/
def add (slots : List ℤ) (x : ℤ) : List ℤ := if x ∈ slots then slots else slots ++ [x]

/-- The body of the loop of `pageWindow`. -/
def widen (page pageCount limit : ℤ) (slots : List ℤ) (offset : ℤ) : List ℤ :=
  let slots := if page - offset > 1 then add slots (page - offset) else slots
  if slots.length < limit ∧ page + offset < pageCount then add slots (page + offset) else slots

/-- The loop over the offsets, which stops when there are enough numbers. -/
def fill (page pageCount limit : ℤ) : List ℤ → List ℤ → List ℤ
  | [], slots => slots
  | offset :: offsets, slots =>
      if slots.length < limit then fill page pageCount limit offsets (widen page pageCount limit slots offset)
      else slots

/-- The numbers after the first, with `null` for an ellipsis. -/
def gapsAfter : ℤ → List ℤ → List (Option ℤ)
  | _, [] => []
  | prev, x :: rest =>
      if x - prev > 1 then none :: some x :: gapsAfter x rest else some x :: gapsAfter x rest

def withGaps : List ℤ → List (Option ℤ)
  | [] => []
  | x :: rest => some x :: gapsAfter x rest

/-- The numbers from 1 on. -/
def upTo (n : ℤ) : List ℤ := (List.range n.toNat).map fun i : ℕ => (i : ℤ) + 1

def pageWindow (page pageCount maxSlots : ℤ) : List (Option ℤ) :=
  if pageCount ≤ maxSlots then (upTo pageCount).map some
  else
    let slots := fill page pageCount (maxSlots - 2) (upTo pageCount) (add (add [1] pageCount) page)
    withGaps (slots.insertionSort (· ≤ ·))

end Buttons

/-! ## Rows -/

section Rows

variable {α : Type} {s : Pagination α}

lemma slice_of_nonneg (items : List α) {start stop : ℤ} (h0 : 0 ≤ start) (h : start ≤ stop) :
    slice items start stop = (items.take stop.toNat).drop start.toNat := by
  rw [slice]
  dsimp only
  rw [if_neg (by omega), if_neg (by omega)]

lemma pageCount_pos : 1 ≤ s.pageCount := le_max_left _ _

/-- The rows reach to the last page. -/
lemma length_le_pageCount (hsize : 0 < s.pageSize) : (s.items.length : ℤ) ≤ s.pageCount * s.pageSize := by
  have hceil : (s.items.length : ℤ) ≤ (s.items.length + s.pageSize - 1) / s.pageSize * s.pageSize := by
    have hmod := Int.emod_lt_of_pos (s.items.length + s.pageSize - 1 : ℤ) hsize
    have hdiv := Int.mul_ediv_add_emod (s.items.length + s.pageSize - 1 : ℤ) s.pageSize
    rw [mul_comm] at hdiv
    omega
  exact hceil.trans (mul_le_mul_of_nonneg_right (le_max_right _ _) hsize.le)

/-- Every page but the first begins before the end. -/
lemma pageCount_lt (hsize : 0 < s.pageSize) (hitems : s.items ≠ []) :
    (s.pageCount - 1) * s.pageSize < s.items.length := by
  have hpos : 0 < s.items.length := List.length_pos_of_ne_nil hitems
  rw [Pagination.pageCount, max_def]
  split_ifs with h
  · have hdiv := Int.ediv_mul_le (s.items.length + s.pageSize - 1 : ℤ) hsize.ne'
    rw [sub_mul, one_mul]
    omega
  · rw [sub_self, zero_mul]
    exact_mod_cast hpos

/-- The pages that there are. -/
def pageRows (s : Pagination α) (i : ℕ) : List α :=
  slice s.items (i * s.pageSize) (i * s.pageSize + s.pageSize)

lemma take_append_slice (items : List α) {i k : ℕ} :
    items.take (i * k) ++ (items.take (i * k + k)).drop (i * k) = items.take ((i + 1) * k) := by
  have htake : items.take (i * k) = (items.take (i * k + k)).take (i * k) := by
    rw [List.take_take, min_eq_left (by omega)]
  rw [htake, List.take_append_drop, Nat.succ_mul]

/-- The pages together are the rows. -/
lemma pages_flatten (hsize : 0 < s.pageSize) :
    (List.range s.pageCount.toNat).flatMap (pageRows s) = s.items := by
  obtain ⟨k, hk⟩ : ∃ k : ℕ, s.pageSize = k := ⟨s.pageSize.toNat, by omega⟩
  have hpages : ∀ n, (List.range n).flatMap (pageRows s) = s.items.take (n * k) := by
    intro n
    induction n with
    | zero => simp
    | succ n ih =>
        have hrows : pageRows s n = (s.items.take (n * k + k)).drop (n * k) := by
          have hstart : ((n : ℤ) * s.pageSize).toNat = n * k := by
            rw [hk]
            exact_mod_cast Int.toNat_natCast (n * k)
          have hstop : ((n : ℤ) * s.pageSize + s.pageSize).toNat = n * k + k := by
            rw [hk]
            exact_mod_cast Int.toNat_natCast (n * k + k)
          rw [pageRows, slice_of_nonneg _ (mul_nonneg (by omega) hsize.le) (by omega), hstart, hstop]
        rw [List.range_succ, List.flatMap_append, ih, List.flatMap_singleton, hrows, take_append_slice]
  rw [hpages, List.take_of_length_le]
  have hlen := length_le_pageCount hsize
  have hpos := pageCount_pos (s := s)
  obtain ⟨n, hn⟩ : ∃ n : ℕ, s.pageCount = n := ⟨s.pageCount.toNat, by omega⟩
  rw [hn, hk] at hlen
  rw [hn]
  exact_mod_cast hlen

/-- A page that exists is shown from then on. -/
lemma run_page {events : List (PageEvent α)} (hpage : 1 ≤ s.page) (hsize : 0 < s.pageSize)
    (hsizes : ∀ size, .setPageSize size ∈ events → 0 < size) :
    1 ≤ (s.run events).page ∧ 0 < (s.run events).pageSize := by
  induction events generalizing s with
  | nil => exact ⟨hpage, hsize⟩
  | cons event events ih =>
      have hcount := pageCount_pos (s := s)
      have hstep : 1 ≤ (s.step event).page ∧ 0 < (s.step event).pageSize := by
        cases event with
        | rows items => exact ⟨hpage, hsize⟩
        | clamp => exact ⟨le_min hpage hcount, hsize⟩
        | setPage next => exact ⟨le_min (le_max_left _ _) hcount, hsize⟩
        | setPageSize size => exact ⟨le_refl _, hsizes size List.mem_cons_self⟩
      exact ih hstep.1 hstep.2 fun size hsize => hsizes size (List.mem_cons_of_mem _ hsize)

/-- The rows of the page that is shown. -/
lemma length_view (hpage : 1 ≤ s.page) (hsize : 0 < s.pageSize) (hitems : s.items ≠ []) :
    0 < (s.view.items.length : ℤ) ∧
      (s.view.items.length : ℤ) = s.view.lastItem - s.view.firstItem + 1 := by
  have hsafe : 1 ≤ s.safePage := le_min hpage pageCount_pos
  have hstart : 0 ≤ (s.safePage - 1) * s.pageSize := mul_nonneg (by omega) hsize.le
  have hlt : (s.safePage - 1) * s.pageSize < s.items.length := by
    refine lt_of_le_of_lt (mul_le_mul_of_nonneg_right ?_ hsize.le) (pageCount_lt hsize hitems)
    exact sub_le_sub_right (min_le_right _ _) 1
  have hlen : s.items.length ≠ 0 := fun h => hitems (List.length_eq_zero_iff.mp h)
  have hend : s.safePage * s.pageSize = (s.safePage - 1) * s.pageSize + s.pageSize := by ring
  have hrows := slice_of_nonneg s.items hstart
    (by omega : _ ≤ (s.safePage - 1) * s.pageSize + s.pageSize)
  simp only [Pagination.view, if_neg hlen, hrows, hend, List.length_drop, List.length_take]
  omega

/-- **What a table shows.**  Whatever happens between the renders, a page that exists is shown; it is empty only
where there are no rows, and has as many rows as it says; the pages together are the rows; and a page that
exists is shown when its button is used. -/
theorem pages_shown (items : List α) (initialPageSize : ℤ) (events : List (PageEvent α))
    (hinitial : 0 < initialPageSize) (hsizes : ∀ size, .setPageSize size ∈ events → 0 < size) :
    let s := (Pagination.new items initialPageSize).run events
    (1 ≤ s.view.page ∧ s.view.page ≤ s.pageCount) ∧
    s.view.items = pageRows s (s.view.page - 1).toNat ∧
    (s.items ≠ [] → 0 < (s.view.items.length : ℤ) ∧
      (s.view.items.length : ℤ) = s.view.lastItem - s.view.firstItem + 1) ∧
    (List.range s.pageCount.toNat).flatMap (pageRows s) = s.items ∧
    ∀ next, 1 ≤ next → next ≤ s.pageCount → (s.step (.setPage next)).view.page = next := by
  intro s
  obtain ⟨hpage, hsize⟩ :=
    run_page (s := Pagination.new items initialPageSize) (le_refl _) hinitial hsizes
  have hsafe : 1 ≤ s.safePage := le_min hpage pageCount_pos
  refine ⟨⟨hsafe, min_le_right _ _⟩, ?_, length_view hpage hsize, pages_flatten hsize, ?_⟩
  · have hindex : (((s.safePage - 1).toNat : ℕ) : ℤ) = s.safePage - 1 := by omega
    simp only [Pagination.view, pageRows, hindex]
  · intro next hone hlast
    have hcount : (s.step (.setPage next)).pageCount = s.pageCount := rfl
    rw [Pagination.view, Pagination.safePage, hcount, Pagination.step]
    dsimp only
    omega

theorem pages_shown_sample :
    let s := (Pagination.new [1, 2, 3, 4, 5] 2).run [.setPage 9, .rows [1, 2, 3], .clamp]
    s.view.page = 2 ∧ s.view.items = [3] ∧
      (List.range s.pageCount.toNat).flatMap (pageRows s) = [1, 2, 3] := by
  intro s
  obtain ⟨-, -, -, hflat, -⟩ := pages_shown [1, 2, 3, 4, 5] 2 [.setPage 9, .rows [1, 2, 3], .clamp] (by decide)
    (fun size hsize => by simp at hsize)
  exact ⟨by decide, by decide, hflat⟩

end Rows

/-! ## Numbers -/

section Numbers

variable {page pageCount limit x : ℤ} {slots : List ℤ} {a b : ℤ}

lemma mem_add : x ∈ add slots a ↔ x ∈ slots ∨ x = a := by
  rw [add]
  split_ifs with h
  · exact ⟨.inl, fun hx => hx.elim id fun heq => heq ▸ h⟩
  · simp

lemma nodup_add (h : slots.Nodup) : (add slots a).Nodup := by
  rw [add]
  split_ifs with hmem
  · exact h
  · rw [List.nodup_append]
    refine ⟨h, List.nodup_singleton a, fun y hy z hz heq => ?_⟩
    rw [List.mem_singleton] at hz
    rw [← hz, ← heq] at hmem
    exact hmem hy

lemma length_add (slots : List ℤ) (a : ℤ) : ((add slots a).length : ℤ) ≤ slots.length + 1 := by
  rw [add]
  split_ifs <;> simp

lemma mem_upTo : x ∈ upTo a ↔ 1 ≤ x ∧ x ≤ a := by
  rw [upTo, List.mem_map]
  constructor
  · rintro ⟨i, hi, rfl⟩
    rw [List.mem_range] at hi
    omega
  · rintro ⟨h1, ha⟩
    exact ⟨(x - 1).toNat, List.mem_range.mpr (by omega), by omega⟩

/-- The ends, the page, and the numbers around it. -/
structure Filled (page pageCount a b : ℤ) (slots : List ℤ) : Prop where
  nodup : slots.Nodup
  mem : ∀ x, x ∈ slots ↔
    x = 1 ∨ x = pageCount ∨ x = page ∨ 1 < x ∧ x < pageCount ∧ page - a ≤ x ∧ x ≤ page + b

lemma Filled.left (h : Filled page pageCount a b slots) (hpage : 1 ≤ page ∧ page ≤ pageCount)
    (hab : 0 ≤ a ∧ 0 ≤ b) :
    Filled page pageCount (a + 1) b
      (if page - (a + 1) > 1 then add slots (page - (a + 1)) else slots) := by
  split_ifs with hgt
  · refine ⟨nodup_add h.nodup, fun x => ?_⟩
    rw [mem_add, h.mem]
    omega
  · refine ⟨h.nodup, fun x => ?_⟩
    rw [h.mem]
    omega

lemma Filled.right (h : Filled page pageCount a b slots) (hpage : 1 ≤ page ∧ page ≤ pageCount)
    (hab : 0 ≤ a ∧ 0 ≤ b) (hlt : page + (b + 1) < pageCount) :
    Filled page pageCount a (b + 1) (add slots (page + (b + 1))) := by
  refine ⟨nodup_add h.nodup, fun x => ?_⟩
  rw [mem_add, h.mem]
  omega

/-- One offset: there are enough numbers after it, or all at that distance. -/
lemma widen_spec (h : Filled page pageCount a a slots) (hpage : 1 ≤ page ∧ page ≤ pageCount) (ha : 0 ≤ a)
    (hlt : slots.length < limit) :
    ((widen page pageCount limit slots (a + 1)).length : ℤ) ≤ limit ∧
      (Filled page pageCount (a + 1) (a + 1) (widen page pageCount limit slots (a + 1)) ∨
        Filled page pageCount (a + 1) a (widen page pageCount limit slots (a + 1)) ∧
          ((widen page pageCount limit slots (a + 1)).length : ℤ) = limit) := by
  have hleft := h.left hpage ⟨ha, ha⟩
  have hlen : ((if page - (a + 1) > 1 then add slots (page - (a + 1)) else slots).length : ℤ) ≤ limit := by
    split_ifs
    · have := length_add slots (page - (a + 1))
      omega
    · omega
  rw [widen]
  generalize (if page - (a + 1) > 1 then add slots (page - (a + 1)) else slots) = slots' at hleft hlen ⊢
  split_ifs with hmore
  · have := length_add slots' (page + (a + 1))
    exact ⟨by omega, .inl (hleft.right hpage ⟨by omega, ha⟩ hmore.2)⟩
  · refine ⟨hlen, ?_⟩
    by_cases hfull : (slots'.length : ℤ) = limit
    · exact .inr ⟨hleft, hfull⟩
    · -- there was no number on the right
      refine .inl ⟨hleft.nodup, fun x => ?_⟩
      rw [hleft.mem]
      omega

lemma offsets_succ (k : ℤ) (n : ℕ) : (List.range (n + 1)).map (fun i : ℕ => k + 1 + (i : ℤ)) =
    (k + 1) :: (List.range n).map fun i : ℕ => k + 1 + 1 + (i : ℤ) := by
  rw [List.range_succ_eq_map, List.map_cons, List.map_map]
  congr 1
  · simp
  · refine List.map_congr_left fun i _ => ?_
    simp only [Function.comp_apply, Nat.cast_succ]
    ring

/-- What the loop leaves: enough numbers, or all that the offsets lead to. -/
lemma fill_spec {n : ℕ} {k : ℤ} (h : Filled page pageCount k k slots) (hpage : 1 ≤ page ∧ page ≤ pageCount)
    (hk : 0 ≤ k) (hle : (slots.length : ℤ) ≤ limit) :
    let result := fill page pageCount limit ((List.range n).map fun i : ℕ => k + 1 + (i : ℤ)) slots
    (result.length : ℤ) ≤ limit ∧ ∃ a b, 0 ≤ b ∧ (a = b ∨ a = b + 1) ∧ Filled page pageCount a b result ∧
      ((result.length : ℤ) = limit ∨ a = k + n ∧ b = k + n) := by
  induction n generalizing k slots with
  | zero => exact ⟨hle, k, k, hk, .inl rfl, h, .inr (by simp)⟩
  | succ n ih =>
      rw [offsets_succ, fill]
      split_ifs with hlt
      · obtain ⟨hlen, hfilled | ⟨hfilled, hfull⟩⟩ := widen_spec h hpage hk hlt
        · obtain ⟨hresult, a, b, hb, hab, hmem, hend⟩ := ih hfilled (by omega) hlen
          refine ⟨hresult, a, b, hb, hab, hmem, ?_⟩
          rcases hend with hfull | ⟨ha, hb'⟩
          · exact .inl hfull
          · push_cast
            exact .inr ⟨by omega, by omega⟩
        · -- enough: the loop does nothing more
          have hstop : ∀ offsets, fill page pageCount limit offsets (widen page pageCount limit slots (k + 1)) =
              widen page pageCount limit slots (k + 1) := by
            intro offsets
            cases offsets with
            | nil => rfl
            | cons offset offsets => rw [fill, if_neg (by omega)]
          dsimp only
          rw [hstop]
          exact ⟨hlen, k + 1, k, hk, .inr rfl, hfilled, .inl hfull⟩
      · exact ⟨hle, k, k, hk, .inl rfl, h, .inl (le_antisymm hle (not_lt.mp hlt))⟩

/-- From the numbers around the page on, there is no more than one ellipsis. -/
lemma length_gapsAfter {prev : ℤ} {rest : List ℤ} (hprev : 1 < prev ∧ page - a ≤ prev)
    (hsorted : (prev :: rest).Pairwise (· < ·))
    (hrest : ∀ x, x ∈ rest ↔ prev < x ∧ (x = 1 ∨ x = pageCount ∨ x = page ∨
      1 < x ∧ x < pageCount ∧ page - a ≤ x ∧ x ≤ page + b))
    (hab : 0 ≤ a ∧ 0 ≤ b) (hpage : page ≤ pageCount) :
    (gapsAfter prev rest).length ≤ rest.length + 1 := by
  induction rest generalizing prev with
  | nil => simp [gapsAfter]
  | cons x rest ih =>
      have hfirst := (hrest x).mp List.mem_cons_self
      obtain ⟨hbelow, hsorted'⟩ := List.pairwise_cons.mp hsorted
      obtain ⟨habove, -⟩ := List.pairwise_cons.mp hsorted'
      have hrest' : ∀ y, y ∈ rest ↔ x < y ∧ (y = 1 ∨ y = pageCount ∨ y = page ∨
          1 < y ∧ y < pageCount ∧ page - a ≤ y ∧ y ≤ page + b) := by
        intro y
        constructor
        · exact fun hy => ⟨habove y hy, ((hrest y).mp (List.mem_cons_of_mem x hy)).2⟩
        · rintro ⟨hlt, hy⟩
          rcases List.mem_cons.mp ((hrest y).mpr ⟨hfirst.1.trans hlt, hy⟩) with rfl | hmem
          · exact absurd hlt (lt_irrefl _)
          · exact hmem
      rw [gapsAfter]
      split_ifs with hgap
      · -- the number after `prev` is missing, so `x` is the last page
        have hlast : x = pageCount := by
          by_contra hne
          have hnext : prev + 1 ∈ x :: rest := (hrest (prev + 1)).mpr ⟨by omega, by omega⟩
          rcases List.mem_cons.mp hnext with heq | hmem
          · omega
          · have := habove _ hmem
            omega
        have hnil : rest = [] := by
          rw [List.eq_nil_iff_forall_not_mem]
          intro y hy
          have := (hrest' y).mp hy
          omega
        rw [hnil, gapsAfter]
        rfl
      · have := @ih x ⟨by omega, by omega⟩ hsorted' hrest'
        rw [List.length_cons, List.length_cons]
        omega

/-- There are two ellipses at most. -/
lemma length_withGaps {ns : List ℤ} (hsorted : ns.Pairwise (· < ·))
    (hmem : ∀ x, x ∈ ns ↔ x = 1 ∨ x = pageCount ∨ x = page ∨
      1 < x ∧ x < pageCount ∧ page - a ≤ x ∧ x ≤ page + b)
    (hab : 0 ≤ a ∧ 0 ≤ b) (hpage : 1 ≤ page ∧ page ≤ pageCount) :
    (withGaps ns).length ≤ ns.length + 2 := by
  match ns with
  | [] => simp [withGaps]
  | [x] => simp [withGaps, gapsAfter]
  | x :: y :: rest =>
      obtain ⟨hbelow, hsorted'⟩ := List.pairwise_cons.mp hsorted
      obtain ⟨habove, -⟩ := List.pairwise_cons.mp hsorted'
      have hx : x = 1 := by
        rcases List.mem_cons.mp ((hmem 1).mpr (.inl rfl)) with heq | hone
        · exact heq.symm
        · have := hbelow 1 hone
          have := (hmem x).mp List.mem_cons_self
          omega
      have hxy := hbelow y List.mem_cons_self
      have hy := (hmem y).mp (List.mem_cons_of_mem x List.mem_cons_self)
      have hrest : ∀ z, z ∈ rest ↔ y < z ∧ (z = 1 ∨ z = pageCount ∨ z = page ∨
          1 < z ∧ z < pageCount ∧ page - a ≤ z ∧ z ≤ page + b) := by
        intro z
        constructor
        · intro hz
          exact ⟨habove z hz, (hmem z).mp (List.mem_cons_of_mem x (List.mem_cons_of_mem y hz))⟩
        · rintro ⟨hlt, hz⟩
          rcases List.mem_cons.mp ((hmem z).mpr hz) with rfl | hz'
          · omega
          · rcases List.mem_cons.mp hz' with rfl | hz''
            · omega
            · exact hz''
      have hlen := @length_gapsAfter page pageCount a b y rest ⟨by omega, by omega⟩ hsorted' hrest hab hpage.2
      rw [withGaps, gapsAfter]
      split_ifs <;> simp only [List.length_cons] <;> omega

/-- Numbers without a gap. -/
lemma gapsAfter_range (k : ℤ) (n : ℕ) :
    gapsAfter k ((List.range n).map fun i : ℕ => k + 1 + (i : ℤ)) =
      ((List.range n).map fun i : ℕ => k + 1 + (i : ℤ)).map some := by
  induction n generalizing k with
  | zero => rfl
  | succ n ih =>
      rw [offsets_succ, gapsAfter, if_neg (by omega), ih, List.map_cons]

lemma upTo_eq (n : ℤ) : upTo n = (List.range n.toNat).map fun i : ℕ => 0 + 1 + (i : ℤ) := by
  rw [upTo]
  refine List.map_congr_left fun i _ => ?_
  ring

lemma pairwise_upTo (n : ℤ) : (upTo n).Pairwise (· < ·) := by
  rw [upTo, List.pairwise_map]
  exact List.pairwise_lt_range.imp fun h => by omega

/-- **The buttons.**  There are `maxSlots` slots at most, of which at most two are ellipses, in the places where
numbers are missing.  The numbers go up, from the first page to the last; the page itself is among them, and the
others are those around it, as many on the left as on the right, or one more.  Where there is not room for all,
there are two less than there are slots. -/
theorem pageWindow_spec (page pageCount maxSlots : ℤ) (hpage : 1 ≤ page ∧ page ≤ pageCount)
    (hslots : 5 ≤ maxSlots) :
    ((pageWindow page pageCount maxSlots).length : ℤ) ≤ maxSlots ∧
    ∃ ns, pageWindow page pageCount maxSlots = withGaps ns ∧ ns.Pairwise (· < ·) ∧
      (ns.length : ℤ) = (if pageCount ≤ maxSlots then pageCount else maxSlots - 2) ∧
      ∃ a b, 0 ≤ b ∧ (a = b ∨ a = b + 1) ∧ ∀ x, x ∈ ns ↔
        x = 1 ∨ x = pageCount ∨ x = page ∨ 1 < x ∧ x < pageCount ∧ page - a ≤ x ∧ x ≤ page + b := by
  rw [pageWindow]
  by_cases hall : pageCount ≤ maxSlots
  · rw [if_pos hall, if_pos hall]
    have hlen : ((upTo pageCount).length : ℤ) = pageCount := by
      rw [upTo, List.length_map, List.length_range]
      omega
    refine ⟨by rw [List.length_map, hlen]; exact hall, upTo pageCount, ?_, pairwise_upTo _, hlen, pageCount,
      pageCount, by omega, .inl rfl, fun x => ?_⟩
    · obtain ⟨n, hn⟩ : ∃ n : ℕ, pageCount.toNat = n + 1 := ⟨pageCount.toNat - 1, by omega⟩
      rw [upTo_eq, hn]
      rw [offsets_succ, withGaps, gapsAfter_range, List.map_cons]
    · rw [mem_upTo]
      omega
  · rw [if_neg hall, if_neg hall]
    have hstart : Filled page pageCount 0 0 (add (add [1] pageCount) page) := by
      refine ⟨nodup_add (nodup_add (List.nodup_singleton 1)), fun x => ?_⟩
      rw [mem_add, mem_add, List.mem_singleton]
      omega
    have hthree : ((add (add [1] pageCount) page).length : ℤ) ≤ maxSlots - 2 := by
      have h1 := length_add [1] pageCount
      have h2 := length_add (add [1] pageCount) page
      simp only [List.length_singleton] at h1
      omega
    obtain ⟨hle, a, b, hb, hab, hfilled, hend⟩ :=
      fill_spec (n := pageCount.toNat) hstart hpage (le_refl 0) hthree
    rw [← upTo_eq] at hle hfilled hend
    dsimp only
    generalize fill page pageCount (maxSlots - 2) (upTo pageCount) (add (add [1] pageCount) page) = slots
      at hle hfilled hend ⊢
    have hmem : ∀ x, x ∈ slots.insertionSort (· ≤ ·) ↔ x = 1 ∨ x = pageCount ∨ x = page ∨
        1 < x ∧ x < pageCount ∧ page - a ≤ x ∧ x ≤ page + b := by
      intro x
      rw [List.mem_insertionSort, hfilled.mem]
    have hsorted : (slots.insertionSort (· ≤ ·)).Pairwise (· < ·) := by
      have hnodup : (slots.insertionSort (· ≤ ·)).Nodup :=
        (List.perm_insertionSort _ _).nodup_iff.mpr hfilled.nodup
      have hpairs := List.pairwise_insertionSort (α := ℤ) (· ≤ ·) slots
      exact (hpairs.and hnodup).imp fun h => lt_of_le_of_ne h.1 h.2
    have hfull : (slots.length : ℤ) = maxSlots - 2 := by
      rcases hend with hfull | ⟨ha, hb'⟩
      · exact hfull
      · -- then every page would be there
        exfalso
        have hsub : upTo pageCount ⊆ slots := by
          intro x hx
          rw [mem_upTo] at hx
          rw [hfilled.mem]
          omega
        have hnodup : (upTo pageCount).Nodup := (pairwise_upTo pageCount).imp fun h => ne_of_lt h
        have hlen := (List.subperm_of_subset hnodup hsub).length_le
        rw [upTo, List.length_map, List.length_range] at hlen
        omega
    have hgaps := length_withGaps hsorted hmem (by omega) hpage
    rw [List.length_insertionSort] at hgaps
    refine ⟨by omega, _, rfl, hsorted, ?_, a, b, hb, hab, hmem⟩
    rw [List.length_insertionSort]
    exact hfull

theorem pageWindow_spec_sample :
    pageWindow 6 20 7 = [some 1, none, some 5, some 6, some 7, none, some 20] ∧
      ((pageWindow 6 20 7).length : ℤ) ≤ 7 :=
  ⟨by decide +kernel, (pageWindow_spec 6 20 7 (by decide) (by decide)).1⟩

end Numbers

end Console

end Labyrithm
