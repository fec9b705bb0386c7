import Labyrithm.Go.Errors
import Labyrithm.Go.Map
import Mathlib.Data.List.Induction

/-!
# The workspace between two cases

`workspaceGuard` of `backend/internal/runner/utils.go`, which puts the workspace back to what the compiler
left before each case of a batch, and what the program of a case can do to it.

The workspace is a directory of root's with the sticky bit; the files below it are kept by their paths, each
with its kind and its owner.  Permissions are left out, since the judge is root and the program's own files
are its own to write; so are times and links between names.  A write of the judge's does not run out of room.
`os.ReadDir` sorts by names, which matters only for the name in an error.

* `Tree` — the files by their paths, every one of them in a directory.
* `Guard`, `newWorkspaceGuard`, `Guard.restore` — the snapshot and what is made of it.
* `Move` — one change of the sandboxed program, where the sticky bit allows it.
* `runBatch` — the workspaces that the cases of a batch start in.
* **`restored_iff`** — when a workspace is put back to what it was, and when every case of a batch starts in
  that one.
* `flat_batch` — where the compiler has left nothing but regular files, no program can do anything about it.
-/

namespace Labyrithm

namespace Workspace

/-! ## Files -/

/-- Who a file belongs to: the judge, or the user of the sandbox. -/
inductive Owner
  | root
  | box
  deriving DecidableEq, Repr

inductive Kind
  | regular (content : List UInt8)
  | directory
  | symlink (target : String)
  | fifo
  | socket
  deriving DecidableEq, Repr

structure Node where
  kind : Kind
  owner : Owner
  deriving DecidableEq, Repr

/-- A path below the workspace, which is `[]` itself. -/
abbrev Path := List String

/-- There is a directory at a path. -/
def isDir (nodes : Go.Map Path Node) (p : Path) : Bool := p = [] || (nodes.get? p).any (·.kind = .directory)

/-- The files below a workspace. -/
structure Tree where
  nodes : Go.Map Path Node
  closed : ∀ p ∈ nodes.keys, p ≠ [] ∧ isDir nodes p.dropLast = true

namespace Tree

def node? (t : Tree) (p : Path) : Option Node := t.nodes.get? p

def kind? (t : Tree) (p : Path) : Option Kind := (t.node? p).map (·.kind)

/-- Two workspaces have the same paths, kinds and contents. -/
def Same (t t' : Tree) : Prop := ∀ p, t.kind? p = t'.kind? p

/-- The names in the workspace itself: `os.ReadDir`. -/
def names (t : Tree) : List String :=
  t.nodes.keys.filterMap fun
    | [name] => some name
    | _ => none

variable {t t' : Tree} {p q : Path} {name : String}

lemma mem_keys : p ∈ t.nodes.keys ↔ t.node? p ≠ none := by
  rw [node?, Go.Map.get?, Ne, AList.lookup_eq_none, not_not]
  rfl

lemma mem_names : name ∈ t.names ↔ t.node? [name] ≠ none := by
  rw [← mem_keys, names, List.mem_filterMap]
  constructor
  · rintro ⟨p, hp, hname⟩
    split at hname
    · obtain rfl := Option.some.inj hname
      exact hp
    · cases hname
  · exact fun h => ⟨[name], h, rfl⟩

@[simp] lemma node?_nil : t.node? [] = none := by
  by_contra h
  exact (t.closed [] (mem_keys.mpr h)).1 rfl

lemma isDir_iff : isDir t.nodes p = true ↔ p = [] ∨ t.kind? p = some .directory := by
  rw [isDir, Bool.or_eq_true, decide_eq_true_eq, kind?, node?]
  refine or_congr_right ?_
  cases t.nodes.get? p with
  | none => simp
  | some node => simp

/-- What is at a path has directories above it. -/
lemma isDir_above (hq : t.node? (p ++ q) ≠ none) (hne : q ≠ []) : isDir t.nodes p = true := by
  induction q using List.reverseRecOn with
  | nil => exact absurd rfl hne
  | append_singleton q name ih =>
      obtain ⟨-, hdir⟩ := t.closed _ (mem_keys.mpr hq)
      rw [← List.append_assoc, List.dropLast_concat] at hdir
      cases q with
      | nil => simpa using hdir
      | cons a q =>
          refine ih (fun hnone => ?_) (List.cons_ne_nil _ _)
          have hkind : t.kind? (p ++ a :: q) = none := by rw [kind?, hnone]; rfl
          rcases isDir_iff.mp hdir with hnil | hsome
          · simp at hnil
          · rw [hkind] at hsome
            cases hsome

/-- Nothing is below what is not a directory. -/
lemma below_none (h : t.kind? [name] ≠ some .directory) (hne : q ≠ []) : t.node? (name :: q) = none := by
  by_contra hsome
  have hdir := @isDir_above t [name] q hsome hne
  rcases isDir_iff.mp hdir with hnil | hdir
  · cases hnil
  · exact h hdir

/-- What is below a name has the name above it. -/
lemma node?_of_notMem_names (h : name ∉ t.names) (rest : Path) :
    t.node? (name :: rest) = none := by
  have hnone : t.node? [name] = none := by
    by_contra hsome
    exact h (mem_names.mpr hsome)
  cases rest with
  | nil => exact hnone
  | cons a rest =>
      refine below_none ?_ (List.cons_ne_nil a rest)
      rw [kind?, hnone]
      simp

/-! ### Two operations -/

lemma get?_filter (keep : Path → Bool) (nodes : Go.Map Path Node) (q : Path) :
    Go.Map.get? ⟨nodes.entries.filter fun e => keep e.1,
      List.NodupKeys.sublist List.filter_sublist nodes.nodupKeys⟩ q =
        if keep q then nodes.get? q else none := by
  ext node
  rw [← Go.Map.mem_entries, List.mem_filter, Go.Map.mem_entries]
  split_ifs with h <;> simp [h]

/-- What `closed` asks for, in terms of what is found at the paths. -/
lemma closed_of {nodes : Go.Map Path Node} (h : ∀ p, nodes.get? p ≠ none →
    p ≠ [] ∧ (p.dropLast = [] ∨ (nodes.get? p.dropLast).map (·.kind) = some .directory)) :
    ∀ p ∈ nodes.keys, p ≠ [] ∧ isDir nodes p.dropLast = true := by
  intro p hp
  have hsome : nodes.get? p ≠ none := by
    rw [Go.Map.get?, Ne, AList.lookup_eq_none, not_not]
    exact hp
  obtain ⟨hne, hdir⟩ := h p hsome
  refine ⟨hne, ?_⟩
  rw [isDir, Bool.or_eq_true, decide_eq_true_eq]
  refine hdir.imp_right fun hdir => ?_
  cases hnode : nodes.get? p.dropLast with
  | none => simp [hnode] at hdir
  | some node => simpa [hnode] using hdir

lemma dir_above (h : t.node? p ≠ none) :
    p ≠ [] ∧ (p.dropLast = [] ∨ t.kind? p.dropLast = some .directory) := by
  obtain ⟨hne, hdir⟩ := t.closed p (mem_keys.mpr h)
  exact ⟨hne, isDir_iff.mp hdir⟩

/-- `os.RemoveAll`: a path and all that is below it. -/
def removeAll (p : Path) (t : Tree) : Tree where
  nodes :=
    { entries := t.nodes.entries.filter fun e => !p.isPrefixOf e.1
      nodupKeys := List.NodupKeys.sublist List.filter_sublist t.nodes.nodupKeys }
  closed := by
    refine closed_of fun q hq => ?_
    rw [get?_filter (fun q => !p.isPrefixOf q)] at hq ⊢
    split_ifs at hq with hkeep
    · obtain ⟨hne, hdir⟩ := dir_above hq
      have hkeep' : (!p.isPrefixOf q.dropLast) = true := by
        rw [Bool.not_eq_true', ← Bool.not_eq_true, List.isPrefixOf_iff_prefix] at hkeep ⊢
        exact fun hpq => hkeep (hpq.trans q.dropLast_prefix)
      rw [if_pos hkeep']
      exact ⟨hne, hdir⟩
    · exact absurd rfl hq

lemma node?_removeAll : (t.removeAll p).node? q = if p <+: q then none else t.node? q := by
  refine (get?_filter (fun q => !p.isPrefixOf q) t.nodes q).trans ?_
  simp only [Bool.not_eq_true', ← Bool.not_eq_true, List.isPrefixOf_iff_prefix]
  split_ifs <;> rfl

/-- What may be put at a path: there is a directory above, and no directory in its place. -/
def Free (t : Tree) (p : Path) : Prop :=
  p ≠ [] ∧ isDir t.nodes p.dropLast = true ∧ t.kind? p ≠ some .directory

instance : Decidable (t.Free p) := inferInstanceAs (Decidable (_ ∧ _ ∧ _))

/-- A file is put at a path. -/
def put (p : Path) (node : Node) (t : Tree) (h : t.Free p) : Tree where
  nodes := t.nodes.insert p node
  closed := by
    obtain ⟨hp, habove, hfree⟩ := h
    refine closed_of fun q hq => ?_
    rw [Go.Map.get?_insert] at hq
    by_cases heq : q = p
    · subst heq
      have hne : q.dropLast ≠ q := by
        intro hsame
        have hlength := congrArg List.length hsame
        have hpos := List.length_pos_iff.mpr hp
        rw [List.length_dropLast] at hlength
        omega
      rw [Go.Map.get?_insert, if_neg hne]
      exact ⟨hp, isDir_iff.mp habove⟩
    · rw [if_neg heq] at hq
      obtain ⟨hne, hdir⟩ := dir_above hq
      refine ⟨hne, hdir.imp_right fun hdir => ?_⟩
      -- it would be a directory that is written over
      have hother : q.dropLast ≠ p := fun hsame => hfree (hsame ▸ hdir)
      rw [Go.Map.get?_insert, if_neg hother]
      exact hdir

lemma node?_put {node : Node} (h : t.Free p) :
    (t.put p node h).node? q = if q = p then some node else t.node? q :=
  Go.Map.get?_insert

/-- What is there stays when something is put where nothing was. -/
lemma node?_put_of_none {node : Node} (h : t.Free p) (hnone : t.node? p = none) (hq : t.node? q ≠ none) :
    (t.put p node h).node? q = t.node? q := by
  rw [node?_put, if_neg]
  rintro rfl
  exact hq hnone

end Tree

/-! ## The guard -/

/-- What `restore` fails with, by the name of the file. -/
inductive Err
  | clearing (name : String)
  | creating (name : String)
  deriving DecidableEq, Repr

namespace Tree

/-- There is something below a path. -/
def full (t : Tree) (p : Path) : Bool := t.nodes.keys.any fun q => p.isPrefixOf q && q ≠ p

/-- `clearSandboxFile`: `os.Remove` takes a directory only if there is nothing in it, and it is no error if
there is nothing to remove. -/
def clearSandboxFile (name : String) (t : Tree) : Except Err Tree :=
  if t.full [name] then .error (.clearing name) else .ok (t.removeAll [name])

/-- `copyRegularFile`, which does not write over anything; the copy is root's. -/
def copyRegularFile (content : List UInt8) (name : String) (t : Tree) : Except Err Tree :=
  if h : t.Free [name] ∧ t.node? [name] = none then .ok (t.put [name] ⟨.regular content, .root⟩ h.1)
  else .error (.creating name)

end Tree

/-- `workspaceGuard`: the names that were there, and the copies in the `pristine` directory. -/
structure Guard where
  expected : List String
  pristine : List (String × List UInt8)

/-- The content of a regular file that is not to stay in place. -/
def saved? (keepInPlace : List String) (t : Tree) (name : String) : Option (List UInt8) :=
  if name ∈ keepInPlace then none
  else
    match t.kind? [name] with
    | some (.regular content) => some content
    | _ => none

/-- `newWorkspaceGuard`. -/
def newWorkspaceGuard (keepInPlace : List String) (t : Tree) : Guard where
  expected := t.names
  pristine := t.names.filterMap fun name => (saved? keepInPlace t name).map fun content => (name, content)

namespace Guard

/-- The loop of `restore` over what it finds. -/
def clearUnexpected (g : Guard) (t : Tree) : Tree :=
  t.names.foldl (fun t name => if name ∈ g.expected then t else t.removeAll [name]) t

/-- One round of the loop over the copies. -/
def putFile (t : Tree) (file : String × List UInt8) : Except Err Tree := do
  let t ← t.clearSandboxFile file.1
  t.copyRegularFile file.2 file.1

def restore (g : Guard) (t : Tree) : Except Err Tree := g.pristine.foldlM putFile (g.clearUnexpected t)

end Guard

/-! ## The sandboxed program -/

/-- The program may change what is in the workspace itself, and in its own directories. -/
def Tree.writable (t : Tree) (dir : Path) : Bool := dir = [] || t.node? dir = some ⟨.directory, .box⟩

/-- One change that the sandboxed program makes.  To rename comes to the same as several of these. -/
inductive Move
  | create (p : Path) (kind : Kind)
  | write (p : Path) (content : List UInt8)
  | remove (p : Path)
  | link (p q : Path)

/-- A change, where it is allowed: the sticky bit keeps the files of others in the workspace itself. -/
def Move.apply (t : Tree) : Move → Option Tree
  | create p kind =>
      if h : t.Free p ∧ t.node? p = none ∧ t.writable p.dropLast then
        some (t.put p ⟨kind, .box⟩ h.1)
      else none
  | write p content =>
      if h : t.Free p ∧ (t.node? p).any fun node => node.owner = .box && node.kind matches .regular _ then
        some (t.put p ⟨.regular content, .box⟩ h.1)
      else none
  | remove p =>
      if t.writable p.dropLast ∧ ¬ t.full p ∧
          (t.node? p).any fun node => node.owner = .box || p.dropLast ≠ [] then
        some (t.removeAll p)
      else none
  | link p q =>
      match t.node? p with
      | some ⟨.regular content, owner⟩ =>
          if h : t.Free q ∧ t.node? q = none ∧ t.writable q.dropLast then
            some (t.put q ⟨.regular content, owner⟩ h.1)
          else none
      | _ => none

/-- A program, one change after the other; what is not allowed changes nothing. -/
def play (moves : List Move) (t : Tree) : Tree := moves.foldl (fun t move => (move.apply t).getD t) t

/-! ## What `restore` does -/

namespace Tree

variable {t t' : Tree} {p : Path} {name a : String} {rest : Path}

lemma full_iff : t.full p = true ↔ ∃ q, p <+: q ∧ q ≠ p ∧ t.node? q ≠ none := by
  simp only [full, List.any_eq_true, Bool.and_eq_true, List.isPrefixOf_iff_prefix, decide_eq_true_eq,
    mem_keys]
  constructor
  · rintro ⟨q, hq, hpq, hne⟩
    exact ⟨q, hpq, hne, hq⟩
  · rintro ⟨q, hpq, hne, hq⟩
    exact ⟨q, hq, hpq, hne⟩

/-- In the workspace itself, that is the paths of more than one name. -/
lemma full_eq_false : t.full [name] = false ↔ ∀ rest, rest ≠ [] → t.node? (name :: rest) = none := by
  rw [← Bool.not_eq_true, full_iff]
  constructor
  · intro h rest hne
    by_contra hsome
    exact h ⟨name :: rest, by simp, by simpa using hne, hsome⟩
  · rintro h ⟨q, ⟨rest, rfl⟩, hne, hsome⟩
    exact hsome (h rest (by simpa using hne))

lemma node?_removeAll_cons :
    (t.removeAll [name]).node? (a :: rest) = if a = name then none else t.node? (a :: rest) := by
  rw [node?_removeAll]
  simp [List.cons_prefix_cons, eq_comm]

end Tree

namespace Guard

variable {t t' : Tree} {file : String × List UInt8}

/-- A file is cleared and copied if nothing is below it. -/
lemma putFile_ok (h : t.full [file.1] = false) :
    ∃ t', putFile t file = .ok t' ∧ ∀ a rest, t'.node? (a :: rest) = if a = file.1 then
      (if rest = [] then some ⟨.regular file.2, .root⟩ else none) else t.node? (a :: rest) := by
  have hnone : (t.removeAll [file.1]).node? [file.1] = none := by
    rw [Tree.node?_removeAll_cons, if_pos rfl]
  have hfree : (t.removeAll [file.1]).Free [file.1] := by
    refine ⟨List.cons_ne_nil _ _, rfl, ?_⟩
    rw [Tree.kind?, hnone]
    simp
  have hclear : t.clearSandboxFile file.1 = .ok (t.removeAll [file.1]) := by
    rw [Tree.clearSandboxFile, h, if_neg Bool.false_ne_true]
  refine ⟨(t.removeAll [file.1]).put [file.1] ⟨.regular file.2, .root⟩ hfree, ?_, fun a rest => ?_⟩
  · rw [putFile, hclear]
    exact dif_pos ⟨hfree, hnone⟩
  · rw [Tree.node?_put, Tree.node?_removeAll_cons]
    by_cases ha : a = file.1
    · simp [ha]
    · simp [ha]

lemma putFile_full (h : t.full [file.1] = true) : putFile t file = .error (.clearing file.1) := by
  rw [putFile, Tree.clearSandboxFile, if_pos h]
  rfl

/-- The copies are put back if nothing is below any of them, and nothing else changes. -/
lemma foldlM_putFile_ok {content : String → Option (List UInt8)} {saved : List (String × List UInt8)}
    (hsaved : ∀ e ∈ saved, content e.1 = some e.2) (h : ∀ e ∈ saved, t.full [e.1] = false) :
    ∃ t', saved.foldlM putFile t = .ok t' ∧ ∀ name rest, t'.node? (name :: rest) =
      if name ∈ saved.map Prod.fst then
        (if rest = [] then (content name).map fun c => ⟨.regular c, .root⟩ else none)
      else t.node? (name :: rest) := by
  induction saved generalizing t with
  | nil => exact ⟨t, rfl, fun name rest => by simp⟩
  | cons file saved ih =>
      obtain ⟨t₁, hone, hnode⟩ := putFile_ok (h _ List.mem_cons_self)
      have hclear : ∀ e ∈ saved, t₁.full [e.1] = false := by
        intro e he
        have hfull := Tree.full_eq_false.mp (h e (List.mem_cons_of_mem _ he))
        refine Tree.full_eq_false.mpr fun rest hne => ?_
        rw [hnode, if_neg hne, hfull rest hne, ite_self]
      obtain ⟨t', hrest, hnode'⟩ := ih (fun e he => hsaved e (List.mem_cons_of_mem _ he)) hclear
      refine ⟨t', ?_, fun a rest => ?_⟩
      · rw [List.foldlM_cons, hone]
        exact hrest
      · have hc := hsaved file List.mem_cons_self
        rw [hnode', hnode]
        by_cases ha : a = file.1
        · simp [ha, hc]
        · simp only [List.map_cons, List.mem_cons, ha, false_or, if_false]

/-- They are not if something is. -/
lemma foldlM_putFile_full {saved : List (String × List UInt8)} (h : ∃ e ∈ saved, t.full [e.1] = true) :
    ∀ t', saved.foldlM putFile t ≠ .ok t' := by
  induction saved generalizing t with
  | nil => simp at h
  | cons file saved ih =>
      intro t'
      rw [List.foldlM_cons]
      cases hfile : t.full [file.1] with
      | true =>
          rw [putFile_full hfile]
          exact fun h => by cases h
      | false =>
          obtain ⟨t₁, hone, hnode⟩ := putFile_ok hfile
          rw [hone]
          refine ih ?_ t'
          obtain ⟨e, he, hfull⟩ := h
          have hne : e.1 ≠ file.1 := by
            rintro heq
            rw [heq, hfile] at hfull
            cases hfull
          rcases List.mem_cons.mp he with rfl | he
          · exact absurd rfl hne
          · refine ⟨e, he, ?_⟩
            rw [← hfull, Bool.eq_iff_iff, ← Bool.not_eq_false, ← Bool.not_eq_false, Tree.full_eq_false,
              Tree.full_eq_false]
            refine not_congr (forall₂_congr fun rest _ => ?_)
            rw [hnode, if_neg hne]

lemma node?_foldl_clear (g : Guard) (names : List String) (name : String) (rest : Path) :
    (names.foldl (fun t name => if name ∈ g.expected then t else t.removeAll [name]) t).node?
        (name :: rest) = if name ∈ names ∧ name ∉ g.expected then none else t.node? (name :: rest) := by
  induction names generalizing t with
  | nil => simp
  | cons a names ih =>
      rw [List.foldl_cons, ih]
      by_cases ha : a ∈ g.expected
      · rw [if_pos ha]
        by_cases hname : name = a
        · simp [hname, ha]
        · simp [hname]
      · rw [if_neg ha, Tree.node?_removeAll_cons]
        by_cases hname : name = a
        · simp [hname, ha]
        · simp [hname]

/-- What was not there is gone. -/
lemma node?_clearUnexpected (g : Guard) (name : String) (rest : Path) :
    (g.clearUnexpected t).node? (name :: rest) =
      if name ∈ g.expected then t.node? (name :: rest) else none := by
  rw [clearUnexpected, node?_foldl_clear]
  by_cases hname : name ∈ g.expected
  · simp [hname]
  · by_cases hmem : name ∈ t.names
    · simp [hname, hmem]
    · simp [hname, hmem, Tree.node?_of_notMem_names hmem]

end Guard

/-! ## When a workspace is put back -/

/-- What a workspace needs so that it can be put back to what was recorded: no directory with something in
it is where a saved file was, and what was not saved is as it was. -/
structure Restorable (keepInPlace : List String) (recorded t : Tree) : Prop where
  clear : ∀ name ∈ recorded.names, (saved? keepInPlace recorded name).isSome → t.full [name] = false
  kept : ∀ name ∈ recorded.names, saved? keepInPlace recorded name = none →
    ∀ rest, t.kind? (name :: rest) = recorded.kind? (name :: rest)

section Restore

variable {keepInPlace : List String} {recorded t t' : Tree} {name : String}

@[simp] lemma newWorkspaceGuard_expected :
    (newWorkspaceGuard keepInPlace recorded).expected = recorded.names := rfl

lemma saved?_eq_some {content : List UInt8} (h : saved? keepInPlace recorded name = some content) :
    recorded.kind? [name] = some (.regular content) := by
  unfold saved? at h
  split_ifs at h
  split at h
  · rename_i hkind
    rw [hkind, Option.some.inj h]
  · cases h

lemma mem_names_of_saved (h : (saved? keepInPlace recorded name).isSome) : name ∈ recorded.names := by
  obtain ⟨content, hcontent⟩ := Option.isSome_iff_exists.mp h
  have hkind := saved?_eq_some hcontent
  refine Tree.mem_names.mpr fun hnone => ?_
  rw [Tree.kind?, hnone] at hkind
  cases hkind

lemma mem_pristine {e : String × List UInt8} : e ∈ (newWorkspaceGuard keepInPlace recorded).pristine ↔
    saved? keepInPlace recorded e.1 = some e.2 := by
  simp only [newWorkspaceGuard, List.mem_filterMap, Option.map_eq_some_iff]
  constructor
  · rintro ⟨name, -, content, hcontent, rfl⟩
    exact hcontent
  · intro h
    exact ⟨e.1, mem_names_of_saved (by rw [h]; rfl), e.2, h, rfl⟩

lemma mem_pristine_names : name ∈ (newWorkspaceGuard keepInPlace recorded).pristine.map Prod.fst ↔
    (saved? keepInPlace recorded name).isSome := by
  rw [List.mem_map, Option.isSome_iff_exists]
  constructor
  · rintro ⟨e, he, rfl⟩
    exact ⟨e.2, mem_pristine.mp he⟩
  · rintro ⟨content, h⟩
    exact ⟨(name, content), mem_pristine.mpr h, rfl⟩

lemma full_clearUnexpected (h : name ∈ recorded.names) :
    ((newWorkspaceGuard keepInPlace recorded).clearUnexpected t).full [name] = t.full [name] := by
  rw [Bool.eq_iff_iff, ← Bool.not_eq_false, ← Bool.not_eq_false, Tree.full_eq_false, Tree.full_eq_false]
  refine not_congr (forall₂_congr fun rest _ => ?_)
  rw [Guard.node?_clearUnexpected, newWorkspaceGuard_expected, if_pos h]

/-- What `restore` makes of a workspace, where no directory is in its way. -/
lemma restore_ok (h : ∀ name, (saved? keepInPlace recorded name).isSome → t.full [name] = false) :
    ∃ t', (newWorkspaceGuard keepInPlace recorded).restore t = .ok t' ∧
      ∀ name rest, t'.node? (name :: rest) =
        match saved? keepInPlace recorded name with
        | some content => if rest = [] then some ⟨.regular content, .root⟩ else none
        | none => if name ∈ recorded.names then t.node? (name :: rest) else none := by
  set g := newWorkspaceGuard keepInPlace recorded
  have hclear : ∀ e ∈ g.pristine, (g.clearUnexpected t).full [e.1] = false := by
    intro e he
    have hsaved : (saved? keepInPlace recorded e.1).isSome := by rw [mem_pristine.mp he]; rfl
    rw [full_clearUnexpected (mem_names_of_saved hsaved)]
    exact h e.1 hsaved
  obtain ⟨t', hok, hnode⟩ := Guard.foldlM_putFile_ok (fun e he => mem_pristine.mp he) hclear
  refine ⟨t', hok, fun name rest => ?_⟩
  rw [hnode, Guard.node?_clearUnexpected]
  have hmem : name ∈ g.pristine.map Prod.fst ↔ (saved? keepInPlace recorded name).isSome :=
    mem_pristine_names
  cases hsaved : saved? keepInPlace recorded name with
  | some content =>
      rw [hsaved] at hmem
      rw [if_pos (hmem.mpr rfl)]
      rfl
  | none =>
      rw [hsaved] at hmem
      rw [if_neg fun hm => Bool.false_ne_true (hmem.mp hm)]
      rfl

/-- `restore` fails where one is. -/
lemma restore_full (hsaved : (saved? keepInPlace recorded name).isSome) (h : t.full [name] = true) :
    (newWorkspaceGuard keepInPlace recorded).restore t ≠ .ok t' := by
  obtain ⟨content, hcontent⟩ := Option.isSome_iff_exists.mp hsaved
  refine Guard.foldlM_putFile_full ⟨(name, content), mem_pristine.mpr hcontent, ?_⟩ t'
  rw [full_clearUnexpected (mem_names_of_saved hsaved)]
  exact h

/-- When `restore` succeeds and leaves what was recorded. -/
lemma restore_same_iff : (∃ t', (newWorkspaceGuard keepInPlace recorded).restore t = .ok t' ∧
    t'.Same recorded) ↔ Restorable keepInPlace recorded t := by
  constructor
  · rintro ⟨t', hok, hsame⟩
    have hclear : ∀ name, (saved? keepInPlace recorded name).isSome → t.full [name] = false := by
      intro name hsaved
      rw [← Bool.not_eq_true]
      exact fun hfull => restore_full hsaved hfull hok
    obtain ⟨t'', hok', hnode⟩ := restore_ok hclear
    obtain rfl : t'' = t' := Except.ok.inj (hok'.symm.trans hok)
    refine ⟨fun name _ => hclear name, fun name hname hsaved rest => ?_⟩
    rw [← hsame, Tree.kind?, Tree.kind?, hnode, hsaved]
    simp [hname]
  · intro h
    obtain ⟨t', hok, hnode⟩ :=
      restore_ok fun name hsaved => h.clear name (mem_names_of_saved hsaved) hsaved
    refine ⟨t', hok, fun p => ?_⟩
    cases p with
    | nil => simp [Tree.kind?]
    | cons name rest =>
        rw [Tree.kind?, hnode]
        cases hsaved : saved? keepInPlace recorded name with
        | some content =>
            have hkind := saved?_eq_some hsaved
            cases rest with
            | nil => exact hkind.symm
            | cons a rest =>
                have hbelow := @Tree.below_none recorded (a :: rest) name (by rw [hkind]; simp)
                  (List.cons_ne_nil a rest)
                simp [Tree.kind?, hbelow]
        | none =>
            by_cases hname : name ∈ recorded.names
            · rw [← h.kept name hname hsaved rest]
              simp [hname, Tree.kind?]
            · simp [hname, Tree.kind?, Tree.node?_of_notMem_names hname]

end Restore

/-! ## The cases of a batch -/

/-- The workspaces that the cases of a batch start in; `run` is whatever a case makes of its own. -/
def runBatch (g : Guard) : List (Tree → Tree) → Tree → Except Err (List Tree)
  | [], _ => .ok []
  | run :: cases, t => do
      let start ← g.restore t
      let starts ← runBatch g cases (run start)
      return start :: starts

/-- Whatever is there when a case is to begin can be put back. -/
def BatchRestorable (keepInPlace : List String) (recorded : Tree) : List (Tree → Tree) → Tree → Prop
  | [], _ => True
  | run :: cases, t => Restorable keepInPlace recorded t ∧
      ∀ start, (newWorkspaceGuard keepInPlace recorded).restore t = .ok start →
        BatchRestorable keepInPlace recorded cases (run start)

section Batch

variable {keepInPlace : List String} {recorded t : Tree}

lemma runBatch_same_iff {cases : List (Tree → Tree)} :
    (∃ starts, runBatch (newWorkspaceGuard keepInPlace recorded) cases t = .ok starts ∧
      ∀ start ∈ starts, start.Same recorded) ↔ BatchRestorable keepInPlace recorded cases t := by
  induction cases generalizing t with
  | nil => exact iff_of_true ⟨[], rfl, by simp⟩ trivial
  | cons run cases ih =>
      rw [BatchRestorable, ← restore_same_iff, runBatch]
      constructor
      · rintro ⟨starts, hok, hsame⟩
        cases hstart : (newWorkspaceGuard keepInPlace recorded).restore t with
        | error err =>
            rw [hstart] at hok
            cases hok
        | ok start =>
            rw [hstart] at hok
            cases hlater : runBatch (newWorkspaceGuard keepInPlace recorded) cases (run start) with
            | error err =>
                simp only [bind, Except.bind, hlater] at hok
                cases hok
            | ok later =>
                simp only [bind, Except.bind, hlater] at hok
                obtain rfl : start :: later = starts := Except.ok.inj hok
                refine ⟨⟨start, rfl, hsame start List.mem_cons_self⟩, fun start' hstart' => ?_⟩
                obtain rfl := Except.ok.inj hstart'
                exact ih.mp ⟨later, hlater, fun s hs => hsame s (List.mem_cons_of_mem _ hs)⟩
      · rintro ⟨⟨start, hstart, hsame⟩, hrest⟩
        obtain ⟨later, hlater, hsames⟩ := ih.mpr (hrest start hstart)
        refine ⟨start :: later, ?_, ?_⟩
        · rw [hstart]
          simp only [bind, Except.bind, hlater]
          rfl
        · intro s hs
          rcases List.mem_cons.mp hs with rfl | hs
          · exact hsame
          · exact hsames s hs

end Batch

/-- `restore` succeeds and leaves what was recorded if and only if no directory with something in it is in
the place of a saved file and all that was not saved is as it was; so every case of a batch starts in what
was recorded if and only if that holds of what each case finds. -/
theorem restored_iff (keepInPlace : List String) (recorded t : Tree) :
    ((∃ t', (newWorkspaceGuard keepInPlace recorded).restore t = .ok t' ∧ t'.Same recorded) ↔
      Restorable keepInPlace recorded t) ∧
    ∀ cases : List (Tree → Tree),
      (∃ starts, runBatch (newWorkspaceGuard keepInPlace recorded) cases t = .ok starts ∧
        ∀ start ∈ starts, start.Same recorded) ↔ BatchRestorable keepInPlace recorded cases t :=
  ⟨restore_same_iff, fun _ => runBatch_same_iff⟩

/-- The files as they are made: the source by root, and what the compiler leaves by the box user. -/
def sampleCompiled (left : List Move) : Tree :=
  play (.create ["main"] (.regular [1]) :: left)
    (Tree.put ["main.c"] ⟨.regular [0], .root⟩ ⟨∅, by simp⟩ (by decide))

/-- A program puts a directory with a file in the place of the executable, and `restore` fails; another one
keeps its answer in a directory that the compiler has left, and the next case finds it there. -/
theorem restored_broken :
    ((newWorkspaceGuard [] (sampleCompiled [])).restore
      (play [.remove ["main"], .create ["main"] .directory, .create ["main", "x"] (.regular [])]
        (sampleCompiled []))).map Tree.names = .error (.clearing "main") ∧
    (runBatch (newWorkspaceGuard [] (sampleCompiled [.create ["out"] .directory]))
      [play [.create ["out", "answer"] (.regular [42])], id]
      (sampleCompiled [.create ["out"] .directory])).map (·.map fun t => t.kind? ["out", "answer"]) =
        .ok [none, some (.regular [42])] := by
  decide +kernel

/-! ## Nothing but regular files -/

section Flat

variable {recorded t t' : Tree} {name : String} {content : List UInt8}

/-- The compiler has left nothing but regular files. -/
def Flat (recorded : Tree) : Prop := ∀ name ∈ recorded.names, (saved? [] recorded name).isSome

lemma Flat.restorable (h : Flat recorded)
    (hregular : ∀ name content, saved? [] recorded name = some content →
      t.kind? [name] = some (.regular content)) : Restorable [] recorded t where
  clear name _ hsaved := by
    obtain ⟨content, hcontent⟩ := Option.isSome_iff_exists.mp hsaved
    refine Tree.full_eq_false.mpr fun rest hne => Tree.below_none ?_ hne
    rw [hregular name content hcontent]
    simp
  kept name hname hnone := by
    have hsaved := h name hname
    rw [hnone] at hsaved
    cases hsaved

/-- The program does nothing to a file of root's in the workspace itself. -/
lemma Move.apply_root {move : Move} (hmove : move.apply t = some t')
    (h : t.node? [name] = some ⟨.regular content, .root⟩) :
    t'.node? [name] = some ⟨.regular content, .root⟩ := by
  cases move with
  | create p kind =>
      simp only [apply, Option.dite_none_right_eq_some, Option.some.injEq] at hmove
      obtain ⟨⟨hfree, hnone, -⟩, rfl⟩ := hmove
      rw [Tree.node?_put_of_none hfree hnone (by simp [h]), h]
  | write p content' =>
      simp only [apply, Option.dite_none_right_eq_some, Option.some.injEq] at hmove
      obtain ⟨⟨-, hown⟩, rfl⟩ := hmove
      rw [Tree.node?_put, if_neg, h]
      rintro rfl
      simp [h] at hown
  | remove p =>
      simp only [apply, Option.ite_none_right_eq_some, Option.some.injEq] at hmove
      obtain ⟨⟨-, -, hown⟩, rfl⟩ := hmove
      rw [Tree.node?_removeAll, if_neg, h]
      intro hpq
      cases p with
      | nil => simp at hown
      | cons a p =>
          obtain ⟨rfl, hp⟩ := List.cons_prefix_cons.mp hpq
          obtain rfl := List.prefix_nil.mp hp
          simp [h] at hown
  | link p q =>
      simp only [apply] at hmove
      split at hmove
      · simp only [Option.dite_none_right_eq_some, Option.some.injEq] at hmove
        obtain ⟨⟨hfree, hnone, -⟩, rfl⟩ := hmove
        rw [Tree.node?_put_of_none hfree hnone (by simp [h]), h]
      · cases hmove

lemma play_root (moves : List Move) (h : t.node? [name] = some ⟨.regular content, .root⟩) :
    (play moves t).node? [name] = some ⟨.regular content, .root⟩ := by
  induction moves generalizing t with
  | nil => exact h
  | cons move moves ih =>
      refine ih ?_
      dsimp only
      cases hmove : move.apply t with
      | none => exact h
      | some t' => exact Move.apply_root hmove h

lemma Flat.batchRestorable (h : Flat recorded) (programs : List (List Move))
    (ht : Restorable [] recorded t) : BatchRestorable [] recorded (programs.map play) t := by
  induction programs generalizing t with
  | nil => trivial
  | cons moves programs ih =>
      refine ⟨ht, fun start hstart => ih (h.restorable fun name content hsaved => ?_)⟩
      -- the saved files are root's from here on
      obtain ⟨t', hok, hnode⟩ := restore_ok fun name hs => ht.clear name (mem_names_of_saved hs) hs
      obtain rfl := Except.ok.inj (hok.symm.trans hstart)
      have hroot := hnode name []
      rw [hsaved] at hroot
      rw [Tree.kind?, play_root moves hroot]
      rfl

/-- Where the compiler has left nothing but regular files, every case of a batch starts with just these,
whatever the programs do: the files are copied before the first case, and from then on they are root's.
(The input of a case, which the judge puts there and clears, has a name of its own and is left out.) -/
theorem flat_batch (h : Flat recorded) (programs : List (List Move)) :
    ∃ starts, runBatch (newWorkspaceGuard [] recorded) (programs.map play) recorded = .ok starts ∧
      ∀ start ∈ starts, start.Same recorded :=
  runBatch_same_iff.mpr (h.batchRestorable programs (h.restorable fun _ _ => saved?_eq_some))

end Flat

end Workspace

end Labyrithm
