import Labyrithm.Account.Sessions

/-!
# One session at a time

A login of an account that is no administrator's deletes the sessions of the account before it inserts its
own, in one transaction.  The `DELETE` sees what is committed when it starts, and nothing in the table or
in a lock keeps a second login of the account from doing the same at the same time.

* `Alone` — a login of such an account commits while no other login of the account is in progress.
* `Single` — no such account has two sessions.
* **`single_kept`** — in every run whose commits are made so, no account but an administrator's ever has
  two sessions, whatever else is deleted at the same time.
* `single_broken` — two logins of one account at once, with no session before them and with one.
-/

namespace Labyrithm

namespace Sessions

open Sql Tx
open Account (Session)

/-! ## What a write does -/

/-- The sessions of an account, with their tokens. -/
def sessionsOf (userID : String) (σ : Stored) : List (String × Session) :=
  σ.rows.filter fun row => row.2.userID = userID

@[simp] lemma mem_sessionsOf {userID : String} {σ : Stored} {row : String × Session} :
    row ∈ sessionsOf userID σ ↔ σ.lookup row.1 = some row.2 ∧ row.2.userID = userID := by
  simp [sessionsOf, ← Table.mem_rows]

/-- The account that gets a session. -/
def RowWrite.gives : RowWrite → Option String
  | delete _ => none
  | insert _ session => some session.userID

section Writes

variable {w : RowWrite} {ws : List RowWrite} {σ : Stored} {userID : String}

/-- An account that gets none has no session that it did not have. -/
lemma sessionsOf_apply (h : w.gives ≠ some userID) :
    (sessionsOf userID (w.apply σ)).Sublist (sessionsOf userID σ) := by
  cases w with
  | delete token =>
      refine List.Sublist.filter _ ?_
      exact (List.kerase_sublist token σ.entries).map _
  | insert token session =>
      simp only [RowWrite.apply]
      split_ifs with hfree
      · have hother : session.userID ≠ userID := fun heq => h (congrArg some heq)
        have hrows : sessionsOf userID (σ.insert token session) =
            ((List.kerase token σ.entries).map fun e => (e.1, e.2)).filter
              fun row => row.2.userID = userID := by
          simp [sessionsOf, Table.rows, AList.entries_insert, hother]
        rw [hrows]
        exact ((List.kerase_sublist token σ.entries).map _).filter _
      · exact List.Sublist.refl _

lemma sessionsOf_view (h : ∀ w ∈ ws, w.gives ≠ some userID) :
    (sessionsOf userID (view ws σ)).Sublist (sessionsOf userID σ) := by
  refine view_keeps (P := fun s : Stored => (sessionsOf userID s).Sublist (sessionsOf userID σ)) ?_
    (List.Sublist.refl _)
  intro w hw s hs
  exact (sessionsOf_apply (h w hw)).trans hs

/-- The writes of a transaction that only deletes. -/
def Deletes (ws : List RowWrite) : Prop := ∀ w ∈ ws, w.gives = none

lemma Deletes.append (h : Deletes ws) (token : String) : Deletes (ws ++ [.delete token]) := by
  intro w hw
  rcases List.mem_append.mp hw with hw | hw
  · exact h w hw
  · obtain rfl := List.mem_singleton.mp hw
    rfl

/-- A row that they do not delete is as it was. -/
lemma Deletes.lookup_of_not_mem (h : Deletes ws) {token : String} (hnot : RowWrite.delete token ∉ ws) :
    (view ws σ).lookup token = σ.lookup token := by
  refine view_untouched (fun s : Stored => s.lookup token) ws σ ?_
  intro w hw s
  cases w with
  | delete t =>
      have hne : token ≠ t := by
        rintro rfl
        exact hnot hw
      exact AList.lookup_erase_ne hne
  | insert t session => cases h _ hw

/-- A row that they delete is gone. -/
lemma Deletes.lookup_of_mem (h : Deletes ws) {token : String} (hmem : RowWrite.delete token ∈ ws) :
    (view ws σ).lookup token = none := by
  obtain ⟨before, after, rfl⟩ := List.append_of_mem hmem
  have hview : view (before ++ RowWrite.delete token :: after) σ =
      view after ((view before σ).erase token) := by
    simp [view, List.foldl_append, Store.apply, RowWrite.apply]
  rw [hview]
  refine view_keeps (P := fun s : Stored => s.lookup token = none) ?_ (AList.lookup_erase _ _)
  intro w hw s hs
  cases w with
  | delete t =>
      show (s.erase t).lookup token = none
      rw [Table.lookup_erase_eq, hs]
      split_ifs <;> rfl
  | insert t session => cases h (.insert t session) (by simp [hw])

end Writes

/-! ## The agreement -/

variable (isAdmin : String → Bool)

/-- The account whose sessions a call deletes before it inserts one. -/
def Op.revokes : Op → Option String
  | login _ userID _ => if isAdmin userID then none else some userID
  | logout .. | delete _ | deleteByUser _ | deleteByUsers _ | deleteByUserExcept .. | deleteExpired _ => none

/-- No account but an administrator's has two sessions. -/
def Single (σ : Stored) : Prop :=
  ∀ userID, isAdmin userID = false → (sessionsOf userID σ).length ≤ 1

/-- While a login is in progress its account gets no session from elsewhere. -/
def Needs (op : Op) (σ σ' : Stored) : Prop :=
  ∀ userID ∈ op.revokes isAdmin, sessionsOf userID σ' ⊆ sessionsOf userID σ

/-- No other login of the account is in progress. -/
def Alone (op : Op) (others : List (Op × List String)) : Prop :=
  ∀ userID ∈ op.revokes isAdmin, ∀ o ∈ others, o.1.revokes isAdmin ≠ some userID

instance (op : Op) (others : List (Op × List String)) : Decidable (Alone isAdmin op others) :=
  inferInstanceAs (Decidable (∀ userID ∈ op.revokes isAdmin, ∀ o ∈ others, _ ≠ _))

/-- What the calls agree on. -/
def accord : Accord Op Stored RowWrite String where
  inv := Single isAdmin
  needs op _ := Needs isAdmin op
  needs_refl _ _ _ _ _ := List.Subset.refl _
  needs_trans _ _ _ _ _ h h' userID hu := List.Subset.trans (h' userID hu) (h userID hu)
  guard op _ others _ := Alone isAdmin op others
  rel _ _ _ := True

/-- Only logins of accounts that are no administrator's delete sessions first. -/
lemma not_admin_of_revokes {isAdmin : String → Bool} {op : Op} {userID : String}
    (h : userID ∈ op.revokes isAdmin) : isAdmin userID = false := by
  cases op with
  | login token id expiresAt =>
      simp only [Op.revokes] at h
      split_ifs at h with hadmin
      · cases h
      · obtain rfl := Option.some.inj h
        simpa using hadmin
  | logout | delete | deleteByUser | deleteByUsers | deleteByUserExcept | deleteExpired => cases h

section Commits

variable {isAdmin} {op : Op} {H : List String} {ws : List RowWrite} {c : Stored}

/-- A commit that gives no session to an account that is no administrator's. -/
lemma commits_of_gives_none (hc : Single isAdmin c)
    (hws : ∀ w ∈ ws, ∀ userID ∈ w.gives, isAdmin userID = true) :
    (accord isAdmin).Commits op H ws c := by
  have hsub : ∀ userID, isAdmin userID = false →
      (sessionsOf userID (view ws c)).Sublist (sessionsOf userID c) := by
    intro userID hu
    refine sessionsOf_view ?_
    intro w hw hgives
    simp [hws w hw userID hgives] at hu
  intro others _ _
  refine ⟨?_, trivial, ?_⟩
  · intro userID hu
    exact (hsub userID hu).length_le.trans (hc userID hu)
  · intro o _ userID hu
    exact (hsub userID (not_admin_of_revokes hu)).subset

/-- A login that deletes every session of its account commits while nobody else logs in to it. -/
lemma commits_login {token userID : String} {expiresAt : ℤ} (hc : Single isAdmin c)
    (hop : userID ∈ op.revokes isAdmin) (hws : Deletes ws)
    (hall : ∀ row ∈ sessionsOf userID c, RowWrite.delete row.1 ∈ ws) :
    (accord isAdmin).Commits op H (ws ++ [.insert token ⟨userID, expiresAt⟩]) c := by
  have hothers : ∀ u, u ≠ userID →
      (sessionsOf u (view (ws ++ [.insert token ⟨userID, expiresAt⟩]) c)).Sublist (sessionsOf u c) := by
    intro u hu
    refine sessionsOf_view ?_
    intro w hw
    rcases List.mem_append.mp hw with hw | hw
    · simp [hws w hw]
    · obtain rfl := List.mem_singleton.mp hw
      simpa [RowWrite.gives] using Ne.symm hu
  have hempty : sessionsOf userID (view ws c) = [] := by
    refine List.eq_nil_iff_forall_not_mem.mpr ?_
    intro row hrow
    have hbefore : row ∈ sessionsOf userID c :=
      (sessionsOf_view (fun w hw => by simp [hws w hw])).subset hrow
    have hgone := hws.lookup_of_mem (σ := c) (hall row hbefore)
    rw [(mem_sessionsOf.mp hrow).1] at hgone
    cases hgone
  intro others _ halone
  refine ⟨?_, trivial, ?_⟩
  · intro u hu
    by_cases hself : u = userID
    · subst hself
      rw [view_append_singleton]
      show (sessionsOf u (RowWrite.apply _ _)).length ≤ 1
      simp only [RowWrite.apply]
      split_ifs with hfree
      · have hle := Table.length_filter_insert_le
          (fun row : String × Session => decide (row.2.userID = u)) (view ws c) token ⟨u, expiresAt⟩
        have hzero : ((view ws c).rows.filter fun row => decide (row.2.userID = u)).length = 0 :=
          congrArg List.length hempty
        rw [hzero] at hle
        simpa [sessionsOf] using hle
      · simp [hempty]
    · exact (hothers u hself).length_le.trans (hc u hu)
  · intro o ho u hu
    refine (hothers u ?_).subset
    rintro rfl
    exact halone u hop o ho hu

end Commits

/-! ## The calls -/

section Calls

variable {isAdmin} {op : Op} {H : List String} {ws : List RowWrite} {c : Stored}

/-- What is left of a `DELETE` of an account's sessions, and what its transaction has written. -/
def Deleting (isAdmin : String → Bool) (op : Op) (p : String → Session → Bool) (rest : List String) :
    Assert Stored RowWrite String := fun _ ws c =>
  Deletes ws ∧ ∀ userID ∈ op.revokes isAdmin, p = ofUser userID →
    ∀ row ∈ sessionsOf userID c, row.1 ∈ rest ∨ RowWrite.delete row.1 ∈ ws

lemma Deleting.since {p : String → Session → Bool} {rest : List String} {c' : Stored}
    (h : Deleting isAdmin op p rest H ws c) (hc : (accord isAdmin).Rely op H c c') :
    Deleting isAdmin op p rest H ws c' :=
  ⟨h.1, fun userID hop hp row hrow => h.2 userID hop hp row (hc.2 userID hop hrow)⟩

/-- One row of a `DELETE`: it is deleted, or it is gone. -/
lemma deleteRow_does {p : String → Session → Bool} {token : String} {rest : List String}
    (h : Deleting isAdmin op p (token :: rest) H ws c) :
    Manages (accord isAdmin) op (deleteRow p token) (fun _ => Deleting isAdmin op p rest) H ws c := by
  refine Manages.acquire fun c₁ h₁ => Manages.select fun c₂ h₂ => ?_
  have h := (h.since h₁).since h₂
  split_ifs with hmatched
  · refine Manages.put (k := Pure.pure) fun c₃ h₃ => Manages.pure fun c₄ h₄ => ?_
    obtain ⟨hws, hrows⟩ := (h.since h₃).since h₄
    refine ⟨hws.append token, ?_⟩
    intro userID hop hp row hrow
    rcases hrows userID hop hp row hrow with hrest | hdel
    · rcases List.mem_cons.mp hrest with heq | hrest
      · exact Or.inr (by simp [heq])
      · exact Or.inl hrest
    · exact Or.inr (List.mem_append_left _ hdel)
  · refine Manages.pure fun c₃ h₃ => Deleting.since ⟨h.1, ?_⟩ h₃
    rintro userID hop rfl row hrow
    rcases h.2 userID hop rfl row hrow with hrest | hdel
    · rcases List.mem_cons.mp hrest with heq | hrest
      · -- the row is there and matches, so that it has been deleted before
        right
        by_contra hnot
        obtain ⟨hlookup, huser⟩ := mem_sessionsOf.mp hrow
        refine hmatched ?_
        rw [← heq, h.1.lookup_of_not_mem hnot, hlookup]
        simpa [ofUser] using huser
      · exact Or.inl hrest
    · exact Or.inr hdel

/-- A `DELETE` of the sessions of an account that nobody else logs in to deletes them all. -/
lemma deleteWhere_does (p : String → Session → Bool) :
    Manages (accord isAdmin) op (deleteWhere p) (fun _ => Deleting isAdmin op p []) [] [] c := by
  refine Manages.select fun c₁ h₁ => ?_
  have hstart : Deleting isAdmin op p (tokensWhere p c₁) [] [] c₁ := by
    refine ⟨fun w hw => absurd hw List.not_mem_nil, ?_⟩
    rintro userID hop rfl row hrow
    refine Or.inl (List.mem_map.mpr ⟨row, ?_, rfl⟩)
    simpa [ofUser, sessionsOf] using hrow
  refine Manages.seq h₁.1 (Manages.forEach (J := fun _ rest => Deleting isAdmin op p rest)
    (fun _ _ _ _ _ h hc => h.since hc) (fun _ _ _ _ _ _ _ h => deleteRow_does h) [] h₁.1 hstart) ?_
  intro _ H ws c₂ _ h
  exact Manages.pure fun c₃ h₃ => h.since h₃

/-- An `INSERT`: one row, or an error. -/
lemma insertSession_does (token : String) (session : Session) :
    Manages (accord isAdmin) op (insertSession token session)
      (fun _ H' ws' c' => ws' = ws ++ [.insert token session] ∧ (accord isAdmin).Rely op H' c c')
      H ws c := by
  refine Manages.acquire fun c₁ h₁ => Manages.select fun c₂ h₂ => ?_
  split_ifs with htaken
  · exact Manages.throw
  · refine Manages.put (k := Pure.pure) fun c₃ h₃ => Manages.pure fun c₄ h₄ => ⟨rfl, ?_⟩
    -- what the call needs does not depend on its locks
    exact Accord.Rely.trans h₁ (Accord.Rely.trans h₂ (Accord.Rely.trans h₃ h₄))

variable {token userID : String} {expiresAt : ℤ}

/-- A `DELETE` of its own, whatever it matches. -/
lemma autocommit_delete_does (p : String → Session → Bool) (hc : Single isAdmin c) :
    Manages (accord isAdmin) op (autocommit (deleteWhere p)) (fun _ _ _ _ => True) [] [] c := by
  refine Manages.autocommit hc ((deleteWhere_does p).mono ?_)
  intro _ H ws c₁ h c₂ h₂
  refine ⟨commits_of_gives_none h₂.1 ?_, fun _ _ _ => trivial⟩
  intro w hw userID hgives
  rw [h.1 w hw] at hgives
  cases hgives

/-- A login that deletes the sessions of its account first. -/
lemma create_revoking_does (hc : Single isAdmin c) (hop : userID ∈ op.revokes isAdmin) :
    Manages (accord isAdmin) op (create token userID expiresAt true) (fun _ _ _ _ => True) [] [] c := by
  refine Manages.transaction hc (Manages.seq hc (deleteWhere_does (ofUser userID)) ?_)
  rintro - H ws c₁ hc₁ h₁
  refine Manages.seq hc₁ (insertSession_does token ⟨userID, expiresAt⟩) ?_
  rintro - H' ws' c₂ - ⟨rfl, h₂⟩
  refine Manages.finish (k := Pure.pure) (fun c₃ h₃ => ?_) fun _ _ _ => Manages.pure fun _ _ _ _ => trivial
  obtain ⟨hws, hrows⟩ := (h₁.since h₂).since h₃
  refine commits_login h₃.1 hop hws ?_
  intro row hrow
  exact (hrows userID hop rfl row hrow).resolve_left List.not_mem_nil

/-- A login of an administrator. -/
lemma create_keeping_does (hc : Single isAdmin c) (hadmin : isAdmin userID = true) :
    Manages (accord isAdmin) op (create token userID expiresAt false) (fun _ _ _ _ => True) [] [] c := by
  have hinsert : Manages (accord isAdmin) op (insertSession token ⟨userID, expiresAt⟩)
      (fun _ H' ws' c' => ws' = [] ++ [.insert token ⟨userID, expiresAt⟩] ∧
        (accord isAdmin).Rely op H' c c') [] [] c := insertSession_does _ _
  refine Manages.autocommit hc (hinsert.mono ?_)
  rintro - H ws c₁ ⟨rfl, -⟩ c₂ h₂
  refine ⟨commits_of_gives_none h₂.1 ?_, fun _ _ _ => trivial⟩
  intro w hw id hgives
  obtain rfl := List.mem_singleton.mp hw
  obtain rfl := Option.some.inj hgives
  exact hadmin

end Calls

/-- Every call keeps to the agreement. -/
theorem program_kept : (accord isAdmin).Kept (Op.program isAdmin) := by
  intro op c hc
  cases op with
  | login token userID expiresAt =>
      cases hadmin : isAdmin userID with
      | true =>
          simp only [Op.program, hadmin]
          exact (create_keeping_does hc hadmin).whole
      | false =>
          simp only [Op.program, hadmin]
          exact (create_revoking_does hc (by simp [Op.revokes, hadmin])).whole
  | logout dbNow token =>
      refine Manages.whole (Manages.select fun c₁ h₁ => ?_)
      exact autocommit_delete_does _ h₁.1
  | delete token => exact (autocommit_delete_does _ hc).whole
  | deleteByUser userID => exact (autocommit_delete_does _ hc).whole
  | deleteByUsers userIDs =>
      by_cases hnone : userIDs = []
      · simp only [Op.program, deleteByUsers, if_pos hnone]
        exact Manages.whole (Manages.pure fun _ _ => trivial)
      · simp only [Op.program, deleteByUsers, if_neg hnone]
        exact (autocommit_delete_does _ hc).whole
  | deleteByUserExcept userID exceptToken => exact (autocommit_delete_does _ hc).whole
  | deleteExpired dbNow => exact (autocommit_delete_does _ hc).whole

/-! ## The result -/

/-- The calls over one table. -/
abbrev System := Sys Op Stored RowWrite String (Except Refusal Unit)

/-- **No account but an administrator's ever has two sessions**, as long as no two logins of one account
are in progress when one of them commits. -/
theorem single_kept {σ : Stored} {s : System} (hσ : Single isAdmin σ)
    (h : Go.ReachIf (Sys.move (Op.program isAdmin))
      (Sys.Allowed fun op _ others _ => Alone isAdmin op others) (Sys.idle σ) s) :
    Single isAdmin s.db :=
  ((accord isAdmin).sound (program_kept isAdmin) hσ h).1

/-! ### Runs -/

/-- Nobody is an administrator. -/
def nobody : String → Bool := fun _ => false

/-- An account with a session. -/
def sampleStored : Stored := (∅ : Stored).insert "old" ⟨"u", 5⟩

lemma single_sampleStored : Single nobody sampleStored := by
  intro userID _
  calc (sessionsOf userID sampleStored).length
      ≤ sampleStored.rows.length := List.length_filter_le _ _
    _ = 1 := rfl

/-- Two logins of the account: each has its snapshot before the other goes on, the first to its end in
`n` steps, and then the second in `m`. -/
def bothDelete (n m : ℕ) : List (Sys.Action Op) :=
  [.start (.login "a" "u" 9), .start (.login "b" "u" 9), .advance 0, .advance 1] ++
    List.replicate n (.advance 0) ++ List.replicate m (.advance 0)

/-- A logout of the session that a login of the account is about to delete, and a login of another
account. -/
def logoutMeanwhile : List (Sys.Action Op) :=
  [.start (.logout 0 "old"), .start (.login "a" "u" 9), .start (.login "b" "v" 9)] ++
    List.map .advance [0, 0, 1, 0, 0, 0, 0, 0, 1, 0, 0, 0, 0, 0, 0, 0, 0, 0, 0, 0, 0]

/-- The account has one session afterwards. -/
theorem single_kept_sample :
    ((Go.runIf (Sys.move (Op.program nobody)) (Sys.Allowed fun op _ others _ => Alone nobody op others)
      logoutMeanwhile (Sys.idle sampleStored)).map fun s =>
        (s.sessions.length, (sessionsOf "u" s.db).map Prod.fst)) = some (0, ["a"]) ∧
    Single nobody ((Go.runIf (Sys.move (Op.program nobody))
      (Sys.Allowed fun op _ others _ => Alone nobody op others)
      logoutMeanwhile (Sys.idle sampleStored)).getD (Sys.idle sampleStored)).db :=
  ⟨by decide +kernel,
    single_kept nobody single_sampleStored (Go.ReachIf.runIf_getD _)⟩

/-- Nobody is logging in any more, and the account has two sessions: it had none, or one. -/
theorem single_broken :
    (∃ s : System, Go.Reach (Sys.move (Op.program nobody)) (Sys.idle ∅) s ∧
      s.sessions.length = 0 ∧ (sessionsOf "u" s.db).length = 2) ∧
    Single nobody sampleStored ∧
    ∃ s : System, Go.Reach (Sys.move (Op.program nobody)) (Sys.idle sampleStored) s ∧
      s.sessions.length = 0 ∧ (sessionsOf "u" s.db).length = 2 :=
  ⟨⟨_, Go.Reach.run_getD (bothDelete 5 5), by decide +kernel, by decide +kernel⟩,
    single_sampleStored,
    ⟨_, Go.Reach.run_getD (bothDelete 8 7), by decide +kernel, by decide +kernel⟩⟩

end Sessions

end Labyrithm
