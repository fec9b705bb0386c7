import Labyrithm.Team.Repository

/-!
# Whether teams stay within their size

`AddMember`, `CreateAndAddMember` and `createOne` count the members of a team in one statement and add a
user in a later one, and nothing is locked in between: what they have counted is out of date once another
call has committed.  `AddMember` looks for the team of the user in the same way, and its `UPDATE` does not
ask for it again.

* `Spares` — a commit leaves room for a call that may still add to the same team, and does not move a user
  whom another call adds.
* `WellFormed` — no team has more members than the checks allow, and every user's team is there.
* **`size_kept`** — as long as every commit spares the calls in progress, the tables stay well-formed, and
  no `AddMember` takes a user out of another team.
* `team_overfull` — two calls that add to a team with room for one, and two that add one user.
-/

namespace Labyrithm

namespace Teams

open Sql Tx
open User (TeamRow UserRow Accounts CreateUserRequest Drawn maxTeamMembers)

/-! ## What a write does -/

namespace RowWrite

/-- The team that gets a member. -/
def joins : RowWrite → Option String
  | insertUser _ user => user.teamId
  | setTeam _ teamID => some teamID
  | insertTeam .. | clearTeam .. => none

/-- The user who is moved to a team. -/
def moves : RowWrite → Option String
  | setTeam userID _ => some userID
  | insertTeam .. | insertUser .. | clearTeam .. => none

variable {w : RowWrite} {σ : Accounts}

/-- The users after a write: as they were, or with one row in the team that gets a member. -/
lemma users_apply (w : RowWrite) (σ : Accounts) :
    (w.apply σ).users = σ.users ∨
      ∃ id user, (w.apply σ).users = σ.users.insert id user ∧ user.teamId = w.joins ∧
        (σ.users.lookup id = none ∨ w.joins = none ∨ w.moves = some id) := by
  cases w with
  | insertTeam id team =>
      left
      simp only [apply]
      split_ifs <;> rfl
  | insertUser id user =>
      simp only [apply]
      split_ifs with hfree
      · exact Or.inr ⟨id, user, rfl, rfl, Or.inl hfree⟩
      · exact Or.inl rfl
  | setTeam userID teamID =>
      simp only [apply, updateUser]
      split
      · exact Or.inl rfl
      · split_ifs
        · exact Or.inr ⟨userID, _, rfl, rfl, Or.inr (Or.inr rfl)⟩
        · exact Or.inl rfl
  | clearTeam userID teamID =>
      simp only [apply, updateUser]
      split
      · exact Or.inl rfl
      · split_ifs
        · exact Or.inr ⟨userID, _, rfl, rfl, Or.inr (Or.inl rfl)⟩
        · exact Or.inl rfl

/-- The teams after a write: as they were, or with a new one. -/
lemma teams_apply (w : RowWrite) (σ : Accounts) :
    (w.apply σ).teams = σ.teams ∨
      ∃ id team, w = insertTeam id team ∧ σ.teams.lookup id = none ∧
        (w.apply σ).teams = σ.teams.insert id team := by
  cases w with
  | insertTeam id team =>
      simp only [apply]
      split_ifs with hfree
      · exact Or.inr ⟨id, team, rfl, hfree, rfl⟩
      · exact Or.inl rfl
  | insertUser id user =>
      left
      simp only [apply]
      split_ifs <;> rfl
  | setTeam userID teamID | clearTeam userID teamID =>
      left
      simp only [apply, updateUser]
      split
      · rfl
      · split_ifs <;> rfl

end RowWrite

/-- The team has room. -/
def Room (teamID : String) (σ : Accounts) : Prop := (membersOf teamID σ).length < maxTeamMembers

/-- The team is there. -/
def HasId (teamID : String) (σ : Accounts) : Prop := σ.teams.lookup teamID ≠ none

lemma HasId.mono {teamID : String} {σ σ' : Accounts} (h : HasId teamID σ)
    (hteams : ∀ team, σ.teams.lookup teamID = some team → σ'.teams.lookup teamID = some team) :
    HasId teamID σ' := by
  intro hnone
  cases hrow : σ.teams.lookup teamID with
  | none => exact h hrow
  | some team => simp [hteams team hrow] at hnone

/-- The user is there, and in no team. -/
def Teamless (userID : String) (σ : Accounts) : Prop :=
  ∃ user, σ.users.lookup userID = some user ∧ user.teamId = none

instance (teamID : String) (σ : Accounts) : Decidable (Room teamID σ) :=
  inferInstanceAs (Decidable (_ < _))

section Writes

variable {ws : List RowWrite} {w : RowWrite} {σ : Accounts} {teamID userID : String} {team : TeamRow}

/-- A team that is there stays as it is. -/
lemma lookup_team_view (h : σ.teams.lookup teamID = some team) :
    (view ws σ).teams.lookup teamID = some team := by
  refine view_keeps (P := fun s : Accounts => s.teams.lookup teamID = some team) ?_ h
  intro w _ s hs
  show (w.apply s).teams.lookup teamID = some team
  rcases w.teams_apply s with heq | ⟨id, new, -, hfree, heq⟩
  · rw [heq, hs]
  · have hne : id ≠ teamID := by
      rintro rfl
      rw [hs] at hfree
      cases hfree
    rw [heq, Table.lookup_insert_eq, if_neg hne, hs]

lemma hasId_view (h : HasId teamID σ) : HasId teamID (view ws σ) := h.mono fun _ => lookup_team_view

/-- A team appears only where it is inserted. -/
lemma lookup_team_view_none (h : σ.teams.lookup teamID = none)
    (hws : ∀ new, RowWrite.insertTeam teamID new ∉ ws) : (view ws σ).teams.lookup teamID = none := by
  refine view_keeps (P := fun s : Accounts => s.teams.lookup teamID = none) ?_ h
  intro w hw s hs
  show (w.apply s).teams.lookup teamID = none
  rcases w.teams_apply s with heq | ⟨id, new, rfl, -, heq⟩
  · rw [heq, hs]
  · have hne : id ≠ teamID := by
      rintro rfl
      exact hws new hw
    rw [heq, Table.lookup_insert_eq, if_neg hne, hs]

/-- A team grows by the writes that put a user into it at most. -/
lemma length_membersOf_view_le (teamID : String) (ws : List RowWrite) (σ : Accounts) :
    (membersOf teamID (view ws σ)).length ≤
      (membersOf teamID σ).length + ws.countP fun w => w.joins = some teamID := by
  induction ws generalizing σ with
  | nil => simp
  | cons w ws ih =>
      have hstep : (membersOf teamID (w.apply σ)).length ≤
          (membersOf teamID σ).length + if w.joins = some teamID then 1 else 0 := by
        simp only [membersOf]
        rcases w.users_apply σ with heq | ⟨id, user, heq, hteam, -⟩
        · rw [heq]
          omega
        · have hle := Table.length_filter_insert_le
            (fun u : String × UserRow => decide (u.2.teamId = some teamID)) σ.users id user
          rw [heq]
          simpa [hteam] using hle
      have hrest : (membersOf teamID (view (w :: ws) σ)).length ≤
          (membersOf teamID (w.apply σ)).length + ws.countP fun w => w.joins = some teamID :=
        ih (w.apply σ)
      rw [List.countP_cons]
      simp only [decide_eq_true_eq]
      omega

/-- A user without a team gets one only from a write that moves this user. -/
lemma teamless_view (h : Teamless userID σ) (hws : ∀ w ∈ ws, w.moves ≠ some userID) :
    Teamless userID (view ws σ) := by
  refine view_keeps ?_ h
  intro w hw s hs
  obtain ⟨user, huser, hnone⟩ := hs
  rcases w.users_apply s with heq | ⟨id, new, heq, hteam, hid⟩
  · exact ⟨user, by show (w.apply s).users.lookup userID = _; rw [heq, huser], hnone⟩
  · by_cases hne : id = userID
    · subst hne
      rcases hid with hfree | hjoins | hmoves
      · rw [huser] at hfree
        cases hfree
      · exact ⟨new, by show (w.apply s).users.lookup id = _; rw [heq, AList.lookup_insert],
          hteam.trans hjoins⟩
      · exact absurd hmoves (hws w hw)
    · refine ⟨user, ?_, hnone⟩
      show (w.apply s).users.lookup userID = _
      rw [heq, Table.lookup_insert_eq, if_neg hne, huser]

end Writes

/-! ## The agreement -/

/-- No team has more members than the checks allow, and every user's team is there. -/
structure WellFormed (σ : Accounts) : Prop where
  size : ∀ teamID, (membersOf teamID σ).length ≤ maxTeamMembers
  teams : ∀ userID user teamID, σ.users.lookup userID = some user → user.teamId = some teamID →
    σ.teams.lookup teamID ≠ none

/-- Only the teams that have members need to be looked at. -/
lemma wellFormed_iff {σ : Accounts} :
    WellFormed σ ↔ ∀ u ∈ σ.users.rows, ∀ teamID ∈ u.2.teamId,
      (membersOf teamID σ).length ≤ maxTeamMembers ∧ σ.teams.lookup teamID ≠ none := by
  constructor
  · rintro h ⟨userID, user⟩ hmem teamID hteam
    exact ⟨h.size teamID, h.teams userID user teamID (Table.mem_rows.mp hmem) hteam⟩
  · intro h
    refine ⟨?_, ?_⟩
    · intro teamID
      cases hmembers : membersOf teamID σ with
      | nil => exact Nat.zero_le _
      | cons u us =>
          have hu : u ∈ σ.users.rows ∧ u.2.teamId = some teamID := by
            have hmem : u ∈ membersOf teamID σ := by simp [hmembers]
            simpa [membersOf] using hmem
          rw [← hmembers]
          exact (h u hu.1 teamID hu.2).1
    · intro userID user teamID huser hteam
      exact (h (userID, user) (Table.mem_rows.mpr huser) teamID hteam).2

instance (σ : Accounts) : Decidable (WellFormed σ) := decidable_of_iff _ wellFormed_iff.symm

/-- Of a team that is not there nobody is a member. -/
lemma WellFormed.membersOf_eq_nil {σ : Accounts} {teamID : String} (h : WellFormed σ)
    (hnone : σ.teams.lookup teamID = none) : membersOf teamID σ = [] := by
  refine List.filter_eq_nil_iff.mpr ?_
  rintro ⟨userID, user⟩ hmem hteam
  exact h.teams userID user teamID (Table.mem_rows.mp hmem) (of_decide_eq_true hteam) hnone

/-- Users whose teams are in a table keep to it where the writes do. -/
lemma users_teams_view {ws : List RowWrite} {σ : Accounts} {T : String → Prop}
    (h : ∀ userID user teamID, σ.users.lookup userID = some user → user.teamId = some teamID → T teamID)
    (hws : ∀ w ∈ ws, ∀ teamID ∈ w.joins, T teamID) :
    ∀ userID user teamID, (view ws σ).users.lookup userID = some user → user.teamId = some teamID →
      T teamID := by
  refine view_keeps (P := fun s : Accounts => ∀ userID user teamID,
    s.users.lookup userID = some user → user.teamId = some teamID → T teamID) ?_ h
  intro w hw s hs userID user teamID huser hteam
  have huser : (w.apply s).users.lookup userID = some user := huser
  rcases w.users_apply s with heq | ⟨id, new, heq, hnew, -⟩
  · rw [heq] at huser
    exact hs userID user teamID huser hteam
  · rw [heq, Table.lookup_insert_eq] at huser
    split_ifs at huser with hid
    · obtain rfl := Option.some.inj huser
      exact hws w hw teamID (hnew.symm.trans hteam)
    · exact hs userID user teamID huser hteam

namespace Op

/-- The user whom the call adds. -/
def adds : Op → Option String
  | addMember _ userID => some userID
  | createTeamWithMembers .. | createAndAddMember .. | createOne .. | removeMember .. => none

/-- The call may put a user into this team, which may be there already. -/
def Concerns (teamID : String) (σ : Accounts) : Op → Prop
  | createTeamWithMembers .. | removeMember .. => False
  | addMember id _ | createAndAddMember _ _ id _ => id = teamID
  | createOne drawn req =>
      if req.teamId ≠ "" then req.teamId = teamID
      else drawn.teamId = teamID ∨
        (σ.teams.lookup teamID).any fun team => team.name = Go.trimSpace req.teamName

instance (teamID : String) (σ : Accounts) (op : Op) : Decidable (op.Concerns teamID σ) := by
  cases op <;> unfold Concerns <;> infer_instance

/-- A call that concerns a team goes on doing so. -/
lemma Concerns.mono {op : Op} {teamID : String} {σ σ' : Accounts} (h : op.Concerns teamID σ)
    (hteams : ∀ id team, σ.teams.lookup id = some team → σ'.teams.lookup id = some team) :
    op.Concerns teamID σ' := by
  cases op with
  | createTeamWithMembers | removeMember => exact h
  | addMember | createAndAddMember => exact h
  | createOne drawn req =>
      simp only [Concerns] at h ⊢
      split_ifs at h ⊢ with hid
      · exact h
      · refine h.imp_right ?_
        intro hname
        cases hteam : σ.teams.lookup teamID with
        | none => simp [hteam] at hname
        | some team => simpa [hteams teamID team hteam, hteam] using hname

end Op

/-- What a call that holds these locks needs of the commits of the others. -/
structure Needs (op : Op) (H : List Lock) (σ σ' : Accounts) : Prop where
  teams : ∀ id team, σ.teams.lookup id = some team → σ'.teams.lookup id = some team
  locked : ∀ id, Lock.team id ∈ H → σ.teams.lookup id = none → σ'.teams.lookup id = none
  room : ∀ teamID, op.Concerns teamID σ → Room teamID σ → Room teamID σ'
  teamless : ∀ userID ∈ op.adds, Teamless userID σ → Teamless userID σ'

namespace Needs

variable {op : Op} {H : List Lock} {σ σ' σ'' : Accounts}

lemma refl : Needs op H σ σ := ⟨fun _ _ h => h, fun _ _ h => h, fun _ _ h => h, fun _ _ h => h⟩

lemma trans (h : Needs op H σ σ') (h' : Needs op H σ' σ'') : Needs op H σ σ'' where
  teams id team ht := h'.teams id team (h.teams id team ht)
  locked id hl hn := h'.locked id hl (h.locked id hl hn)
  room t hc hr := h'.room t (hc.mono h.teams) (h.room t hc hr)
  teamless u hu ht := h'.teamless u hu (h.teamless u hu ht)

/-- Fewer locks protect less. -/
lemma weaken {H' : List Lock} (h : Needs op H' σ σ') (hsub : ∀ l ∈ H, l ∈ H') : Needs op H σ σ' :=
  ⟨h.teams, fun id hl => h.locked id (hsub _ hl), h.room, h.teamless⟩

lemma unlocked (h : Needs op H σ σ') : Needs op [] σ σ' :=
  h.weaken fun _ hl => absurd hl List.not_mem_nil

lemma hasId {teamID : String} (h : Needs op H σ σ') (hid : HasId teamID σ) : HasId teamID σ' :=
  hid.mono (h.teams teamID)

end Needs

/-- The commit leaves room where it puts a user into a team that a call in progress may add to, and it
moves no user whom one of them adds. -/
def Spares (ws : List RowWrite) (others : List (Op × List Lock)) (σ : Accounts) : Prop :=
  ∀ o ∈ others, ∀ w ∈ ws,
    (∀ teamID ∈ w.joins, o.1.Concerns teamID σ → Room teamID (view ws σ)) ∧
      ∀ userID ∈ w.moves, o.1.adds ≠ some userID

instance (ws : List RowWrite) (others : List (Op × List Lock)) (σ : Accounts) :
    Decidable (Spares ws others σ) :=
  inferInstanceAs (Decidable (∀ o ∈ others, ∀ w ∈ ws, _ ∧ _))

/-- An `AddMember` finds its user in no other team. -/
def StaysPut (σ : Accounts) : Op → Prop
  | .addMember teamID userID =>
      ∀ user ∈ σ.users.lookup userID, ∀ current ∈ user.teamId, current = teamID
  | .createTeamWithMembers .. | .createAndAddMember .. | .createOne .. | .removeMember .. => True

instance (σ : Accounts) (op : Op) : Decidable (StaysPut σ op) := by
  cases op <;> unfold StaysPut <;> infer_instance

/-- What the calls agree on. -/
def accord : Accord Op Accounts RowWrite Lock where
  inv := WellFormed
  needs := Needs
  needs_refl _ _ _ := .refl
  needs_trans _ _ _ _ _ := .trans
  guard _ := Spares
  rel op before _ := StaysPut before op

section Commits

variable {op : Op} {H : List Lock} {ws : List RowWrite} {c : Accounts}

/-- A commit that spares the others is nothing that they cannot live with. -/
lemma needs_of_spares {others : List (Op × List Lock)} (hspares : Spares ws others c)
    (hdisj : ∀ o ∈ others, ∀ l ∈ o.2, l ∉ H)
    (hlocked : ∀ id team, RowWrite.insertTeam id team ∈ ws → Lock.team id ∈ H) :
    ∀ o ∈ others, Needs o.1 o.2 c (view ws c) := by
  intro o ho
  refine ⟨fun _ _ => lookup_team_view, ?_, ?_, ?_⟩
  · intro id hl hnone
    refine lookup_team_view_none hnone ?_
    intro new hw
    exact hdisj o ho _ hl (hlocked id new hw)
  · intro teamID hconcerns hroom
    by_cases hjoins : ∃ w ∈ ws, w.joins = some teamID
    · obtain ⟨w, hw, hteam⟩ := hjoins
      exact (hspares o ho w hw).1 teamID hteam hconcerns
    · have hzero : ws.countP (fun w => w.joins = some teamID) = 0 := by
        refine List.countP_eq_zero.mpr ?_
        intro w hw hteam
        exact hjoins ⟨w, hw, of_decide_eq_true hteam⟩
      have hle := length_membersOf_view_le teamID ws c
      rw [hzero] at hle
      exact lt_of_le_of_lt hle hroom
  · intro userID hadds hteamless
    refine teamless_view hteamless ?_
    intro w hw hmoves
    exact (hspares o ho w hw).2 userID hmoves hadds

/-- What is owed at a commit, from what the transaction has seen to: the locks of the teams that it
inserts, the teams that it adds to, and their sizes. -/
lemma commits_of (hc : WellFormed c)
    (hlocked : ∀ id team, RowWrite.insertTeam id team ∈ ws → Lock.team id ∈ H)
    (hteams : ∀ w ∈ ws, ∀ teamID ∈ w.joins, HasId teamID (view ws c))
    (hsize : ∀ teamID, (membersOf teamID c).length + ws.countP (fun w => w.joins = some teamID) ≤
      maxTeamMembers)
    (hput : StaysPut c op) : accord.Commits op H ws c := by
  intro others hdisj hspares
  refine ⟨⟨?_, ?_⟩, hput, needs_of_spares hspares hdisj hlocked⟩
  · intro teamID
    exact (length_membersOf_view_le teamID ws c).trans (hsize teamID)
  · refine users_teams_view ?_ hteams
    intro userID user teamID huser hteam
    exact hasId_view (hc.teams userID user teamID huser hteam)

/-- A transaction that adds one user to a team that is there and has room. -/
lemma commits_one {w : RowWrite} (hc : WellFormed c) (hinsert : ∀ id team, w ≠ .insertTeam id team)
    (hjoins : ∀ teamID ∈ w.joins, HasId teamID c ∧ Room teamID c)
    (hput : StaysPut c op) : accord.Commits op H [w] c := by
  refine commits_of hc ?_ ?_ ?_ hput
  · intro id team hmem
    exact absurd (List.mem_singleton.mp hmem).symm (hinsert id team)
  · intro w' hw' teamID hteam
    obtain rfl := List.mem_singleton.mp hw'
    exact hasId_view (hjoins teamID hteam).1
  · intro teamID
    by_cases hteam : w.joins = some teamID
    · have hroom : (membersOf teamID c).length < maxTeamMembers := (hjoins teamID hteam).2
      simp [hteam]
      omega
    · have hle := hc.size teamID
      simpa [hteam] using hle

end Commits

/-! ## The calls -/

section Calls

variable {op : Op} {H : List Lock} {ws : List RowWrite} {c : Accounts}

/-- What a call owes, and what holds where it goes on. -/
abbrev Does {α : Type} (op : Op) (call : Call α) (Q : α → Assert Accounts RowWrite Lock) :
    Assert Accounts RowWrite Lock :=
  Manages accord op call Q

/-- Nothing. -/
abbrev Whatever {α : Type} : α → Assert Accounts RowWrite Lock := fun _ _ _ _ => True

/-- A statement has taken locks and written this, and the tables have changed as the call needs. -/
def Written (op : Op) (H : List Lock) (ws : List RowWrite) (c : Accounts) :
    Assert Accounts RowWrite Lock := fun H' ws' c' =>
  (∀ l ∈ H, l ∈ H') ∧ ws' = ws ∧ WellFormed c' ∧ Needs op H c c'

lemma transaction_does {α : Type} {body : Call α} (hc : WellFormed c)
    (h : Does op body Whatever H ws c) : Does op (transaction body) Whatever H ws c :=
  Manages.transaction hc (h.mono fun _ _ _ _ _ _ _ => trivial)

/-- The `UPDATE` of a user: one write more. -/
lemma changeUser_does (applies : UserRow → Bool) (w : RowWrite) (userID : String) :
    Does op (changeUser applies w userID) (fun _ => Written op H (ws ++ [w]) c) H ws c := by
  have hsub : ∀ l ∈ H, l ∈ Lock.user userID :: H := fun _ => List.mem_cons_of_mem _
  refine Manages.acquire fun c₁ h₁ => Manages.select fun c₂ h₂ => Manages.put fun c₃ h₃ => ?_
  refine Manages.pure fun c₄ h₄ => ⟨hsub, rfl, h₄.1, ?_⟩
  exact ((h₁.2.trans (h₂.2.weaken hsub)).trans (h₃.2.weaken hsub)).trans (h₄.2.weaken hsub)

/-- The `INSERT` of a user: one row, or an error. -/
lemma insertUser_does (id : String) (user : UserRow) :
    Does op (insertUser id user) (fun _ => Written op H (ws ++ [.insertUser id user]) c) H ws c := by
  have hid : ∀ l ∈ H, l ∈ Lock.user id :: H := fun _ => List.mem_cons_of_mem _
  have hname : ∀ l ∈ H, l ∈ Lock.username user.username :: Lock.user id :: H :=
    fun l hl => List.mem_cons_of_mem _ (hid l hl)
  refine Manages.acquire fun c₁ h₁ => Manages.acquire fun c₂ h₂ => Manages.select fun c₃ h₃ => ?_
  split_ifs with htaken
  · exact Manages.throw
  · intro c₄ h₄ c₅ h₅
    refine ⟨hname, rfl, h₅.1, ?_⟩
    exact (((h₁.2.trans (h₂.2.weaken hid)).trans (h₃.2.weaken hname)).trans
      (h₄.2.weaken hname)).trans (h₅.2.weaken hname)

/-- The `INSERT` of a team: the id is locked, and nobody else has a team with it. -/
lemma insertTeam_does (id : String) (team : TeamRow) :
    Does op (insertTeam id team) (fun _ H' ws' c' =>
      Lock.team id ∈ H' ∧ ws' = [.insertTeam id team] ∧ WellFormed c' ∧ c'.teams.lookup id = none)
      [] [] c := by
  have hlock : Lock.team id ∈ [Lock.teamName team.name, Lock.team id] := by simp
  refine Manages.acquire fun c₁ h₁ => Manages.acquire fun c₂ h₂ => Manages.select fun c₃ h₃ => ?_
  split_ifs with htaken
  · exact Manages.throw
  · have hfree : c₃.teams.lookup id = none := by
      by_contra hrow
      exact htaken (decide_eq_true (Or.inl hrow))
    intro c₄ h₄ c₅ h₅
    exact ⟨hlock, rfl, h₅.1, h₅.2.locked id hlock (h₄.2.locked id hlock hfree)⟩

/-! ### `CreateTeamWithMembers` -/

section NewTeam

variable (now : ℤ) (teamID : String) (name : List Char) (members : List (String × CreateMemberParams))

/-- What the transaction writes. -/
def newTeam : List RowWrite :=
  .insertTeam teamID ⟨name, now⟩ :: members.map fun m => .insertUser m.1 (m.2.row now teamID)

variable {now teamID name members}

lemma mem_newTeam {w : RowWrite} (hw : w ∈ newTeam now teamID name members) :
    w = .insertTeam teamID ⟨name, now⟩ ∨
      ∃ id user, w = .insertUser id user ∧ user.teamId = some teamID := by
  rcases List.mem_cons.mp hw with rfl | hw
  · exact Or.inl rfl
  · obtain ⟨m, -, rfl⟩ := List.mem_map.mp hw
    exact Or.inr ⟨m.1, m.2.row now teamID, rfl, rfl⟩

lemma newTeam_append (m : String × CreateMemberParams) :
    newTeam now teamID name (members ++ [m]) =
      newTeam now teamID name members ++ [.insertUser m.1 (m.2.row now teamID)] := by
  simp [newTeam]

lemma countP_newTeam (id : String) :
    (newTeam now teamID name members).countP (fun w => w.joins = some id) =
      if id = teamID then members.length else 0 := by
  by_cases hid : id = teamID
  · subst hid
    simp [newTeam, List.countP_map, RowWrite.joins, CreateMemberParams.row, Function.comp_def]
  · have hne : teamID ≠ id := fun h => hid h.symm
    simp [newTeam, List.countP_map, RowWrite.joins, CreateMemberParams.row, Function.comp_def, hid, hne]

variable {c : Accounts}

lemma hasId_newTeam (hfree : c.teams.lookup teamID = none) :
    HasId teamID (view (newTeam now teamID name members) c) := by
  have hid : HasId teamID ((RowWrite.insertTeam teamID ⟨name, now⟩).apply c) := by
    simp [HasId, RowWrite.apply, hfree]
  show HasId teamID (view (members.map fun m => .insertUser m.1 (m.2.row now teamID))
    ((RowWrite.insertTeam teamID ⟨name, now⟩).apply c))
  exact hasId_view hid

/-- A new team has the members that are created with it. -/
lemma length_membersOf_newTeam_le (hc : WellFormed c) (hfree : c.teams.lookup teamID = none) :
    (membersOf teamID (view (newTeam now teamID name members) c)).length ≤ members.length := by
  have hle := length_membersOf_view_le teamID (newTeam now teamID name members) c
  rwa [countP_newTeam, if_pos rfl, hc.membersOf_eq_nil hfree, List.length_nil, Nat.zero_add] at hle

lemma commits_newTeam {op : Op} {H : List Lock} (hc : WellFormed c) (hlock : Lock.team teamID ∈ H)
    (hfree : c.teams.lookup teamID = none) (hlen : members.length ≤ maxTeamMembers)
    (hput : StaysPut c op) : accord.Commits op H (newTeam now teamID name members) c := by
  refine commits_of hc ?_ ?_ ?_ hput
  · intro id team hmem
    rcases mem_newTeam hmem with heq | ⟨_, _, heq, -⟩
    · cases heq
      exact hlock
    · cases heq
  · intro w hw id hjoins
    rcases mem_newTeam hw with rfl | ⟨_, user, rfl, hteam⟩
    · cases hjoins
    · obtain rfl : teamID = id := Option.some.inj (hteam.symm.trans hjoins)
      exact hasId_newTeam hfree
  · intro id
    rw [countP_newTeam]
    split_ifs with hid
    · subst hid
      rw [hc.membersOf_eq_nil hfree, List.length_nil, Nat.zero_add]
      exact hlen
    · exact hc.size id

end NewTeam

lemma createTeamWithMembers_does {now : ℤ} {teamID : String} {name : List Char}
    {members : List (String × CreateMemberParams)} (hc : WellFormed c) :
    Does (.createTeamWithMembers now teamID name members)
      (createTeamWithMembers now teamID name members) Whatever [] [] c := by
  unfold createTeamWithMembers
  split_ifs with hlen
  · exact Manages.throw
  refine transaction_does hc (Manages.seq hc (insertTeam_does teamID ⟨name, now⟩) ?_)
  rintro - H ws c hc ⟨hlock, hws, -, hfree⟩
  -- nobody else sees the team, and every pass writes one user
  refine Manages.seq hc (Manages.forEach (J := fun done _ H ws c => Lock.team teamID ∈ H ∧
    ws = newTeam now teamID name done ∧ c.teams.lookup teamID = none) ?_ ?_ [] hc
    ⟨hlock, hws, hfree⟩) ?_
  · rintro done H ws c c' ⟨hlock, hws, hfree⟩ hrely
    exact ⟨hlock, hws, hrely.2.locked teamID hlock hfree⟩
  · rintro done m rest H ws c hc ⟨hlock, rfl, hfree⟩
    refine Manages.seq hc (insertUser_does m.1 (m.2.row now teamID)) ?_
    rintro - H' ws' c' - ⟨hsub, rfl, -, hneeds⟩
    refine Manages.pure fun d hd => ⟨hsub _ hlock, (newTeam_append m).symm, ?_⟩
    exact hd.2.locked teamID (hsub _ hlock) (hneeds.locked teamID hlock hfree)
  · rintro createdUsers H ws c - ⟨hlock, rfl, hfree⟩
    refine Manages.finish (fun c' hrely => ?_) fun c' _ _ => Manages.pure fun _ _ => trivial
    exact commits_newTeam hrely.1 hlock (hrely.2.locked teamID hlock hfree) (not_lt.mp hlen) trivial

/-! ### `AddMember` and `CreateAndAddMember` -/

lemma Teamless.staysPut {σ : Accounts} {userID : String} (h : Teamless userID σ) (teamID : String) :
    StaysPut σ (.addMember teamID userID) := by
  intro user huser current hteam
  obtain ⟨user', huser', hnone⟩ := h
  obtain rfl := Option.some.inj (huser'.symm.trans huser)
  rw [hnone] at hteam
  cases hteam

lemma joinTeam_does {teamID userID : String} (hid : HasId teamID c)
    (hteamless : Teamless userID c) :
    Does (.addMember teamID userID) (joinTeam teamID userID) Whatever [] [] c := by
  refine Manages.select fun c₁ h₁ => ?_
  split_ifs with hfull
  · exact Manages.throw
  have hroom : Room teamID c₁ := not_le.mp hfull
  refine Manages.seq h₁.1 (changeUser_does Addable (.setTeam userID teamID) userID) ?_
  rintro affected H ws c₂ - ⟨-, rfl, -, hneeds⟩
  cases affected with
  | false => exact Manages.throw
  | true =>
      refine Manages.finish (k := Pure.pure) (fun c₃ h₃ => ?_)
        fun _ _ _ => Manages.pure fun _ _ => trivial
      have hsince := hneeds.trans h₃.2.unlocked
      refine commits_one h₃.1 (fun _ _ h => by cases h) ?_ ?_
      · rintro id ⟨⟩
        exact ⟨hsince.hasId (h₁.2.hasId hid), hsince.room teamID rfl hroom⟩
      · exact (hsince.teamless userID rfl (h₁.2.teamless userID rfl hteamless)).staysPut teamID

lemma addMember_does {teamID userID : String} (hc : WellFormed c) :
    Does (.addMember teamID userID) (addMember teamID userID) Whatever [] [] c := by
  refine transaction_does hc (Manages.select fun c₁ h₁ => ?_)
  split_ifs with hexists
  · exact Manages.throw
  have hid : HasId teamID c₁ := by
    intro hnone
    simp [hnone] at hexists
  refine Manages.select fun c₂ h₂ => ?_
  rw [view_nil]
  split
  · exact Manages.throw
  · next user huser =>
    split_ifs with hrole
    · exact Manages.throw
    · split
      · split_ifs with hcurrent
        · exact Manages.pure fun _ _ => trivial
        · exact Manages.throw
      · next hnone => exact joinTeam_does (h₂.2.hasId hid) ⟨user, huser, hnone⟩

lemma createAndAddMember_does {now : ℤ} {userID teamID : String} {m : CreateMemberParams}
    (hc : WellFormed c) :
    Does (.createAndAddMember now userID teamID m) (createAndAddMember now userID teamID m) Whatever
      [] [] c := by
  refine transaction_does hc (Manages.select fun c₁ h₁ => ?_)
  split_ifs with hfull
  · exact Manages.throw
  have hroom : Room teamID c₁ := not_le.mp hfull
  refine Manages.select fun c₂ h₂ => ?_
  rw [view_nil]
  split
  · exact Manages.throw
  · next team hteam =>
    have hid : HasId teamID c₂ := by
      intro hnone
      rw [hteam] at hnone
      cases hnone
    refine Manages.seq h₂.1 (insertUser_does userID (m.row now teamID)) ?_
    rintro - H ws c₃ - ⟨-, rfl, -, hneeds⟩
    refine Manages.finish (fun c₄ h₄ => ?_) fun _ _ _ => Manages.pure fun _ _ => trivial
    have hsince := hneeds.trans h₄.2.unlocked
    refine commits_one h₄.1 (fun _ _ h => by cases h) ?_ trivial
    rintro id ⟨⟩
    exact ⟨hsince.hasId hid, hsince.room teamID rfl (h₂.2.room teamID rfl hroom)⟩

/-! ### `RemoveMember` -/

lemma removeMember_does {teamID userID : String} (hc : WellFormed c) :
    Does (.removeMember teamID userID) (removeMember teamID userID) Whatever [] [] c := by
  have hupdate : Does (.removeMember teamID userID)
      (changeUser (Removable teamID) (.clearTeam userID teamID) userID)
      (fun _ => Written (.removeMember teamID userID) [] [.clearTeam userID teamID] c) [] [] c :=
    changeUser_does _ _ _
  refine Manages.seq (P := Whatever) hc (Manages.autocommit hc (hupdate.mono ?_)) ?_
  · rintro affected H ws c₁ ⟨-, rfl, -, -⟩ c₂ h₂
    refine ⟨commits_one h₂.1 (fun _ _ h => by cases h) ?_ trivial, fun _ _ _ => trivial⟩
    rintro id ⟨⟩
  · rintro affected H ws c _ -
    cases affected with
    | false => exact Manages.throw
    | true => exact Manages.pure fun _ _ => trivial

/-! ### `createOne` -/

/-- The call goes on with a team that is there, has room and is its concern. -/
def Targets (op : Op) (team : String × List Char) : Assert Accounts RowWrite Lock := fun H ws c =>
  H = [] ∧ ws = [] ∧ HasId team.1 c ∧ op.Concerns team.1 c ∧ Room team.1 c

lemma Targets.since {team : String × List Char} {c' : Accounts} (h : Targets op team H ws c)
    (hneeds : Needs op [] c c') : Targets op team H ws c' := by
  obtain ⟨hH, hws, hid, hconcerns, hroom⟩ := h
  exact ⟨hH, hws, hneeds.hasId hid, hconcerns.mono hneeds.teams, hneeds.room _ hconcerns hroom⟩

lemma withRoom_does {id : String} {name : List Char} (hid : HasId id c) (hconcerns : op.Concerns id c) :
    Does op (withRoom id name) (Targets op) [] [] c := by
  refine Manages.select fun c₁ h₁ => ?_
  split_ifs with hfull
  · exact Manages.throw
  have htargets : Targets op (id, name) [] [] c₁ :=
    ⟨rfl, rfl, h₁.2.hasId hid, hconcerns.mono h₁.2.teams, not_le.mp hfull⟩
  exact Manages.pure fun _ h => htargets.since h.2

/-- The team is created, and is everybody's from then on. -/
lemma newTarget_does {now : ℤ} {teamID : String} {name : List Char} (hc : WellFormed c)
    (hconcerns : ∀ σ, op.Concerns teamID σ) (hput : ∀ σ, StaysPut σ op) :
    Does op (autocommit (insertTeam teamID ⟨name, now⟩)) (fun _ => Targets op (teamID, name))
      [] [] c := by
  refine Manages.autocommit hc ((insertTeam_does teamID ⟨name, now⟩).mono ?_)
  rintro - H ws c₁ ⟨hlock, rfl, -, hfree⟩ c₂ h₂
  have hfree := h₂.2.locked teamID hlock hfree
  have hcommits : accord.Commits op H (newTeam now teamID name []) c₂ :=
    commits_newTeam h₂.1 hlock hfree (Nat.zero_le _) (hput c₂)
  refine ⟨hcommits, ?_⟩
  intro _ d hd
  have htargets : Targets op (teamID, name) [] [] (view (newTeam now teamID name []) c₂) :=
    ⟨rfl, rfl, hasId_newTeam hfree, hconcerns _,
      lt_of_le_of_lt (length_membersOf_newTeam_le h₂.1 hfree) (by decide)⟩
  exact htargets.since hd.2

variable {drawn : Drawn} {req : CreateUserRequest}

lemma targetTeam_does :
    Does (.createOne drawn req) (targetTeam drawn req.teamId (Go.trimSpace req.teamName))
      (Targets (.createOne drawn req)) [] [] c := by
  unfold targetTeam
  split_ifs with hid hname
  · refine Manages.select fun c₁ h₁ => ?_
    rw [view_nil]
    split
    · exact Manages.throw
    · next team hteam =>
      refine withRoom_does ?_ ?_
      · simp [HasId, hteam]
      · simp [Op.Concerns, hid]
  · refine Manages.select fun c₁ h₁ => ?_
    rw [view_nil]
    split
    · next id team hfound =>
      have hrow : c₁.teams.lookup id = some team := Table.mem_rows.mp (List.mem_of_find?_eq_some hfound)
      have hmatch : team.name = Go.trimSpace req.teamName := by
        simpa using List.find?_some hfound
      refine withRoom_does ?_ ?_
      · simp [HasId, hrow]
      · simp [Op.Concerns, hid, hrow, hmatch]
    · refine Manages.seq h₁.1 (newTarget_does h₁.1 ?_ fun _ => trivial) ?_
      · intro σ
        simp [Op.Concerns, hid]
      · intro _ H ws c₂ _ htargets
        obtain ⟨rfl, rfl⟩ : H = [] ∧ ws = [] := ⟨htargets.1, htargets.2.1⟩
        exact Manages.pure fun d hd => htargets.since hd.2
  · exact Manages.throw

lemma createOne_does (hc : WellFormed c) :
    Does (.createOne drawn req) (createOne drawn req) Whatever [] [] c := by
  unfold createOne
  split
  · exact Manages.throw
  · next new hnew =>
    rw [(User.valid_of_prepare hnew).2.2]
    refine Manages.seq hc targetTeam_does ?_
    rintro ⟨teamId, teamName⟩ H ws c₁ hc₁ htargets
    obtain ⟨rfl, rfl⟩ : H = [] ∧ ws = [] := ⟨htargets.1, htargets.2.1⟩
    have hinsert : Does (.createOne drawn req) (insertUser drawn.userId (new.row drawn teamId))
        (fun _ => Written (.createOne drawn req) [] [.insertUser drawn.userId (new.row drawn teamId)] c₁)
        [] [] c₁ := insertUser_does _ _
    refine Manages.seq (P := Whatever) hc₁ (Manages.autocommit hc₁ (hinsert.mono ?_))
      fun _ _ _ _ _ _ => Manages.pure fun _ _ => trivial
    rintro - H ws c₂ ⟨-, rfl, -, hneeds⟩ c₃ h₃
    refine ⟨commits_one h₃.1 (fun _ _ h => by cases h) ?_ trivial, fun _ _ _ => trivial⟩
    intro id hjoins
    simp only [RowWrite.joins, User.Prepared.row] at hjoins
    split_ifs at hjoins with hempty
    · cases hjoins
    · obtain rfl := Option.some.inj hjoins
      have hsince := hneeds.trans h₃.2.unlocked
      obtain ⟨-, -, hid, -, hroom⟩ := htargets.since hsince
      exact ⟨hid, hroom⟩

end Calls

/-- Every call keeps to the agreement. -/
theorem program_kept : accord.Kept Op.program := by
  intro op c hc
  cases op with
  | createTeamWithMembers now teamID name members =>
      exact Manages.reply hc (createTeamWithMembers_does hc)
  | addMember teamID userID => exact Manages.reply hc (addMember_does hc)
  | createAndAddMember now userID teamID m => exact Manages.reply hc (createAndAddMember_does hc)
  | createOne drawn req => exact Manages.reply hc (createOne_does hc)
  | removeMember teamID userID => exact Manages.reply hc (removeMember_does hc)

/-! ## The result -/

/-- The calls over one store, and what has happened so far. -/
abbrev System := Sys Op Accounts RowWrite Lock (Except Refusal Reply)

/-- What has happened is no `AddMember` that took its user out of another team. -/
def KeepsUser : Event Op Accounts (Except Refusal Reply) → Prop
  | .committed op before _ => StaysPut before op
  | .started _ | .replied .. => True

instance (e : Event Op Accounts (Except Refusal Reply)) : Decidable (KeepsUser e) := by
  cases e <;> unfold KeepsUser <;> infer_instance

/-- No team has more members than the checks allow, and nobody was taken out of another team. -/
def System.Kept (s : System) : Prop :=
  (∀ teamID, (membersOf teamID s.db).length ≤ maxTeamMembers) ∧ ∀ e ∈ s.log, KeepsUser e

/-- **Teams keep their size and users their teams** in every run whose commits spare the calls in
progress. -/
theorem size_kept {σ : Accounts} {s : System} (hσ : WellFormed σ)
    (h : Go.ReachIf (Sys.move Op.program) (Sys.Allowed fun _ => Spares) (Sys.idle σ) s) : s.Kept := by
  obtain ⟨hs, hdone⟩ := accord.sound program_kept hσ h
  refine ⟨hs.size, ?_⟩
  intro e he
  cases e with
  | started op => trivial
  | committed op before after => exact hdone op before after he
  | replied op reply published => trivial

/-! ### Runs -/

/-- A competitor in a team, or in none. -/
def sampleUser (teamId : Option String) : UserRow := ⟨['u'], ['u'], "", User.roleCompetitor, 0, teamId⟩

/-- Two in a team that has room for one more, two in none, and an empty team. -/
def sampleTables : Accounts where
  teams := ((∅ : Table String TeamRow).insert "t" ⟨['t'], 0⟩).insert "v" ⟨['v'], 0⟩
  users := ((((∅ : Table String UserRow).insert "a" (sampleUser (some "t"))).insert "b"
    (sampleUser (some "t"))).insert "c" (sampleUser none)).insert "d" (sampleUser none)

/-- Both calls count, and then one of them and the other go on to their ends. -/
def bothCount (op op' : Op) : List (Sys.Action Op) :=
  [.start op, .start op'] ++ List.replicate 3 (.advance 0) ++ List.replicate 3 (.advance 1) ++
    List.replicate 10 (.advance 0)

/-- Two users are added to two teams at once. -/
theorem size_kept_sample :
    ((Go.runIf (Sys.move Op.program) (Sys.Allowed fun _ => Spares)
      (bothCount (.addMember "t" "c") (.addMember "v" "d")) (Sys.idle sampleTables)).map fun s =>
        ((membersOf "t" s.db).length, (membersOf "v" s.db).length)) = some (3, 1) ∧
    System.Kept ((Go.runIf (Sys.move Op.program) (Sys.Allowed fun _ => Spares)
      (bothCount (.addMember "t" "c") (.addMember "v" "d")) (Sys.idle sampleTables)).getD
        (Sys.idle sampleTables)) :=
  ⟨by decide +kernel, size_kept (by decide +kernel) (Go.ReachIf.runIf_getD _)⟩

/-- Two users are added to the team with room for one, which has four members then; and one user is
added to two teams, and is taken out of the first. -/
theorem team_overfull :
    WellFormed sampleTables ∧
    (∃ s : System, Go.Reach (Sys.move Op.program) (Sys.idle sampleTables) s ∧
      (membersOf "t" s.db).length = 4) ∧
    ∃ s : System, Go.Reach (Sys.move Op.program) (Sys.idle sampleTables) s ∧
      ∃ e ∈ s.log, ¬ KeepsUser e :=
  ⟨by decide +kernel,
    ⟨_, Go.Reach.run_getD (bothCount (.addMember "t" "c") (.addMember "t" "d")), by decide +kernel⟩,
    ⟨_, Go.Reach.run_getD (bothCount (.addMember "t" "c") (.addMember "v" "c")), by decide +kernel⟩⟩

end Teams

end Labyrithm
