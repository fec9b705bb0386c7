import Labyrithm.Js.Groups
import Labyrithm.Roster.Lines
import Mathlib.Algebra.Order.Ring.Nat
import Mathlib.Data.Finset.Basic

/-!
# Bulk imports

`parseCsvInput` of `admin-frontend/src/components/users/csv-utils.ts` and `parseTeamsInput` of
`admin-frontend/src/components/teams/team-bulk-dialog.tsx` read users and teams from a text.  Both leave
out the first line where it contains, in lower case, one of some words, as a header does; but the name of
a competitor or a team may contain one too.

* `Import` — the two modes of each, with their records and headers.
* `dataLines_eq` — the lines that are read.
* `groupRows_eq` — the teams with members, by their names in lower case.

**`imports_read_iff`** — exactly the records are read, in their order, where a header was written or the
line of the first record contains no such word (`imports_drop`).
-/

namespace Labyrithm

namespace Roster

open Js

/-! ## The functions -/

/-- `s || undefined`. -/
def orUndefined (s : Option (List Char)) : Option (List Char) := s.filter (· ≠ [])

/-- `s || ""`. -/
def orEmpty (s : Option (List Char)) : List Char := s.getD []

/-- The first line is left out where it contains one of the words. -/
def dataLines (casing : Casing) (words : List String) : List (List Char) → List (List Char)
  | [] => []
  | first :: rest =>
      if words.any fun word => includes (toLowerCase casing first) word.toList then rest
      else first :: rest

section Users

structure ParsedCsvRow where
  username : List Char
  displayName : Option (List Char)
  teamName : Option (List Char)
  password : Option (List Char)
  isValid : Bool
  validationError : Option String
  deriving DecidableEq, Repr

/-- A row with the check of what it must have. -/
def checkedRow (username : List Char) (displayName teamName password : Option (List Char)) :
    ParsedCsvRow :=
  { username
    displayName := orUndefined displayName
    teamName := orUndefined teamName
    password := orUndefined password
    isValid := username ≠ [] && (orUndefined teamName).isSome
    validationError :=
      if username = [] then some "Missing username"
      else if orUndefined teamName = none then some "Missing team name"
      else none }

/-- The row of a line in one of the two modes. -/
def parseRow (isSingleTeamMode : Bool) (singleTeamName : Option (List Char)) (line : List Char) :
    ParsedCsvRow :=
  let parts := splitDelimitedLine line
  let username := orEmpty parts[0]?
  if isSingleTeamMode then checkedRow username parts[1]? singleTeamName parts[2]?
  else if 4 ≤ parts.length then checkedRow username parts[1]? parts[2]? parts[3]?
  else if parts.length = 3 then checkedRow username parts[1]? parts[2]? none
  else if parts.length = 2 then checkedRow username none parts[1]? none
  else checkedRow username none none none

def parseCsvInput (casing : Casing) (text : List Char) (isSingleTeamMode : Bool)
    (singleTeamName : Option (List Char)) : List ParsedCsvRow :=
  (dataLines casing ["username", "team", "display_name", "name"] (textLines text)).map
    (parseRow isSingleTeamMode singleTeamName)

end Users

section Teams

def MAX_MEMBERS_PER_TEAM : ℕ := 3

inductive BulkTeamMode
  | names_only
  | with_members
  deriving DecidableEq, Repr

structure Member where
  username : List Char
  displayName : Option (List Char)
  password : Option (List Char)
  deriving DecidableEq, Repr

structure ParsedTeamItem where
  name : List Char
  members : List Member
  isValid : Bool
  validationError : Option String := none
  deriving DecidableEq, Repr

variable (casing : Casing) (existingTeamNamesSet : Finset (List Char))

/-- The first field of a line. -/
def rawTeamName (parts : List (List Char)) : List Char := trim (orEmpty parts[0]?)

/-- The lines of the mode `names_only`, with the names of the lines before them. -/
def nameItems (seenInFile : Finset (List Char)) : List (List Char) → List ParsedTeamItem
  | [] => []
  | line :: lines =>
      let teamName := rawTeamName (splitDelimitedLine line)
      let lowerName := toLowerCase casing teamName
      if teamName = [] then
        { name := [], members := [], isValid := false, validationError := some "Empty team name" }
          :: nameItems seenInFile lines
      else if lowerName ∈ existingTeamNamesSet then
        { name := teamName, members := [], isValid := false
          validationError := some "Team already exists in contest" } :: nameItems seenInFile lines
      else if lowerName ∈ seenInFile then
        { name := teamName, members := [], isValid := false
          validationError := some "Duplicate team name in file" } :: nameItems seenInFile lines
      else
        { name := teamName, members := [], isValid := true }
          :: nameItems (insert lowerName seenInFile) lines

/-- An entry of `teamMap`. -/
structure TeamEntry where
  originalName : List Char
  members : List Member
  deriving DecidableEq, Repr

/-- The member of a line, if it names one. -/
def memberOf (parts : List (List Char)) : Option Member :=
  let username := trim (orEmpty parts[1]?)
  if username = [] then none
  else some
    { username
      displayName := orUndefined (some (trim (orEmpty parts[2]?)))
      password := orUndefined (some (trim (orEmpty parts[3]?))) }

def lowerName (parts : List (List Char)) : List Char := toLowerCase casing (rawTeamName parts)

def newEntry (parts : List (List Char)) : TeamEntry :=
  { originalName := rawTeamName parts, members := [] }

def addMember (entry : TeamEntry) (parts : List (List Char)) : TeamEntry :=
  { entry with members := entry.members ++ (memberOf parts).toList }

/-- The loop over the lines of the mode `with_members`, of which those without a name are skipped. -/
def groupRows (rows : List (List (List Char))) : List (List Char × TeamEntry) :=
  group (lowerName casing) newEntry addMember (rows.filter fun parts => rawTeamName parts ≠ [])

/-- The item of an entry of `teamMap`. -/
def teamItem : List Char × TeamEntry → ParsedTeamItem
  | (lowerKey, data) =>
      if lowerKey ∈ existingTeamNamesSet then
        { name := data.originalName, members := data.members, isValid := false
          validationError := some "Team already exists in contest" }
      else if MAX_MEMBERS_PER_TEAM < data.members.length then
        { name := data.originalName, members := data.members, isValid := false
          validationError := some
            s!"Exceeds max {MAX_MEMBERS_PER_TEAM} members per team ({data.members.length} found)" }
      else { name := data.originalName, members := data.members, isValid := true }

def parseTeamsInput (text : List Char) (mode : BulkTeamMode) : List ParsedTeamItem :=
  let lines := dataLines casing ["team", "name", "username"] (textLines text)
  match mode with
  | .names_only => nameItems casing existingTeamNamesSet ∅ lines
  | .with_members =>
      (groupRows casing (lines.map splitDelimitedLine)).map (teamItem existingTeamNamesSet)

end Teams

/-! ## Records -/

/-- A user of the template without teams. -/
structure TeamlessUser where
  username : Field
  displayName : Field
  password : Field
  named : username.text ≠ []

/-- A user of the template with teams. -/
structure TeamUser where
  username : Field
  displayName : Field
  teamName : Field
  password : Field
  named : username.text ≠ []
  placed : teamName.text ≠ []

/-- A team of the template of names. -/
structure TeamName where
  teamName : Field
  named : teamName.text ≠ []

/-- A member of the template of teams with members. -/
structure TeamMember where
  teamName : Field
  username : Field
  displayName : Field
  password : Field
  placed : teamName.text ≠ []
  named : username.text ≠ []

/-- The modes of the two imports. -/
inductive Import
  | singleTeam
  | withTeams
  | namesOnly
  | withMembers
  deriving DecidableEq, Repr

namespace Import

/-- The first line of the template. -/
def header : Import → List Char
  | singleTeam => "username,display_name,password".toList
  | withTeams => "username,display_name,team_name,password".toList
  | namesOnly => "team_name".toList
  | withMembers => "team_name,username,display_name,password".toList

abbrev Record : Import → Type
  | singleTeam => TeamlessUser
  | withTeams => TeamUser
  | namesOnly => TeamName
  | withMembers => TeamMember

/-- The columns of a record. -/
def fields : (mode : Import) → mode.Record → List Field
  | singleTeam, r => [r.username, r.displayName, r.password]
  | withTeams, r => [r.username, r.displayName, r.teamName, r.password]
  | namesOnly, r => [r.teamName]
  | withMembers, r => [r.teamName, r.username, r.displayName, r.password]

/-- The line of a record. -/
def line (mode : Import) (r : mode.Record) : List Char := recordLine (mode.fields r)

/-- The text holds the records, behind the header if there is one. -/
def Holds (mode : Import) (header : Bool) (records : List mode.Record) (text : List Char) : Prop :=
  Lines ((if header then [mode.header] else []) ++ records.map mode.line) text

end Import

/-! ## The property -/

/-- What a field says, if it is not empty. -/
def given (field : Field) : Option (List Char) := if field.text = [] then none else some field.text

/-- The row of a user, which is valid if there is a team. -/
def userRow (username displayName : Field) (teamName : Option (List Char)) (password : Field) :
    ParsedCsvRow :=
  { username := username.text
    displayName := given displayName
    teamName
    password := given password
    isValid := teamName.isSome
    validationError := if teamName.isSome then none else some "Missing team name" }

def TeamMember.member (r : TeamMember) : Member :=
  { username := r.username.text, displayName := given r.displayName, password := given r.password }

/-- Two teams have the same name if it is the same in lower case. -/
def TeamMember.key (casing : Casing) (r : TeamMember) : List Char := toLowerCase casing r.teamName.text

/-- The teams in the order of their first members, each with the name that its first member has. -/
def teamsOf (casing : Casing) (records : List TeamMember) : List (List Char × List Member) :=
  (firsts (records.map (TeamMember.key casing))).map fun key =>
    let own := records.filter fun r => r.key casing = key
    (orEmpty (own.head?.map fun r => r.teamName.text), own.map TeamMember.member)

def ParsedTeamItem.content (item : ParsedTeamItem) : List Char × List Member := (item.name, item.members)

/-- The line contains a word of a header in lower case. -/
def LooksLikeHeader (casing : Casing) (line : List Char) : Prop :=
  includes (toLowerCase casing line) "team".toList = true ∨
    includes (toLowerCase casing line) "name".toList = true

instance (casing : Casing) (line : List Char) : Decidable (LooksLikeHeader casing line) :=
  inferInstanceAs (Decidable (_ ∨ _))

namespace Import

/-- A text is read as exactly the records, in their order. -/
def Reads (casing : Casing) (singleTeamName : Option (List Char))
    (existingTeamNamesSet : Finset (List Char)) (text : List Char) :
    (mode : Import) → List mode.Record → Prop
  | singleTeam, records => parseCsvInput casing text true singleTeamName
      = records.map fun r : TeamlessUser =>
          userRow r.username r.displayName (orUndefined singleTeamName) r.password
  | withTeams, records => parseCsvInput casing text false singleTeamName
      = records.map fun r : TeamUser =>
          userRow r.username r.displayName (some r.teamName.text) r.password
  | namesOnly, records =>
      (parseTeamsInput casing existingTeamNamesSet text .names_only).map ParsedTeamItem.content
        = records.map fun r : TeamName => (r.teamName.text, [])
  | withMembers, records =>
      (parseTeamsInput casing existingTeamNamesSet text .with_members).map ParsedTeamItem.content
        = teamsOf casing records

/-- The first line is not that of a record that looks like a header. -/
def HeaderSafe (casing : Casing) (mode : Import) (header : Bool) (records : List mode.Record) : Prop :=
  header = true ∨ ∀ r ∈ records.head?, ¬ LooksLikeHeader casing (mode.line r)

end Import

/-! ## Lines that are read -/

section Headers

variable {casing : Casing} {mode : Import} {header : Bool} {records : List mode.Record} {text : List Char}

lemma includes_name_of_username {s : List Char} (h : includes s "username".toList = true) :
    includes s "name".toList = true := includes_trans h (by decide)

lemma any_userWords (line : List Char) :
    (["username", "team", "display_name", "name"].any fun word =>
        includes (toLowerCase casing line) word.toList) = true ↔ LooksLikeHeader casing line := by
  simp only [List.any_cons, List.any_nil, Bool.or_false, Bool.or_eq_true, LooksLikeHeader]
  constructor
  · rintro (husername | hteam | hdisplay | hname)
    · exact .inr (includes_name_of_username husername)
    · exact .inl hteam
    · exact .inr (includes_trans hdisplay (by decide))
    · exact .inr hname
  · rintro (hteam | hname)
    · exact .inr (.inl hteam)
    · exact .inr (.inr (.inr hname))

lemma any_teamWords (line : List Char) :
    (["team", "name", "username"].any fun word =>
        includes (toLowerCase casing line) word.toList) = true ↔ LooksLikeHeader casing line := by
  simp only [List.any_cons, List.any_nil, Bool.or_false, Bool.or_eq_true, LooksLikeHeader]
  constructor
  · rintro (hteam | hname | husername)
    · exact .inl hteam
    · exact .inr hname
    · exact .inr (includes_name_of_username husername)
  · rintro (hteam | hname)
    · exact .inl hteam
    · exact .inr (.inl hname)

lemma looksLikeHeader_header (mode : Import) : LooksLikeHeader casing mode.header := by
  have hascii : mode.header.all (·.toNat < 128) = true := by cases mode <;> decide
  rw [LooksLikeHeader, toLowerCase_of_ascii (by simpa using hascii)]
  cases mode <;> decide

lemma line_ok (r : mode.Record) :
    OneLine (mode.line r) ∧ BlankFree (mode.line r) ∧ mode.line r ≠ [] := by
  cases mode with
  | singleTeam => exact recordLine_ok r.named
  | withTeams => exact recordLine_ok r.named
  | namesOnly => exact recordLine_ok r.named
  | withMembers => exact recordLine_ok r.placed

lemma header_ok (mode : Import) : OneLine mode.header ∧ BlankFree mode.header ∧ mode.header ≠ [] := by
  cases mode <;> decide

/-- The lines of a text of records. -/
lemma textLines_of_holds (h : mode.Holds header records text) :
    textLines text = (if header then [mode.header] else []) ++ records.map mode.line := by
  refine textLines_of_lines h fun line hline => ?_
  obtain hline | hline := List.mem_append.mp hline
  · split_ifs at hline
    · rw [List.mem_singleton.mp hline]
      exact header_ok mode
    · cases hline
  · obtain ⟨r, -, rfl⟩ := List.mem_map.mp hline
    exact line_ok r

/-- **The lines that are read** are those of the records, or all but the first one. -/
theorem dataLines_eq {words : List String}
    (hwords : ∀ line, (words.any fun word => includes (toLowerCase casing line) word.toList) = true
      ↔ LooksLikeHeader casing line) (h : mode.Holds header records text) :
    mode.HeaderSafe casing header records ∧
        dataLines casing words (textLines text) = records.map mode.line ∨
      ¬ mode.HeaderSafe casing header records ∧ records ≠ [] ∧
        dataLines casing words (textLines text) = records.tail.map mode.line := by
  rw [textLines_of_holds h]
  cases header with
  | true =>
      have hheader := (hwords mode.header).mpr (looksLikeHeader_header mode)
      exact .inl ⟨.inl rfl, by simp [dataLines, hheader]⟩
  | false =>
      cases records with
      | nil => exact .inl ⟨.inr (by simp), rfl⟩
      | cons r records =>
          by_cases hlooks : LooksLikeHeader casing (mode.line r)
          · refine .inr ⟨?_, List.cons_ne_nil _ _, ?_⟩
            · simpa [Import.HeaderSafe] using hlooks
            · simp [dataLines, (hwords (mode.line r)).mpr hlooks]
          · have hword := mt (hwords (mode.line r)).mp hlooks
            refine .inl ⟨.inr (by simpa using hlooks), ?_⟩
            rw [Bool.not_eq_true] at hword
            simp [dataLines, hword]

/-- What is read is what is expected of the records exactly where no line is left out, if the records can
be counted in what is expected. -/
lemma reads_iff {γ : Type} {words : List String} (result : List (List Char) → γ)
    {expected : List mode.Record → γ} (count : γ → ℕ)
    (hwords : ∀ line, (words.any fun word => includes (toLowerCase casing line) word.toList) = true
      ↔ LooksLikeHeader casing line)
    (hresult : ∀ records : List mode.Record, result (records.map mode.line) = expected records)
    (hcount : ∀ records : List mode.Record, count (expected records) = records.length)
    (h : mode.Holds header records text) :
    result (dataLines casing words (textLines text)) = expected records
      ↔ mode.HeaderSafe casing header records := by
  obtain ⟨hsafe, hlines⟩ | ⟨hsafe, hne, hlines⟩ := dataLines_eq hwords h
  · rw [hlines, hresult]
    exact iff_of_true rfl hsafe
  · rw [hlines, hresult]
    refine iff_of_false (fun heq => ?_) hsafe
    have hlength := congrArg count heq
    rw [hcount, hcount, List.length_tail] at hlength
    have hpos := List.length_pos_of_ne_nil hne
    omega

end Headers

/-! ## Users -/

section UserRows

variable {singleTeamName : Option (List Char)}

lemma orUndefined_field (field : Field) : orUndefined (some field.text) = given field := by
  by_cases h : field.text = [] <;> simp [orUndefined, given, h]

lemma checkedRow_eq {username : List Char} (displayName teamName password : Option (List Char))
    (h : username ≠ []) : checkedRow username displayName teamName password
      = { username
          displayName := orUndefined displayName
          teamName := orUndefined teamName
          password := orUndefined password
          isValid := (orUndefined teamName).isSome
          validationError :=
            if (orUndefined teamName).isSome then none else some "Missing team name" } := by
  cases hteam : orUndefined teamName <;> simp [checkedRow, h, hteam]

lemma parseRow_singleTeam (r : TeamlessUser) :
    parseRow true singleTeamName (Import.line .singleTeam r)
      = userRow r.username r.displayName (orUndefined singleTeamName) r.password := by
  have hparts : splitDelimitedLine (Import.line .singleTeam r)
      = [r.username.text, r.displayName.text, r.password.text] :=
    splitDelimitedLine_record (List.cons_ne_nil _ _)
  rw [parseRow, hparts]
  simp only [if_true, List.getElem?_cons_zero, List.getElem?_cons_succ, orEmpty, Option.getD_some]
  rw [checkedRow_eq _ _ _ r.named, orUndefined_field, orUndefined_field, userRow]

lemma parseRow_withTeams (r : TeamUser) :
    parseRow false singleTeamName (Import.line .withTeams r)
      = userRow r.username r.displayName (some r.teamName.text) r.password := by
  have hparts : splitDelimitedLine (Import.line .withTeams r)
      = [r.username.text, r.displayName.text, r.teamName.text, r.password.text] :=
    splitDelimitedLine_record (List.cons_ne_nil _ _)
  have hteam : given r.teamName = some r.teamName.text := if_neg r.placed
  rw [parseRow, hparts]
  simp only [List.getElem?_cons_zero, List.getElem?_cons_succ, orEmpty, Option.getD_some,
    List.length_cons, List.length_nil, Bool.false_eq_true, if_false]
  rw [if_pos (by omega), checkedRow_eq _ _ _ r.named, orUndefined_field, orUndefined_field,
    orUndefined_field, hteam, userRow]

/-- Users are read line by line. -/
lemma parseCsvInput_iff {casing : Casing} {mode : Import} {header isSingleTeamMode : Bool}
    {records : List mode.Record} {text : List Char} {row : mode.Record → ParsedCsvRow}
    (hrow : ∀ r, parseRow isSingleTeamMode singleTeamName (mode.line r) = row r)
    (h : mode.Holds header records text) :
    parseCsvInput casing text isSingleTeamMode singleTeamName = records.map row
      ↔ mode.HeaderSafe casing header records := by
  refine reads_iff (fun lines => lines.map (parseRow isSingleTeamMode singleTeamName)) List.length
    any_userWords (fun records => ?_) (fun records => List.length_map _) h
  rw [List.map_map]
  exact List.map_congr_left fun r _ => hrow r

end UserRows

/-! ## Teams -/

section TeamItems

variable {casing : Casing} {existingTeamNamesSet : Finset (List Char)}

lemma rawTeamName_cons (field : Field) (parts : List (List Char)) :
    rawTeamName (field.text :: parts) = field.text := trim_of_blankFree field.blankFree

/-- Every name has its item, whatever was before it. -/
lemma nameItems_content (seenInFile : Finset (List Char)) (records : List TeamName) :
    (nameItems casing existingTeamNamesSet seenInFile (records.map Import.namesOnly.line)).map
        ParsedTeamItem.content
      = records.map fun r => (r.teamName.text, []) := by
  induction records generalizing seenInFile with
  | nil => rfl
  | cons r records ih =>
      have hparts : splitDelimitedLine (Import.line .namesOnly r) = [r.teamName.text] :=
        splitDelimitedLine_record (List.cons_ne_nil _ _)
      rw [List.map_cons, List.map_cons, nameItems, hparts, rawTeamName_cons]
      simp only [if_neg r.named]
      split_ifs <;> rw [List.map_cons, ih] <;> rfl

lemma teamItem_content (e : List Char × TeamEntry) :
    (teamItem existingTeamNamesSet e).content = (e.2.originalName, e.2.members) := by
  obtain ⟨key, data⟩ := e
  rw [teamItem]
  split_ifs <;> rfl

/-- The fields of a line with a member. -/
def TeamMember.parts (r : TeamMember) : List (List Char) :=
  [r.teamName.text, r.username.text, r.displayName.text, r.password.text]

lemma memberOf_parts (r : TeamMember) : memberOf r.parts = some r.member := by
  have hfield : ∀ field : Field, orUndefined (some (trim field.text)) = given field := fun field => by
    rw [trim_of_blankFree field.blankFree, orUndefined_field]
  simp only [memberOf, TeamMember.parts, TeamMember.member, List.getElem?_cons_zero,
    List.getElem?_cons_succ, orEmpty, Option.getD_some, hfield, trim_of_blankFree r.username.blankFree,
    if_neg r.named]

/-- The entry that the lines of a team leave. -/
def entryOf (rows : List (List (List Char))) : TeamEntry :=
  { originalName := orEmpty (rows.head?.map rawTeamName), members := rows.filterMap memberOf }

lemma entryOf_first (parts : List (List Char)) : entryOf [parts] = addMember (newEntry parts) parts := by
  cases hmember : memberOf parts <;> simp [entryOf, addMember, newEntry, orEmpty, hmember]

lemma entryOf_next (rows : List (List (List Char))) (parts : List (List Char)) (hne : rows ≠ []) :
    entryOf (rows ++ [parts]) = addMember (entryOf rows) parts := by
  have hmembers : (rows ++ [parts]).filterMap memberOf
      = rows.filterMap memberOf ++ (memberOf parts).toList := by
    rw [List.filterMap_append]
    cases hmember : memberOf parts <;> simp [hmember]
  rw [entryOf, hmembers, List.head?_append_of_ne_nil _ hne]
  rfl

lemma entryOf_records (records : List TeamMember) :
    entryOf (records.map TeamMember.parts)
      = { originalName := orEmpty (records.head?.map fun r => r.teamName.text)
          members := records.map TeamMember.member } := by
  have hmembers : (records.map TeamMember.parts).filterMap memberOf = records.map TeamMember.member := by
    rw [List.filterMap_map]
    exact List.filterMap_eq_map_iff_forall_eq_some.mpr fun r _ => memberOf_parts r
  rw [entryOf, hmembers]
  cases records with
  | nil => rfl
  | cons r records => simp [TeamMember.parts, rawTeamName_cons]

/-- **The teams of the lines** are those of the records. -/
theorem groupRows_eq (records : List TeamMember) :
    (groupRows casing (records.map TeamMember.parts)).map (fun e => (e.2.originalName, e.2.members))
      = teamsOf casing records := by
  have hall : (records.map TeamMember.parts).filter (fun parts => rawTeamName parts ≠ [])
      = records.map TeamMember.parts := by
    rw [List.filter_eq_self, List.forall_mem_map]
    intro r _
    simpa [TeamMember.parts, rawTeamName_cons] using r.placed
  have hkey : lowerName casing ∘ TeamMember.parts = TeamMember.key casing := by
    funext r
    rw [Function.comp_apply, lowerName, TeamMember.parts, rawTeamName_cons, TeamMember.key]
  rw [groupRows, hall, group_eq entryOf_first entryOf_next, List.map_map, List.map_map, hkey, teamsOf]
  refine List.map_congr_left fun key _ => ?_
  have hown : (records.map TeamMember.parts).filter (fun parts => lowerName casing parts = key)
      = (records.filter fun r => r.key casing = key).map TeamMember.parts := by
    rw [List.filter_map]
    congr 1
    exact List.filter_congr fun r _ => by
      rw [Function.comp_apply, ← hkey, Function.comp_apply]
  rw [Function.comp_apply, hown, entryOf_records]

/-- Every record is a member of one team. -/
lemma length_teamsOf (records : List TeamMember) :
    ((teamsOf casing records).map fun team => team.2.length).sum = records.length := by
  rw [← (flatMap_filter_perm (TeamMember.key casing) records).length_eq, List.length_flatMap, teamsOf,
    List.map_map]
  congr 1
  exact List.map_congr_left fun key _ => List.length_map _

end TeamItems

/-! ## Imports -/

/-- **What the imports read**: a text of records, with or without the header of its template, is read as
exactly the records in their order where no record is taken for a header. -/
theorem imports_read_iff (casing : Casing) (singleTeamName : Option (List Char))
    (existingTeamNamesSet : Finset (List Char)) (mode : Import) (header : Bool)
    (records : List mode.Record) (text : List Char) (h : mode.Holds header records text) :
    mode.Reads casing singleTeamName existingTeamNamesSet text records
      ↔ mode.HeaderSafe casing header records := by
  cases mode with
  | singleTeam => exact parseCsvInput_iff parseRow_singleTeam h
  | withTeams => exact parseCsvInput_iff parseRow_withTeams h
  | namesOnly =>
      exact reads_iff (fun lines =>
          (nameItems casing existingTeamNamesSet ∅ lines).map ParsedTeamItem.content) List.length
        any_teamWords (nameItems_content ∅) (fun records => List.length_map _) h
  | withMembers =>
      refine reads_iff (fun lines =>
          ((groupRows casing (lines.map splitDelimitedLine)).map
            (teamItem existingTeamNamesSet)).map ParsedTeamItem.content)
        (fun teams => (teams.map fun team => team.2.length).sum) any_teamWords (fun records => ?_)
        length_teamsOf h
      have hparts : (records.map Import.withMembers.line).map splitDelimitedLine
          = records.map TeamMember.parts := by
        rw [List.map_map]
        exact List.map_congr_left fun r _ => splitDelimitedLine_record (List.cons_ne_nil _ _)
      rw [hparts, List.map_map, ← groupRows_eq]
      exact List.map_congr_left fun e _ => teamItem_content e

/-- A text without line breaks, tabs and blanks around it as a field. -/
def fieldOf (text : String) (h : OneLine text.toList ∧ '\t' ∉ text.toList ∧ BlankFree text.toList) :
    Field :=
  { text := text.toList, oneLine := h.1, noTab := h.2.1, blankFree := h.2.2 }

def quotedUser : TeamUser :=
  { username := fieldOf "alice" (by decide)
    displayName := fieldOf "Walker, \"Al\" Alice" (by decide)
    teamName := fieldOf "Alpha" (by decide)
    password := fieldOf "" (by decide)
    named := by decide
    placed := by decide }

/-- A user with a quoted field, in a text without a header. -/
theorem imports_read_quoted :
    Import.Reads asciiOnly none ∅ "alice,\"Walker, \"\"Al\"\" Alice\",Alpha,\r\n".toList .withTeams
        [quotedUser] := by
  have htext : Import.withTeams.Holds false [quotedUser]
      "alice,\"Walker, \"\"Al\"\" Alice\",Alpha,\r\n".toList :=
    .cons (Import.withTeams.line quotedUser) .crlf .nil
  exact (imports_read_iff asciiOnly none ∅ .withTeams false [quotedUser] _ htext).mpr
    (.inr (by decide))

def teamOf (text : String) (h : OneLine text.toList ∧ '\t' ∉ text.toList ∧ BlankFree text.toList)
    (hne : text.toList ≠ []) : TeamName :=
  { teamName := fieldOf text h, named := hne }

/-- The three teams that the dialog shows as an example. -/
def threeTeams : List TeamName :=
  [teamOf "Team Alpha" (by decide) (by decide), teamOf "Team Beta" (by decide) (by decide),
    teamOf "Team Gamma" (by decide) (by decide)]

/-- The first of the three teams is taken for a header. -/
theorem imports_drop :
    Import.namesOnly.Holds false threeTeams "Team Alpha\nTeam Beta\nTeam Gamma".toList ∧
      ¬ Import.Reads asciiOnly none ∅ "Team Alpha\nTeam Beta\nTeam Gamma".toList .namesOnly
          threeTeams := by
  constructor
  · exact .cons "Team Alpha".toList .lf (.cons "Team Beta".toList .lf (.last "Team Gamma".toList))
  · intro hread
    have hlost : (parseTeamsInput asciiOnly ∅ "Team Alpha\nTeam Beta\nTeam Gamma".toList
        .names_only).map ParsedTeamItem.content
          = [("Team Beta".toList, []), ("Team Gamma".toList, [])] := by decide
    have hlength := congrArg List.length (hlost.symm.trans hread)
    cases hlength

end Roster

end Labyrithm
