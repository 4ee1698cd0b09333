import AzHop.Config
/-!
# Users and groups in the templates

The playbooks select the groups of a user, and the groups az-hop gives a
meaning to, from the list `usergroups`. Most of them look a group up by its
gid, as the configuration file announces: names may change, gids may not. The
two templates that write a user's CycleCloud record look for a name instead;
`superusers_iff` says when that comes to the same.
-/
namespace AzHop

/-! ## Selections -/

/-- `user.groups | default([], true)`. -/
def User.gids (u : User) : List Int := u.groups.getD []

/-- `usergroups | selectattr('gid', 'in', (user.groups | default([], true)))`. -/
def memberships (usergroups : List Usergroup) (u : User) : List Usergroup :=
  usergroups.filter fun g => g.gid ∈ u.gids

/-- `(usergroups | selectattr('gid', 'eq', gid) | map(attribute='name'))[0] | default(name, true)`. -/
def groupName (usergroups : List Usergroup) (gid : Int) (default : String) : String :=
  match ((usergroups.filter fun g => g.gid = gid).map (·.name))[0]? with
  | some name => if name = "" then default else name
  | none => default

/-- `selectattr('name', 'match', pattern)` for a pattern without special
characters: the name starts with it. -/
def nameMatches (pattern : String) (g : Usergroup) : Bool := pattern.toList.isPrefixOf g.name.toList

/-! ## CycleCloud records -/

structure UserRecord where
  AdType : String
  Name : String
  Authentication : String
  Roles : List String
  Superuser : Bool
  UID : Int
  RawPassword : Option String := none

/-- The fields both templates have. -/
def authenticatedUser (Authentication : String) (RawPassword : Option String) (usergroups : List Usergroup)
    (user : User) : UserRecord :=
  let base : UserRecord :=
    { AdType := "AuthenticatedUser", Name := user.name, Authentication, Roles := ["User"], Superuser := false,
      UID := user.uid, RawPassword }
  if 0 < (((memberships usergroups user).filter (nameMatches "azhop-admins")).map (·.name)).length then
    { base with Roles := ["Administrator"], Superuser := true }
  else base

/-- `user_record.txt.j2`: one file with a record for each user. -/
def user_record (usergroups : List Usergroup) (users : List User) : List UserRecord :=
  users.map (authenticatedUser "active_directory" none usergroups)

/-- `local_user_record.txt.j2`: a file for one user. -/
def local_user_record (usergroups : List Usergroup) (password : String) (user : User) : UserRecord :=
  authenticatedUser "internal" password usergroups user

/-! ## Superusers -/

/-- The gid of the administrators. -/
def adminGid : Int := 5001

/-- Both variants make superusers of exactly the members of the group of administrators. -/
structure SuperusersRight (users : List User) (usergroups : List Usergroup) (password : User → String) : Prop where
  ad : (user_record usergroups users).map (·.Superuser) = users.map fun u => decide (adminGid ∈ u.gids)
  «local» : ∀ u ∈ users, (local_user_record usergroups (password u) u).Superuser = true ↔ adminGid ∈ u.gids

/-- A group with this gid has a name that starts like the one of the administrators. -/
def AdminNamed (usergroups : List Usergroup) (gid : Int) : Prop :=
  ∃ g ∈ usergroups, g.gid = gid ∧ nameMatches "azhop-admins" g = true

theorem mem_memberships {usergroups : List Usergroup} {u : User} {g : Usergroup} :
    g ∈ memberships usergroups u ↔ g ∈ usergroups ∧ g.gid ∈ u.gids := by
  simp [memberships]

/-- A record is a superuser's when the user has the gid of a group with the right name. -/
theorem superuser_iff (Authentication : String) (RawPassword : Option String) (usergroups : List Usergroup) (u : User) :
    (authenticatedUser Authentication RawPassword usergroups u).Superuser = true ↔
      ∃ gid ∈ u.gids, AdminNamed usergroups gid := by
  have hcount : 0 < (((memberships usergroups u).filter (nameMatches "azhop-admins")).map (·.name)).length ↔
      ∃ g ∈ memberships usergroups u, nameMatches "azhop-admins" g = true := by
    rw [List.length_map, List.length_pos_iff_exists_mem]
    simp only [List.mem_filter]
  have hrec : (authenticatedUser Authentication RawPassword usergroups u).Superuser = true ↔
      0 < (((memberships usergroups u).filter (nameMatches "azhop-admins")).map (·.name)).length := by
    unfold authenticatedUser
    dsimp only
    split
    · rename_i h
      exact iff_of_true rfl h
    · rename_i h
      exact iff_of_false Bool.false_ne_true h
  rw [hrec, hcount]
  constructor
  · rintro ⟨g, hg, hname⟩
    obtain ⟨hmem, hgid⟩ := mem_memberships.1 hg
    exact ⟨g.gid, hgid, g, hmem, rfl, hname⟩
  · rintro ⟨gid, hgid, g, hmem, rfl, hname⟩
    exact ⟨g, mem_memberships.2 ⟨hmem, hgid⟩, hname⟩

/-- The records of a list of users are those of its members. -/
theorem superusersRight_iff {users : List User} {usergroups : List Usergroup} {password : User → String} :
    SuperusersRight users usergroups password ↔
      ∀ u ∈ users, (∃ gid ∈ u.gids, AdminNamed usergroups gid) ↔ adminGid ∈ u.gids := by
  constructor
  · intro h u hu
    rw [← h.local u hu]
    exact (superuser_iff _ _ usergroups u).symm
  · intro h
    refine ⟨?_, fun u hu => (superuser_iff _ _ usergroups u).trans (h u hu)⟩
    unfold user_record
    rw [List.map_map]
    refine List.map_congr_left fun u hu => ?_
    rw [Bool.eq_iff_iff, decide_eq_true_eq]
    exact (superuser_iff _ _ usergroups u).trans (h u hu)

/-- The templates are right for every list of users when the gid of the
administrators, and no other, has a group with a name that starts like theirs. -/
theorem superusersRight_all_iff {usergroups : List Usergroup} :
    (∀ users password, SuperusersRight users usergroups password) ↔
      ∀ gid, AdminNamed usergroups gid ↔ gid = adminGid := by
  constructor
  · intro h gid
    have hu := superusersRight_iff.1 (h [{ name := "user", uid := 10001, groups := some [gid] }] fun _ => "")
      _ List.mem_cons_self
    simpa [User.gids, eq_comm] using hu
  · intro h users password
    refine superusersRight_iff.2 fun u _ => ?_
    constructor
    · rintro ⟨gid, hgid, hnamed⟩
      rw [← (h gid).1 hnamed]
      exact hgid
    · intro hgid
      exact ⟨adminGid, hgid, (h adminGid).2 rfl⟩

/-- What the name decides is what the gid decides for these users, and for all users. -/
theorem superusers_iff (usergroups : List Usergroup) :
    (∀ users password, SuperusersRight users usergroups password ↔
      ∀ u ∈ users, (∃ gid ∈ u.gids, AdminNamed usergroups gid) ↔ adminGid ∈ u.gids) ∧
    ((∀ users password, SuperusersRight users usergroups password) ↔
      ∀ gid, AdminNamed usergroups gid ↔ gid = adminGid) :=
  ⟨fun _ _ => superusersRight_iff, superusersRight_all_iff⟩

def alice (gid : Int) : User := { name := "alice", uid := 10001, groups := some [gid] }

/-- A renamed group of administrators makes no superuser, and a group whose
name starts like theirs does. -/
theorem renamed_admins : ¬ SuperusersRight [alice 5001] [⟨"hpc-admins", 5001⟩] (fun _ => "") ∧
    ¬ SuperusersRight [alice 6000] [⟨"azhop-admins-readonly", 6000⟩] (fun _ => "") := by
  constructor
  · intro h
    have hiff := h.local (alice 5001) List.mem_cons_self
    have hnot : ¬ ((local_user_record [⟨"hpc-admins", 5001⟩] "" (alice 5001)).Superuser = true ↔
        adminGid ∈ (alice 5001).gids) := by decide
    exact hnot hiff
  · intro h
    have hiff := h.local (alice 6000) List.mem_cons_self
    have hnot : ¬ ((local_user_record [⟨"azhop-admins-readonly", 6000⟩] "" (alice 6000)).Superuser = true ↔
        adminGid ∈ (alice 6000).gids) := by decide
    exact hnot hiff

end AzHop
