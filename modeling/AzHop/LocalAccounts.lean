import AzHop.Users
import Mathlib.Data.List.Nodup
import Mathlib.Tactic.ByContra
/-!
# Local accounts

With local users the accounts are made twice: `add_local_users.yml` makes them
with Ansible's `group` and `user` modules on the scheduler, on OnDemand and on
grafana, and `add_localusers` of `3-joindomain.sh` makes them with `groupadd`,
`useradd` and `usermod` on the compute nodes. `local_accounts_iff` compares
the accounts of a user on two such nodes.

The names of groups and users are taken to be single words. `useradd` without
`-g` gives the account a group of its own name, as `USERGROUPS_ENAB yes` in
`/etc/login.defs` says on the images az-hop uses.
-/
namespace AzHop.LocalAccounts

/-- An account by its names; `groups` are the supplementary ones. -/
structure Account where
  name : String
  uid : Int
  group : String
  groups : List String
  home : String
  shell : String

structure Node where
  groups : List Usergroup
  accounts : List Account

def Node.hasGroup (n : Node) (name : String) : Bool := n.groups.any (·.name = name)

def Node.hasGid (n : Node) (gid : Int) : Bool := n.groups.any (·.gid = gid)

def Node.hasUid (n : Node) (uid : Int) : Bool := n.accounts.any (·.uid = uid)

def Node.account? (n : Node) (name : String) : Option Account := n.accounts.find? (·.name = name)

/-- A gid no group has. -/
def Node.freeGid (n : Node) : Int := n.groups.foldr (fun g m => max g.gid m) 0 + 1

/-! ## The values both get -/

/-- The name of the group of all users. -/
def usersGroup (c : AzhopConfig) : String := groupName c.usergroups 5000 "azhop-users"

def groupsOf (c : AzhopConfig) (u : User) : List String := (memberships c.usergroups u).map (·.name)

/-- `homedir_mountpoint` is `mounts.home.mountpoint` in the variables of both backends. -/
def homeOf (c : AzhopConfig) (u : User) : String := c.mounts.home.mountpoint ++ "/" ++ u.name

def shellOf (u : User) : String := u.shell.getD "/bin/bash"

/-! ## Ansible -/

/-- The module `group`, which fails when another group has the gid. -/
def groupModule (g : Usergroup) (n : Node) : Option Node :=
  if n.groups.any fun g' => g'.name = g.name && g'.gid = g.gid then some n
  else if n.hasGid g.gid then none
  else if n.hasGroup g.name then
    some { n with groups := n.groups.map fun g' => if g'.name = g.name then g else g' }
  else some { n with groups := n.groups ++ [g] }

/-- The module `user`, which fails when a group is missing or another account has the uid. -/
def userModule (a : Account) (n : Node) : Option Node :=
  if (a.group :: a.groups).all n.hasGroup then
    if (n.account? a.name).isSome then
      some { n with accounts := n.accounts.map fun b => if b.name = a.name then a else b }
    else if n.hasUid a.uid then none
    else some { n with accounts := n.accounts ++ [a] }
  else none

/-- The account `create_local_user.yml` asks for. -/
def localUser (c : AzhopConfig) (u : User) : Account where
  name := u.name
  uid := u.uid
  group := usersGroup c
  groups := groupsOf c u
  home := homeOf c u
  shell := shellOf u

/-- A host that fails a task runs no other. -/
def play (tasks : List (Node → Option Node)) (n : Node) : Node :=
  match tasks with
  | [] => n
  | task :: tasks =>
    match task n with
    | some n' => play tasks n'
    | none => n

/-- `add_local_users.yml`. -/
def add_local_users (c : AzhopConfig) (n : Node) : Node :=
  play (c.usergroups.map groupModule ++ c.users.map fun u => userModule (localUser c u)) n

/-! ## The script -/

/-- `groupadd -f -g <gid> "<name>"`: `-f` accepts a name that exists, and takes another gid for one that is used. -/
def groupadd (n : Node) (g : Usergroup) : Node :=
  if n.hasGroup g.name then n
  else { n with groups := n.groups ++ [if n.hasGid g.gid then { g with gid := n.freeGid } else g] }

/-- `useradd -u <uid> <name> -G "<group>" -b <base> -s <shell>`. -/
def useradd (c : AzhopConfig) (n : Node) (u : User) : Node :=
  -- a name or a uid in use, a missing group, or a group of the user's name: the command fails
  if (n.account? u.name).isSome || n.hasUid u.uid || !n.hasGroup (usersGroup c) || n.hasGroup u.name then n
  else
    { groups := n.groups ++ [⟨u.name, if n.hasGid u.uid then n.freeGid else u.uid⟩]
      accounts := n.accounts ++
        [{ name := u.name, uid := u.uid, group := u.name, groups := [usersGroup c],
           home := homeOf c u, shell := shellOf u }] }

/-- `usermod -a -G <grouplist> <name>`. -/
def usermod (grouplist : List String) (n : Node) (name : String) : Node :=
  if grouplist.all n.hasGroup then
    { n with accounts := n.accounts.map fun a => if a.name = name then { a with groups := a.groups ++ grouplist } else a }
  else n

def add_localuser (c : AzhopConfig) (n : Node) (u : User) : Node :=
  let n' := useradd c n u
  if String.intercalate "," (groupsOf c u) ≠ "" then usermod (groupsOf c u) n' u.name else n'

/-- `add_localusers`. The script goes on after a command that fails. -/
def add_localusers (c : AzhopConfig) (n : Node) : Node :=
  c.users.foldl (add_localuser c) (c.usergroups.foldl groupadd n)

/-! ## The comparison -/

structure SameAccount (a b : Account) : Prop where
  uid : a.uid = b.uid
  group : a.group = b.group
  groups : ∀ g, g ∈ a.groups ↔ g ∈ b.groups
  home : a.home = b.home
  shell : a.shell = b.shell

/-- Every user ends up with the same account on both nodes. -/
def SameAccounts (c : AzhopConfig) (server compute : Node) : Prop :=
  ∀ u ∈ c.users, ∃ a b, (add_local_users c server).account? u.name = some a ∧
    (add_localusers c compute).account? u.name = some b ∧ SameAccount a b

/-- A node that has no account of a user yet. -/
def Fresh (c : AzhopConfig) (n : Node) : Prop := ∀ a ∈ n.accounts, ∀ u ∈ c.users, a.name ≠ u.name

theorem account?_mem {n : Node} {name : String} {a : Account} (h : n.account? name = some a) :
    a ∈ n.accounts ∧ a.name = name := by
  refine ⟨List.mem_of_find?_eq_some h, ?_⟩
  have := List.find?_some h
  simpa using this

variable {c : AzhopConfig}

/-! ## What Ansible leaves -/

/-- The accounts are those of before and those asked for. -/
def Asked (c : AzhopConfig) (n₀ n : Node) : Prop := ∀ a ∈ n.accounts, a ∈ n₀.accounts ∨ ∃ u ∈ c.users, a = localUser c u

theorem groupModule_accounts {g : Usergroup} {n n' : Node} (h : groupModule g n = some n') : n'.accounts = n.accounts := by
  unfold groupModule at h
  split at h
  · cases h
    rfl
  · split at h
    · cases h
    · split at h <;> cases h <;> rfl

theorem userModule_asked {n₀ n n' : Node} (hn : Asked c n₀ n) {u : User} (hu : u ∈ c.users)
    (h : userModule (localUser c u) n = some n') : Asked c n₀ n' := by
  unfold userModule at h
  split at h
  · split at h
    · cases h
      intro a ha
      obtain ⟨b, hb, rfl⟩ := List.mem_map.1 ha
      by_cases hname : b.name = (localUser c u).name
      · rw [if_pos hname]
        exact Or.inr ⟨u, hu, rfl⟩
      · rw [if_neg hname]
        exact hn b hb
    · split at h
      · cases h
      · cases h
        intro a ha
        rcases List.mem_append.1 ha with ha | ha
        · exact hn a ha
        · exact Or.inr ⟨u, hu, List.mem_singleton.1 ha⟩
  · cases h

/-- A play keeps what each of its tasks keeps. -/
theorem play_inv {P : Node → Prop} {tasks : List (Node → Option Node)}
    (h : ∀ task ∈ tasks, ∀ n n', P n → task n = some n' → P n') : ∀ {n : Node}, P n → P (play tasks n) := by
  induction tasks with
  | nil => exact fun hn => hn
  | cons task tasks ih =>
    intro n hn
    unfold play
    split
    · rename_i n' ht
      exact ih (fun t hm => h t (List.mem_cons_of_mem task hm)) (h task List.mem_cons_self n n' hn ht)
    · exact hn

theorem add_local_users_asked (c : AzhopConfig) (n : Node) : Asked c n (add_local_users c n) := by
  refine play_inv (P := Asked c n) (fun task ht m m' hm hrun => ?_) fun a ha => Or.inl ha
  rcases List.mem_append.1 ht with ht | ht
  · obtain ⟨g, -, rfl⟩ := List.mem_map.1 ht
    intro a ha
    rw [groupModule_accounts hrun] at ha
    exact hm a ha
  · obtain ⟨u, hu, rfl⟩ := List.mem_map.1 ht
    exact userModule_asked hm hu hrun

/-! ## What the script leaves -/

/-- An account `useradd` made for a user, whatever groups were added later. -/
structure Useradded (c : AzhopConfig) (u : User) (a : Account) : Prop where
  name : a.name = u.name
  uid : a.uid = u.uid
  group : a.group = u.name
  users_group : usersGroup c ∈ a.groups
  /-- The group of all users was there, the user's own was not. -/
  own : u.name ≠ usersGroup c
  home : a.home = homeOf c u
  shell : a.shell = shellOf u

def Added (c : AzhopConfig) (n₀ n : Node) : Prop := ∀ a ∈ n.accounts, a ∈ n₀.accounts ∨ ∃ u ∈ c.users, Useradded c u a

theorem groupadd_accounts (n : Node) (g : Usergroup) : (groupadd n g).accounts = n.accounts := by
  unfold groupadd
  split <;> rfl

theorem groupadds_accounts (gs : List Usergroup) : ∀ n : Node, (gs.foldl groupadd n).accounts = n.accounts := by
  induction gs with
  | nil => exact fun _ => rfl
  | cons g gs ih => exact fun n => (ih _).trans (groupadd_accounts n g)

theorem useradd_added {n₀ n : Node} (hn : Added c n₀ n) {u : User} (hu : u ∈ c.users) : Added c n₀ (useradd c n u) := by
  unfold useradd
  split
  · exact hn
  · rename_i hok
    simp only [Bool.or_eq_true, Bool.not_eq_true', not_or, Bool.not_eq_true, Bool.not_eq_false] at hok
    obtain ⟨⟨-, hgroup⟩, hown⟩ := hok
    intro a ha
    rcases List.mem_append.1 ha with ha | ha
    · exact hn a ha
    · rw [List.mem_singleton.1 ha]
      refine Or.inr ⟨u, hu, rfl, rfl, rfl, List.mem_singleton_self _, fun he => ?_, rfl, rfl⟩
      rw [he, hgroup] at hown
      cases hown

theorem usermod_added {n₀ n : Node} (hn : Added c n₀ n) (hf : Fresh c n₀) {u : User} (hu : u ∈ c.users)
    (grouplist : List String) : Added c n₀ (usermod grouplist n u.name) := by
  unfold usermod
  split
  · intro a ha
    obtain ⟨b, hb, rfl⟩ := List.mem_map.1 ha
    by_cases hname : b.name = u.name
    · rw [if_pos hname]
      rcases hn b hb with hold | ⟨w, hw, ha⟩
      · exact absurd hname (hf b hold u hu)
      · exact Or.inr ⟨w, hw, ha.name, ha.uid, ha.group, List.mem_append_left _ ha.users_group, ha.own, ha.home, ha.shell⟩
    · rw [if_neg hname]
      exact hn b hb
  · exact hn

theorem add_localuser_added {n₀ n : Node} (hn : Added c n₀ n) (hf : Fresh c n₀) {u : User} (hu : u ∈ c.users) :
    Added c n₀ (add_localuser c n u) := by
  unfold add_localuser
  dsimp only
  split
  · exact usermod_added (useradd_added hn hu) hf hu _
  · exact useradd_added hn hu

theorem add_localusers_added {n : Node} (hf : Fresh c n) : Added c n (add_localusers c n) := by
  have hloop : ∀ (us : List User), (∀ u ∈ us, u ∈ c.users) → ∀ m, Added c n m → Added c n (us.foldl (add_localuser c) m) := by
    intro us
    induction us with
    | nil => exact fun _ m hm => hm
    | cons u us ih =>
      intro hus m hm
      exact ih (fun w hw => hus w (List.mem_cons_of_mem u hw)) _ (add_localuser_added hm hf (hus u List.mem_cons_self))
  refine hloop c.users (fun _ h => h) _ fun a ha => ?_
  rw [groupadds_accounts] at ha
  exact Or.inl ha

/-! ## The two accounts of a user -/

/-- What the two accounts of one user have in common, and what not. -/
structure Compared (c : AzhopConfig) (a b : Account) : Prop where
  uid : a.uid = b.uid
  home : a.home = b.home
  shell : a.shell = b.shell
  server_group : a.group = usersGroup c
  compute_group : b.group = b.name
  group_ne : a.group ≠ b.group
  users_group : usersGroup c ∈ b.groups

theorem user_eq_of_name (hnodup : (c.users.map (·.name)).Nodup) {u w : User} (hu : u ∈ c.users) (hw : w ∈ c.users)
    (h : w.name = u.name) : w = u :=
  List.inj_on_of_nodup_map hnodup hw hu h

theorem compared {server compute : Node} (hs : Fresh c server) (hc : Fresh c compute)
    (hnodup : (c.users.map (·.name)).Nodup) {u : User} (hu : u ∈ c.users) {a b : Account}
    (ha : (add_local_users c server).account? u.name = some a)
    (hb : (add_localusers c compute).account? u.name = some b) : Compared c a b := by
  obtain ⟨ham, han⟩ := account?_mem ha
  obtain ⟨hbm, hbn⟩ := account?_mem hb
  obtain ⟨w, hw, rfl⟩ := (add_local_users_asked c server a ham).resolve_left fun hold => hs a hold u hu han
  obtain ⟨w', hw', hadd⟩ := (add_localusers_added hc b hbm).resolve_left fun hold => hc b hold u hu hbn
  have hwu : w = u := user_eq_of_name hnodup hu hw han
  have hwu' : w' = u := user_eq_of_name hnodup hu hw' (hadd.name.symm.trans hbn)
  subst hwu
  subst hwu'
  refine ⟨hadd.uid.symm, hadd.home.symm, hadd.shell.symm, rfl, hadd.group.trans hadd.name.symm, ?_, hadd.users_group⟩
  rw [hadd.group]
  exact hadd.own.symm

/-- Both nodes give a user the same uid, home and shell but another primary
group, so that the accounts are the same for an empty list of users only. -/
theorem local_accounts_iff {server compute : Node} (hs : Fresh c server) (hc : Fresh c compute)
    (hnodup : (c.users.map (·.name)).Nodup) :
    (SameAccounts c server compute ↔ c.users = []) ∧
    ∀ u ∈ c.users, ∀ a b, (add_local_users c server).account? u.name = some a →
      (add_localusers c compute).account? u.name = some b → Compared c a b := by
  refine ⟨⟨fun h => ?_, fun h u hu => ?_⟩, fun u hu a b ha hb => compared hs hc hnodup hu ha hb⟩
  · by_contra hne
    obtain ⟨u, hu⟩ := List.exists_mem_of_ne_nil _ hne
    obtain ⟨a, b, ha, hb, hsame⟩ := h u hu
    exact (compared hs hc hnodup hu ha hb).group_ne hsame.group
  · rw [h] at hu
    cases hu

/-- A node with the groups of a fresh image. -/
def image : Node := { groups := [⟨"root", 0⟩, ⟨"wheel", 10⟩], accounts := [] }

def hpcuserConfig : AzhopConfig :=
  { smallConfig with
    users := [{ name := "hpcuser", uid := 10002 }]
    usergroups := [⟨"azhop-users", 5000⟩, ⟨"azhop-admins", 5001⟩] }

theorem fresh_image (c : AzhopConfig) : Fresh c image := fun _ ha => nomatch ha

theorem hpcuser_compared : ¬ SameAccounts hpcuserConfig image image := by
  have h := (local_accounts_iff (fresh_image hpcuserConfig) (fresh_image hpcuserConfig) (by simp [hpcuserConfig])).1
  intro hsame
  exact List.cons_ne_nil _ _ (h.1 hsame)

/-- The user of the template: `azhop-users` on the servers, a group `hpcuser` on the compute nodes. -/
theorem hpcuser_groups :
    ((add_local_users hpcuserConfig image).account? "hpcuser").map (fun a => (a.group, a.groups)) =
      some ("azhop-users", []) ∧
    ((add_localusers hpcuserConfig image).account? "hpcuser").map (fun a => (a.group, a.groups)) =
      some ("hpcuser", ["azhop-users"]) ∧
    ¬ SameAccounts hpcuserConfig image image := by
  have hserver : ((add_local_users hpcuserConfig image).account? "hpcuser").map (fun a => (a.group, a.groups)) =
      some ("azhop-users", []) := by decide
  have hcompute : ((add_localusers hpcuserConfig image).account? "hpcuser").map (fun a => (a.group, a.groups)) =
      some ("hpcuser", ["azhop-users"]) := by decide
  refine ⟨hserver, hcompute, fun h => ?_⟩
  obtain ⟨a, b, ha, hb, hsame⟩ := h _ List.mem_cons_self
  rw [ha] at hserver
  rw [hb] at hcompute
  have hg : a.group = b.group := hsame.group
  simp only [Option.map_some, Option.some.injEq, Prod.mk.injEq] at hserver hcompute
  rw [hserver.1, hcompute.1] at hg
  exact absurd hg (by decide)

end AzHop.LocalAccounts
