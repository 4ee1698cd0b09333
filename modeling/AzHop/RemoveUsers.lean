import AzHop.LocalAccounts
import AzHop.Lib.FileTree
import AzHop.Lib.Split
/-!
# Removing users

`remove_users.yml` deletes a directory for each user of the configuration file:
the `home` of the user where there is one, and else the directory of that name
on the home mount. The accounts have their homes on the home mount in any case:
`create_local_user.yml` asks for `homedir_mountpoint/name`, and users of the
domain get theirs from `fallback_homedir` of sssd, so that `home` counts only
when a user is removed.

`undoes_iff` says for which configuration files each user loses the home of the
account, and nothing of anybody else's. No path is taken to lead through a
symbolic link, which could make two homes one.
-/
namespace AzHop.RemoveUsers
open Lib.FileTree LocalAccounts

abbrev Text := List Char

/-! ## Paths -/

/-- What stands for an entry of a directory in a path. -/
def IsName (t : Text) : Prop := t ∉ [[], ['.'], ['.', '.']] ∧ '/' ∉ t

instance (t : Text) : Decidable (IsName t) := inferInstanceAs (Decidable (_ ∧ _))

abbrev Name := { t : Text // IsName t }

/-- A place in the tree, by the names from the root. -/
abbrev Loc := List Name

def step (piece : Text) : Step Name :=
  if h : IsName piece then .down ⟨piece, h⟩ else if piece = ['.', '.'] then .up else .here

/-- The components of a path. -/
def steps (path : Text) : List (Step Name) := (path.splitOn '/').map step

/-- The last entry is `.` or `..`, which `rmdir` refuses. -/
def dotted (path : Text) : Bool :=
  ((path.splitOn '/').filter (· ≠ [])).getLast? ∈ [some ['.'], some ['.', '.']]

/-- What the playbook leaves to the host. -/
structure Host where
  /-- What `set_fact` keeps of a text: `yes` and `no`, say, become booleans. -/
  fact : Text → Text
  /-- What a module gets for a parameter of type `path`: `~` and variables are expanded. -/
  path : Text → Text
  /-- What sssd has for `%c` in a template, for the user of a name. -/
  sequence : Text → Char → Text
  /-- Where modules run. -/
  cwd : Loc
  /-- What is left by an `rmtree` that stops with an error. -/
  leaves : Files Name → Loc → Files Name

namespace Host

variable (h : Host)

/-- Where a path begins. -/
def start (path : Text) : Loc := if path.head? = some '/' then [] else h.cwd

def locate (path : Text) : Loc := lead (h.start path) (steps path)

def passes (path : Text) : List Loc := passed (h.start path) (steps path)

end Host

/-! ## The accounts -/

/-- `authentication.user_auth | default('ad')`. -/
def user_auth (c : AzhopConfig) : UserAuth := (c.authentication.bind (·.user_auth)).getD .ad

/-- `mounts.home.mountpoint`. -/
def homedir_mountpoint (c : AzhopConfig) : Text := c.mounts.home.mountpoint.toList

/-- `fallback_homedir` of the role `domain_join`. -/
def fallback_homedir (c : AzhopConfig) : Text := homedir_mountpoint c ++ ['/', '%', 'u']

/-- sssd replaces each `%c`. -/
def expand_homedir_template (sequence : Char → Text) : Text → Text
  | '%' :: c :: t => sequence c ++ expand_homedir_template sequence t
  | c :: t => c :: expand_homedir_template sequence t
  | [] => []

variable (h : Host) (c : AzhopConfig)

/-- The name of the account. -/
def login (u : User) : Text :=
  match user_auth c with
  | .local => u.name.toList
  | .ad => h.sequence u.name.toList 'u'

/-- The home of the account. -/
def assigned (u : User) : Text :=
  match user_auth c with
  | .local => h.path (localUser c u).home.toList
  | .ad => expand_homedir_template (h.sequence u.name.toList) (fallback_homedir c)

def home (u : User) : Loc := h.locate (assigned h c u)

/-- The directory the home volume is mounted on. -/
def mount : Loc := h.locate (h.path (homedir_mountpoint c))

/-- That directory and those on the way to it. -/
def mountPath : List Loc := h.passes (h.path (homedir_mountpoint c)) ++ [mount h c]

/-! ## The playbook -/

/-- How a playbook ends. -/
inductive Outcome
  | done (fs : Files Name)
  | failed (fs : Files Name)

/-- The files after it. -/
def Outcome.tree : Outcome → Files Name
  | done fs | failed fs => fs

/-- The module `file` with `state: absent`. A directory in use as a mount point cannot be removed. -/
def file_absent (path : Text) (fs : Files Name) : Outcome :=
  match if path = [] then none else resolve? fs (h.start path) (steps path) with
  | none => .done fs
  | some l =>
    match fs.kind l with
    | none => .done fs
    | some .file => .done (fs.without l)
    | some .dir =>
      if dotted path = true ∨ l <+: mount h c then .failed (h.leaves fs l) else .done (fs.without l)

/-- `user_home`. -/
def user_home (u : User) : Text :=
  match u.home with
  | none => homedir_mountpoint c ++ '/' :: u.name.toList
  | some home => home.toList

def removed (u : User) : Text := h.path (h.fact (user_home c u))

/-- `remove_homedir.yml`. -/
def remove_homedir (u : User) (fs : Files Name) : Outcome := file_absent h c (removed h c u) fs

/-- The loop of `remove_users.yml` over `users`. -/
def remove_users : List User → Files Name → Outcome
  | [], fs => .done fs
  | u :: users, fs =>
    match remove_homedir h c u fs with
    | .done fs' => remove_users users fs'
    | .failed fs' => .failed fs'

/-- The home volume is mounted, and no home is a file. -/
structure Ready (fs : Files Name) : Prop where
  mounted : ∀ d ∈ mountPath h c, fs.kind d = some .dir
  homes : ∀ u ∈ c.users, fs.kind (home h c u) ≠ some .file

/-- A tree without the homes of some users. -/
def withoutHomes (users : List User) (fs : Files Name) : Files Name :=
  users.foldl (fun fs u => fs.without (home h c u)) fs

/-- The playbook deletes the homes of the users. -/
structure Undoes : Prop where
  /-- The step for a user deletes the home of the account, and leaves the volume mounted. -/
  step : ∀ u ∈ c.users, ∀ fs, Ready h c fs →
    remove_homedir h c u fs = .done (fs.without (home h c u)) ∧ Ready h c (fs.without (home h c u))
  run : ∀ fs, Ready h c fs → remove_users h c c.users fs = .done (withoutHomes h c c.users fs)
  /-- What is gone was on the home mount, and neither the home of a user who is
  not listed nor above or below it. -/
  others : ∀ fs, Ready h c fs → ∀ l, fs.kind l ≠ none → (remove_users h c c.users fs).tree.kind l = none →
    mount h c <+: l ∧ ∀ name : Name, (∀ u ∈ c.users, login h c u ≠ name.val) →
      ¬l <+: mount h c ++ [name] ∧ ¬mount h c ++ [name] <+: l

/-- The home of the configuration file, with the default of the schema. -/
def configured (u : User) : Text := (u.home.map String.toList).getD (homedir_mountpoint c ++ '/' :: u.name.toList)

/-- The path is another way to write the home of the account: it passes only
what is there when the home is. -/
structure Leads (u : User) (path : Text) : Prop where
  ne_nil : path ≠ []
  ends : dotted path = false
  leads : h.locate path = home h c u
  passes : ∀ d ∈ h.passes path, d <+: home h c u ∨ ∃ e ∈ mountPath h c, d <+: e

/-- The home is in the directory of a listed user on the home mount, and not on the way to the mount. -/
structure Placed (u : User) : Prop where
  own : ∃ v ∈ c.users, ∃ name : Name, name.val = login h c v ∧ mount h c ++ [name] <+: home h c u
  off : ∀ d ∈ mountPath h c, ¬home h c u <+: d

variable {h : Host} {c : AzhopConfig}

/-! ## The module -/

/-- What a path leads to is deleted when the path passes only what is there. -/
theorem file_absent_of_leads {path : Text} {a : Loc} {fs : Files Name} (hne : path ≠ []) (hends : dotted path = false)
    (hlead : h.locate path = a) (hpasses : fs.kind a = some .dir → ∀ d ∈ h.passes path, fs.kind d = some .dir)
    (hfile : fs.kind a ≠ some .file) (hmount : ¬a <+: mount h c) : file_absent h c path fs = .done (fs.without a) := by
  unfold file_absent
  rw [if_neg hne]
  cases hk : fs.kind a with
  | none =>
    rw [Files.without_of_absent hk]
    cases hr : resolve? fs (h.start path) (steps path) with
    | none => rfl
    | some l =>
      obtain rfl : l = a := (resolve?_eq_some.1 hr).2.symm.trans hlead
      dsimp only
      rw [hk]
  | some kind =>
    cases kind with
    | file => exact absurd hk hfile
    | dir =>
      have hr : resolve? fs (h.start path) (steps path) = some a := resolve?_eq_some.2 ⟨hpasses hk, hlead⟩
      rw [hr]
      dsimp only
      rw [hk]
      dsimp only
      rw [if_neg (by simp [hends, hmount])]

/-- What the module can do: nothing, delete what the path leads to, or fail on it. -/
theorem file_absent_cases (h : Host) (c : AzhopConfig) (path : Text) (fs : Files Name) :
    file_absent h c path fs = .done fs ∨
    ∃ l, path ≠ [] ∧ resolve? fs (h.start path) (steps path) = some l ∧
      ((fs.kind l = some .file ∧ file_absent h c path fs = .done (fs.without l)) ∨
      (fs.kind l = some .dir ∧ dotted path = false ∧ ¬l <+: mount h c ∧
        file_absent h c path fs = .done (fs.without l)) ∨
      (fs.kind l = some .dir ∧ (dotted path = true ∨ l <+: mount h c) ∧
        file_absent h c path fs = .failed (h.leaves fs l))) := by
  unfold file_absent
  by_cases hne : path = []
  · rw [if_pos hne]
    exact Or.inl rfl
  rw [if_neg hne]
  cases hr : resolve? fs (h.start path) (steps path) with
  | none => exact Or.inl rfl
  | some l =>
    cases hk : fs.kind l with
    | none => simp [hk]
    | some kind =>
      refine Or.inr ⟨l, hne, rfl, ?_⟩
      cases kind with
      | file =>
        simp only [hk]
        exact Or.inl ⟨trivial, trivial⟩
      | dir =>
        simp only [hk]
        by_cases hbusy : dotted path = true ∨ l <+: mount h c
        · exact Or.inr (Or.inr ⟨trivial, hbusy, if_pos hbusy⟩)
        · obtain ⟨hends, hmount⟩ := not_or.1 hbusy
          exact Or.inr (Or.inl ⟨trivial, by simpa using hends, hmount, if_neg hbusy⟩)

/-- A path by which just a directory was deleted leads there. -/
theorem leads_of_file_absent {path : Text} {a : Loc} {fs : Files Name} (hdir : fs.kind a = some .dir)
    (hfiles : ∀ l, fs.kind l ≠ some .file) (hrun : file_absent h c path fs = .done (fs.without a)) :
    path ≠ [] ∧ dotted path = false ∧ h.locate path = a ∧ ∀ d ∈ h.passes path, fs.kind d = some .dir := by
  have hpresent : fs.kind a ≠ none := by simp [hdir]
  rcases file_absent_cases h c path fs with hnothing | ⟨l, hne, hr, hcase⟩
  · have hgone : (fs.without a).kind a = none := if_pos List.prefix_rfl
    rw [Outcome.done.inj (hrun.symm.trans hnothing)] at hgone
    exact absurd hgone hpresent
  · obtain ⟨hpasses, hlead⟩ := resolve?_eq_some.1 hr
    rcases hcase with ⟨hk, -⟩ | ⟨hk, hends, -, hdone⟩ | ⟨-, -, hfailed⟩
    · exact absurd hk (hfiles l)
    · have hsame := Outcome.done.inj (hdone.symm.trans hrun)
      have hla : l = a := Files.eq_of_without_eq (by simp [hk]) hpresent hsame
      exact ⟨hne, hends, hlead.trans hla, hpasses⟩
    · cases hfailed.symm.trans hrun

/-! ## The playbook -/

theorem ready_without {u : User} (hp : Placed h c u) {fs : Files Name} (hr : Ready h c fs) :
    Ready h c (fs.without (home h c u)) where
  mounted d hd := (Files.kind_without_of_not (hp.off d hd)).trans (hr.mounted d hd)
  homes v hv := by
    rw [Files.kind_without]
    split
    · simp
    · exact hr.homes v hv

/-- The step for a user whose path leads to the home. -/
theorem remove_homedir_spec {u : User} (hu : u ∈ c.users) (hl : Leads h c u (removed h c u)) (hp : Placed h c u) {fs : Files Name}
    (hr : Ready h c fs) : remove_homedir h c u fs = .done (fs.without (home h c u)) := by
  refine file_absent_of_leads hl.ne_nil hl.ends hl.leads (fun hdir d hd => ?_) (hr.homes u hu)
    (hp.off (mount h c) (List.mem_append_right _ (List.mem_singleton_self _)))
  rcases hl.passes d hd with hbelow | ⟨e, he, hbelow⟩
  · exact fs.dir_of_prefix hbelow hdir
  · exact fs.dir_of_prefix hbelow (hr.mounted e he)

/-- What the steps do, the loop does. -/
theorem remove_users_spec (hstep : ∀ u ∈ c.users, ∀ fs, Ready h c fs →
      remove_homedir h c u fs = .done (fs.without (home h c u)) ∧ Ready h c (fs.without (home h c u)))
    {users : List User} (hsub : ∀ u ∈ users, u ∈ c.users) {fs : Files Name} (hr : Ready h c fs) :
    remove_users h c users fs = .done (withoutHomes h c users fs) := by
  induction users generalizing fs with
  | nil => rfl
  | cons u users ih =>
    obtain ⟨hremoved, hready⟩ := hstep u (hsub u List.mem_cons_self) fs hr
    unfold remove_users
    rw [hremoved]
    exact ih (fun v hv => hsub v (List.mem_cons_of_mem u hv)) hready

theorem kind_withoutHomes_eq_none_iff {users : List User} {fs : Files Name} {l : Loc} :
    (withoutHomes h c users fs).kind l = none ↔ fs.kind l = none ∨ ∃ u ∈ users, home h c u <+: l := by
  induction users generalizing fs with
  | nil => simp [withoutHomes]
  | cons u users ih =>
    change (withoutHomes h c users (fs.without (home h c u))).kind l = none ↔ _
    rw [ih, Files.kind_without]
    by_cases hl : home h c u <+: l <;> simp [hl]

/-! ## Homes -/

theorem exists_fresh (names : List Text) : ∃ name : Name, name.val ∉ names := by
  let long : Text := List.replicate (names.flatten.length + 3) 'a'
  have hlength : long.length = names.flatten.length + 3 := List.length_replicate
  have hname : IsName long := by
    refine ⟨fun hmem => ?_, fun hmem => absurd (List.eq_of_mem_replicate hmem) (by decide)⟩
    simp only [List.mem_cons, List.not_mem_nil, or_false] at hmem
    rcases hmem with e | e | e <;> rw [e] at hlength <;> simp only [List.length_cons, List.length_nil] at hlength <;>
      omega
  refine ⟨⟨long, hname⟩, fun hmem => ?_⟩
  have hle := (List.sublist_flatten_of_mem hmem).length_le
  dsimp only at hle
  omega

/-- Two names on the home mount have nothing in common. -/
theorem apart_of_ne {m l : Loc} {n n' : Name} (hne : n ≠ n') (hl : m ++ [n] <+: l) :
    ¬l <+: m ++ [n'] ∧ ¬m ++ [n'] <+: l := by
  have hnot : ¬m ++ [n'] <+: l := by
    intro hl'
    have hsame := (List.prefix_of_prefix_length_le hl hl' (by simp)).eq_of_length (by simp)
    exact hne (by simpa using hsame)
  refine ⟨fun hl' => ?_, hnot⟩
  have hsame := (hl.trans hl').eq_of_length (by simp)
  exact hne (by simpa using hsame)

/-! ## When removal undoes creation -/

theorem ready_along (h : Host) (c : AzhopConfig) (u : User) : Ready h c (Files.along (home h c u :: mountPath h c)) where
  mounted d hd := Files.kind_along_eq_dir_iff.2 ⟨d, List.mem_cons_of_mem _ hd, List.prefix_rfl⟩
  homes _ _ := Files.kind_along_ne_file _ _

theorem kind_home_along (h : Host) (c : AzhopConfig) (u : User) :
    (Files.along (home h c u :: mountPath h c)).kind (home h c u) = some .dir :=
  Files.kind_along_eq_dir_iff.2 ⟨_, List.mem_cons_self, List.prefix_rfl⟩

theorem leads_of_undoes (hundo : Undoes h c) {u : User} (hu : u ∈ c.users) : Leads h c u (removed h c u) := by
  -- a tree with nothing but the home and the way to the mount
  obtain ⟨hne, hends, hleads, hpasses⟩ := leads_of_file_absent (kind_home_along h c u) (Files.kind_along_ne_file _)
    (hundo.step u hu _ (ready_along h c u)).1
  refine ⟨hne, hends, hleads, fun d hd => ?_⟩
  obtain ⟨e, he, hbelow⟩ := Files.kind_along_eq_dir_iff.1 (hpasses d hd)
  rcases List.mem_cons.1 he with rfl | he
  · exact Or.inl hbelow
  · exact Or.inr ⟨e, he, hbelow⟩

theorem placed_of_undoes (hundo : Undoes h c) {u : User} (hu : u ∈ c.users) : Placed h c u := by
  have hready := ready_along h c u
  refine ⟨?_, fun d hd hbelow => ?_⟩
  · have hgone : (remove_users h c c.users (Files.along (home h c u :: mountPath h c))).tree.kind (home h c u) = none := by
      rw [hundo.run _ hready]
      exact kind_withoutHomes_eq_none_iff.2 (Or.inr ⟨u, hu, List.prefix_rfl⟩)
    obtain ⟨⟨r, hr⟩, hothers⟩ := hundo.others _ hready (home h c u) (by simp [kind_home_along]) hgone
    cases r with
    | nil =>
      -- all of the volume is gone, with the home of whoever is not listed
      obtain ⟨name, hname⟩ := exists_fresh (c.users.map (login h c))
      refine absurd ?_ (hothers name fun v hv e => hname (List.mem_map.2 ⟨v, hv, e⟩)).1
      rw [← hr, List.append_nil]
      exact List.prefix_append _ _
    | cons name r =>
      have hin : mount h c ++ [name] <+: home h c u := ⟨r, by simpa using hr⟩
      by_contra hnone
      exact (hothers name fun v hv e => hnone ⟨v, hv, name, e.symm, hin⟩).2 hin
  · have hstill := (hundo.step u hu _ hready).2.mounted d hd
    rw [Files.kind_without, if_pos hbelow] at hstill
    cases hstill

theorem undoes_of_leads (hall : ∀ u ∈ c.users, Leads h c u (removed h c u) ∧ Placed h c u) : Undoes h c := by
  have hstep : ∀ u ∈ c.users, ∀ fs, Ready h c fs →
      remove_homedir h c u fs = .done (fs.without (home h c u)) ∧ Ready h c (fs.without (home h c u)) := by
    intro u hu fs hr
    obtain ⟨hleads, hplaced⟩ := hall u hu
    exact ⟨remove_homedir_spec hu hleads hplaced hr, ready_without hplaced hr⟩
  have hrun : ∀ fs, Ready h c fs → remove_users h c c.users fs = .done (withoutHomes h c c.users fs) :=
    fun fs hr => remove_users_spec hstep (fun _ hu => hu) hr
  refine ⟨hstep, hrun, fun fs hr l hl hgone => ?_⟩
  rw [hrun fs hr] at hgone
  obtain ⟨u, hu, hbelow⟩ := (kind_withoutHomes_eq_none_iff.1 hgone).resolve_left hl
  obtain ⟨v, hv, name, hname, hown⟩ := (hall u hu).2.own
  have hin := hown.trans hbelow
  refine ⟨(List.prefix_append _ _).trans hin, fun other hother => apart_of_ne ?_ hin⟩
  rintro rfl
  exact hother v hv hname.symm

theorem removed_eq (h : Host) (c : AzhopConfig) (u : User) : removed h c u = h.path (h.fact (configured c u)) := by
  unfold removed user_home configured
  cases u.home <;> rfl

/-- Users lose their homes and nobody else loses anything exactly when, for each
user, the home of the account is in the directory of a listed user on the home
mount and the home of the configuration file is a way to write it. -/
theorem undoes_iff (h : Host) (c : AzhopConfig) :
    Undoes h c ↔ ∀ u ∈ c.users, Leads h c u (h.path (h.fact (configured c u))) ∧ Placed h c u := by
  simp only [← removed_eq]
  exact ⟨fun hundo _ hu => ⟨leads_of_undoes hundo hu, placed_of_undoes hundo hu⟩, undoes_of_leads⟩

/-- `plain` takes every text as it is, and the names of the domain are those of the file. -/
def plain : Host where
  fact t := t
  path t := t
  sequence name _ := name
  cwd := []
  leaves fs _ := fs

/-- A user whose home is to be on another volume. -/
def dataHome : AzhopConfig :=
  { smallConfig with users := [{ name := "alice", uid := 10003, home := some "/data/alice" }] }

theorem not_undoes_dataHome : ¬ Undoes plain dataHome := by
  intro hundo
  let alice : User := { name := "alice", uid := 10003, home := some "/data/alice" }
  have hremoved := (hundo.step alice List.mem_cons_self _ (ready_along plain dataHome alice)).1
  have hgone := congrArg (fun o => o.tree.kind (home plain dataHome alice)) hremoved
  have hstill : (remove_homedir plain dataHome alice
      (Files.along (home plain dataHome alice :: mountPath plain dataHome))).tree.kind
        (home plain dataHome alice) = some .dir := by decide
  have hnone : ((Files.along (home plain dataHome alice :: mountPath plain dataHome)).without
      (home plain dataHome alice)).kind (home plain dataHome alice) = none := if_pos List.prefix_rfl
  exact absurd (hstill.symm.trans (hgone.trans hnone)) (by decide)

/-! ## Names and no `home` -/

theorem steps_name (path : Text) (name : Name) : steps (path ++ '/' :: name.val) = steps path ++ [.down name] := by
  have hstep : step name.val = .down name := dif_pos name.2
  rw [steps, List.splitOn_append_cons_self, List.splitOn_eq_singleton name.2.2, List.map_append, List.map_singleton, hstep]
  rfl

theorem up_not_mem_steps {path : Text} (hup : ['.', '.'] ∉ path.splitOn '/') : Step.up ∉ steps path := by
  intro hmem
  obtain ⟨piece, hpiece, hstep⟩ := List.mem_map.1 hmem
  unfold step at hstep
  split at hstep
  · cases hstep
  · split at hstep
    · rename_i e
      exact hup (e ▸ hpiece)
    · cases hstep

theorem dotted_name (path : Text) (name : Name) : dotted (path ++ '/' :: name.val) = false := by
  have hne := name.2.1
  simp only [List.mem_cons, List.not_mem_nil, or_false, not_or] at hne
  obtain ⟨hnil, hdot, hdots⟩ := hne
  unfold dotted
  rw [List.splitOn_append_cons_self, List.splitOn_eq_singleton name.2.2, List.filter_append]
  simp [hnil, hdot, hdots]

/-- Where no `home` is given, the names of the users are names of directories
and nothing in them is expanded, removal undoes creation: on a mount point
without `..`, for accounts with the names of the file. -/
theorem undoes_of_names (hmount : h.path (homedir_mountpoint c) ≠ [])
    (hup : ['.', '.'] ∉ (h.path (homedir_mountpoint c)).splitOn '/')
    (hnames : ∀ u ∈ c.users, ∃ name : Name, login h c u = name.val ∧
      removed h c u = h.path (homedir_mountpoint c) ++ '/' :: name.val ∧
      assigned h c u = h.path (homedir_mountpoint c) ++ '/' :: name.val) : Undoes h c := by
  refine undoes_of_leads fun u hu => ?_
  obtain ⟨name, hlogin, hremoved, hassigned⟩ := hnames u hu
  have hstart : h.start (h.path (homedir_mountpoint c) ++ '/' :: name.val) = h.start (h.path (homedir_mountpoint c)) := by
    unfold Host.start
    rw [List.head?_append_of_ne_nil _ hmount]
  have hhome : home h c u = mount h c ++ [name] := by
    rw [home, hassigned, Host.locate, hstart, steps_name, lead_append]
    rfl
  have habove : ∀ d ∈ mountPath h c, d <+: mount h c := by
    intro d hd
    rcases List.mem_append.1 hd with hd | hd
    · exact (prefix_lead (up_not_mem_steps hup)).2 d hd
    · rw [List.mem_singleton.1 hd]
  refine ⟨⟨?_, ?_, ?_, fun d hd => ?_⟩, ⟨u, hu, name, hlogin.symm, ?_⟩, fun d hd hbelow => ?_⟩
  · rw [hremoved]
    simp
  · rw [hremoved]
    exact dotted_name _ name
  · rw [hremoved, home, hassigned]
  · rw [hremoved, Host.passes, hstart, steps_name, passed_append] at hd
    exact Or.inr ⟨d, hd, List.prefix_rfl⟩
  · rw [hhome]
  · have hlength := (hbelow.trans (habove d hd)).length_le
    rw [hhome, List.length_append, List.length_singleton] at hlength
    omega

end AzHop.RemoveUsers
