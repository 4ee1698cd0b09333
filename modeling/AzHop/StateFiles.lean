import AzHop.Lib.Staging
import Mathlib.Tactic.ByContra
/-!
# The state files of an environment

`azhop_state.sh` keeps the files of a resource group in a container. An upload
empties `.state`, copies the state files into it and sends it; a download
fetches what is stored under the resource group into `.state` and copies what is
newer than the working tree. A download does not empty `.state`.

`isolated_iff` says which histories restore only files of the resource group.
-/
namespace AzHop.StateFiles
open Lib.Staging

abbrev Name := List Char

/-- A file by its directories and its name. -/
abbrev Path := List Name

/-- A file, with the time it was written. -/
structure File (Content : Type) where
  content : Content
  mtime : Nat

/-- The files under a directory. -/
abbrev Tree (Content : Type) := Path → Option (File Content)

/-- What the container has under one resource group. -/
abbrev Blobs (Content : Type) := Path → Option Content

variable {Content : Type}

/-- The programs the script calls: `yq eval` on the configuration, and `azcopy`. -/
structure Tools (Content : Type) where
  resource_group : Content → Name
  admin_user : Content → Name
  azcopy_download : Nat → Blobs Content → Tree Content → Tree Content
  azcopy_upload : Tree Content → Blobs Content → Blobs Content

/-- `azcopy copy` into a directory overwrites, gives the files the time of the
download, and leaves the files the source does not have. -/
def Tools.Overwrites (tools : Tools Content) : Prop :=
  ∀ now blobs dir p, tools.azcopy_download now blobs dir p =
    match blobs p with
    | some content => some ⟨content, now⟩
    | none => dir p

/-- The deployer: its work tree, `.state`, the containers and the time. -/
structure State (Content : Type) where
  work : Tree Content
  state_dir : Tree Content
  container : Name → Blobs Content
  now : Nat

/-- A working directory without `.state`. -/
def fresh (work : Tree Content) (container : Name → Blobs Content) (now : Nat) : State Content :=
  ⟨work, fun _ => none, container, now⟩

/-! ## The commands -/

def config_yml : Path := ["config.yml".toList]

variable (tools : Tools Content)

/-- The resource group of `config.yml`; the script ends where there is none. -/
def config_group (s : State Content) : Option Name :=
  (s.work config_yml).bind fun config =>
    if tools.resource_group config.content = [] then none else some (tools.resource_group config.content)

def get_resource_group (arg : Name) (s : State Content) : Option Name :=
  if arg = [] then config_group tools s else some arg

/-- What `*` matches. -/
def visible : Path → Bool
  | name :: _ => name.head? ≠ some '.'
  | [] => false

/-- The files `cp -r -u .state/* .` copies: those that are newer, or missing. -/
def copied (work dir : Tree Content) (p : Path) : Option (File Content) :=
  (dir p).filter fun f => visible p && (work p).all fun g => g.mtime < f.mtime

def cp_update (now : Nat) (work dir : Tree Content) : Tree Content := fun p =>
  match copied work dir p with
  | some f => some ⟨f.content, now⟩
  | none => work p

/-- `.state` after the download. -/
def fetched (rg : Name) (s : State Content) : Tree Content :=
  tools.azcopy_download s.now (s.container rg) s.state_dir

def download (arg : Name) (s : State Content) : State Content :=
  match get_resource_group tools arg s with
  | none => { s with now := s.now + 1 }
  | some rg =>
    { s with
      work := cp_update s.now s.work (fetched tools rg s)
      state_dir := fetched tools rg s
      now := s.now + 1 }

/-- The files an upload copies into `.state`. -/
def isStateFile (rg admin_user : Name) (p : Path) : Bool :=
  p = config_yml ||
  p = [admin_user ++ "_id_rsa".toList] ||
  p = [admin_user ++ "_id_rsa.pub".toList] ||
  p = [rg ++ ".parameters.json".toList] ||
  p = ["packer".toList, "options.json".toList] ||
  p = ["playbooks".toList, "group_vars".toList, "all.yml".toList] ||
  p = ["playbooks".toList, "inventory".toList] ||
  p = ["tf".toList, "terraform.tfstate".toList] ||
  match p with
  | [dir, file] => dir = "bin".toList && file.head? ≠ some '.'
  | [dir, subdir, file] =>
    dir = "tf".toList && subdir = "cloud-init".toList && file.head? ≠ some '.' && ".yml".toList.isSuffixOf file
  | _ => false

/-- `rm -rf .state`, then the copies, which get the time of the upload. -/
def stage (rg admin_user : Name) (s : State Content) : Tree Content := fun p =>
  if isStateFile rg admin_user p then (s.work p).map fun f => ⟨f.content, s.now⟩ else none

def upload (s : State Content) : State Content :=
  match s.work config_yml, config_group tools s with
  | some config, some rg =>
    let dir := stage rg (tools.admin_user config.content) s
    { s with
      state_dir := dir
      container := fun group => if group = rg then tools.azcopy_upload dir (s.container rg) else s.container group
      now := s.now + 1 }
  | _, _ => { s with now := s.now + 1 }

/-- What happens in the working directory: the two commands of the script, and
anything else that changes the working tree or the container. -/
inductive Command (Content : Type)
  | edit (work : Tree Content) (container : Name → Blobs Content) (later : Nat)
  | download (arg : Name)
  | upload

/-- One command. -/
def step (s : State Content) : Command Content → State Content
  | .edit work container later => { s with work := work, container := container, now := s.now + later }
  | .download arg => download tools arg s
  | .upload => upload tools s

/-! ## What restores what -/

/-- The files a download copies are those stored under its resource group. -/
def RestoresStored (s : State Content) (arg : Name) : Prop :=
  ∀ rg, get_resource_group tools arg s = some rg →
    ∀ p f, copied s.work (fetched tools rg s) p = some f → s.container rg p = some f.content

/-- Every download of a history does. -/
def Isolated (s : State Content) (history : List (Command Content)) : Prop :=
  ∀ before arg after, history = before ++ .download arg :: after →
    RestoresStored tools (run (step tools) s before) arg

/-- The files a command puts into `.state`. -/
def Puts (s : State Content) (c : Command Content) (p : Path) : Prop :=
  match c with
  | .edit .. => False
  | .download arg => ∃ rg, get_resource_group tools arg s = some rg ∧ (s.container rg p).isSome
  | .upload => ∃ config rg, s.work config_yml = some config ∧ config_group tools s = some rg ∧
      isStateFile rg (tools.admin_user config.content) p ∧ (s.work p).isSome

/-- An upload that does not end early empties `.state`. -/
def Empties (s : State Content) (c : Command Content) : Prop :=
  match c with
  | .upload => (config_group tools s).isSome
  | _ => False

def effect : Effect (State Content) (Command Content) Path where
  writes := Puts tools
  clears := Empties tools
  stamp := State.now

/-- What an earlier command put into `.state`, since the last upload and with
it, is stored under the resource group, or the working tree has a file that is
not older. -/
def Covered (s : State Content) (history : List (Command Content)) : Prop :=
  ∀ before arg after, history = before ++ .download arg :: after →
    let now := run (step tools) s before
    ∀ rg, get_resource_group tools arg now = some rg →
      ∀ p t, Standing (step tools) (effect tools) s before p t → visible p → now.container rg p = none →
        ∃ g, now.work p = some g ∧ t ≤ g.mtime

/-! ## What `.state` holds -/

variable {tools}

/-- The time a file was put into `.state`. -/
def table (s : State Content) (p : Path) : Option Nat := (s.state_dir p).map File.mtime

theorem fetched_some (h : tools.Overwrites) {rg : Name} {s : State Content} {p : Path}
    (hp : (s.container rg p).isSome) : ∃ content, s.container rg p = some content ∧
      fetched tools rg s p = some ⟨content, s.now⟩ := by
  obtain ⟨content, hcontent⟩ := Option.isSome_iff_exists.1 hp
  refine ⟨content, hcontent, ?_⟩
  rw [fetched, h, hcontent]

theorem fetched_none (h : tools.Overwrites) {rg : Name} {s : State Content} {p : Path}
    (hp : s.container rg p = none) : fetched tools rg s p = s.state_dir p := by
  rw [fetched, h, hp]

theorem download_state_dir {arg rg : Name} {s : State Content} (h : get_resource_group tools arg s = some rg) :
    (download tools arg s).state_dir = fetched tools rg s := by
  rw [download, h]

theorem upload_state_dir {s : State Content} {config : File Content} {rg : Name} (hconfig : s.work config_yml = some config)
    (hrg : config_group tools s = some rg) :
    (upload tools s).state_dir = stage rg (tools.admin_user config.content) s := by
  rw [upload, hconfig, hrg]

theorem config_of_group {s : State Content} {rg : Name} (h : config_group tools s = some rg) :
    ∃ config, s.work config_yml = some config := by
  obtain ⟨config, hconfig, -⟩ := Option.bind_eq_some_iff.1 h
  exact ⟨config, hconfig⟩

theorem step_now_le (s : State Content) (c : Command Content) : s.now ≤ (step tools s c).now := by
  cases c with
  | edit work container later => exact Nat.le_add_right _ _
  | download arg =>
    change s.now ≤ (download tools arg s).now
    unfold download
    split <;> exact Nat.le_succ _
  | upload =>
    change s.now ≤ (upload tools s).now
    unfold upload
    split <;> exact Nat.le_succ _

/-- Each command stamps what it puts into `.state`, and an upload forgets the rest. -/
theorem stamps (h : tools.Overwrites) : Stamps (step tools) (effect tools) (@table Content) where
  mono := step_now_le
  written := by
    rintro s (⟨⟩ | arg | -) p hputs
    · exact absurd hputs id
    · obtain ⟨rg, hrg, hp⟩ := hputs
      obtain ⟨content, -, hfetched⟩ := fetched_some h hp
      change ((download tools arg s).state_dir p).map File.mtime = some s.now
      rw [download_state_dir hrg, hfetched]
      rfl
    · obtain ⟨config, rg, hconfig, hrg, hfile, hp⟩ := hputs
      obtain ⟨f, hf⟩ := Option.isSome_iff_exists.1 hp
      change ((upload tools s).state_dir p).map File.mtime = some s.now
      rw [upload_state_dir hconfig hrg, stage, if_pos hfile, hf]
      rfl
  cleared := by
    rintro s (⟨⟩ | arg | -) p hputs hempties
    · exact absurd hempties id
    · exact absurd hempties id
    · obtain ⟨rg, hrg⟩ := Option.isSome_iff_exists.1 hempties
      obtain ⟨config, hconfig⟩ := config_of_group hrg
      change ((upload tools s).state_dir p).map File.mtime = none
      rw [upload_state_dir hconfig hrg, stage]
      split
      · -- a state file the working tree does not have
        rename_i hfile
        have hp : s.work p = none :=
          Option.not_isSome_iff_eq_none.1 fun hwork => hputs ⟨config, rg, hconfig, hrg, hfile, hwork⟩
        rw [hp]
        rfl
      · rfl
  kept := by
    rintro s (⟨⟩ | arg | -) p hputs hempties
    · rfl
    · change ((download tools arg s).state_dir p).map File.mtime = table s p
      cases hrg : get_resource_group tools arg s with
      | none =>
        rw [download, hrg]
        rfl
      | some rg =>
        have hp : s.container rg p = none := Option.not_isSome_iff_eq_none.1 fun hcontainer => hputs ⟨rg, hrg, hcontainer⟩
        rw [download_state_dir hrg, fetched_none h hp]
        rfl
    · have hrg : config_group tools s = none := Option.not_isSome_iff_eq_none.1 hempties
      change ((upload tools s).state_dir p).map File.mtime = table s p
      rw [upload, hrg]
      cases s.work config_yml <;> rfl

/-! ## Every history -/

theorem copied_eq_some_iff {work dir : Tree Content} {p : Path} {f : File Content} :
    copied work dir p = some f ↔ dir p = some f ∧ visible p ∧ ∀ g, work p = some g → g.mtime < f.mtime := by
  rw [copied, Option.filter_eq_some_iff, Bool.and_eq_true]
  refine and_congr_right fun _ => and_congr_right fun _ => ?_
  cases work p <;> simp

/-- One download, by what stands in `.state`. -/
theorem restoresStored_iff (h : tools.Overwrites) {s : State Content} {stands : Path → Nat → Prop}
    (hlatest : ∀ p t, table s p = some t → stands p t)
    (hstands : ∀ p t, stands p t → ∃ t', table s p = some t' ∧ t ≤ t') (arg : Name) :
    RestoresStored tools s arg ↔ ∀ rg, get_resource_group tools arg s = some rg →
      ∀ p t, stands p t → visible p → s.container rg p = none → ∃ g, s.work p = some g ∧ t ≤ g.mtime := by
  refine forall₂_congr fun rg hrg => ⟨fun hstored p t ht hvisible hnone => ?_, fun hcovered p f hf => ?_⟩
  · obtain ⟨t', ht', hle⟩ := hstands p t ht
    obtain ⟨f, hf, rfl⟩ := Option.map_eq_some_iff.1 ht'
    by_contra hold
    have hcopied : copied s.work (fetched tools rg s) p = some f := by
      refine copied_eq_some_iff.2 ⟨(fetched_none h hnone).trans hf, hvisible, fun g hg => ?_⟩
      by_contra hnewer
      exact hold ⟨g, hg, Nat.le_trans hle (Nat.not_lt.1 hnewer)⟩
    rw [hstored p f hcopied] at hnone
    cases hnone
  · obtain ⟨hfetched, hvisible, hnewer⟩ := copied_eq_some_iff.1 hf
    cases hcontainer : s.container rg p with
    | some content =>
      obtain ⟨content', hcontent', hnew⟩ := fetched_some h (by rw [hcontainer]; rfl)
      rw [hfetched] at hnew
      cases hnew
      exact hcontainer.symm.trans hcontent'
    | none =>
      rw [fetched_none h hcontainer] at hfetched
      have hstands' := hlatest p f.mtime (by rw [table, hfetched]; rfl)
      obtain ⟨g, hg, hle⟩ := hcovered p f.mtime hstands' hvisible hcontainer
      exact absurd (hnewer g hg) (Nat.not_lt.2 hle)

theorem isolated_iff (h : tools.Overwrites) (work : Tree Content) (container : Name → Blobs Content) (now : Nat)
    (history : List (Command Content)) :
    Isolated tools (fresh work container now) history ↔ Covered tools (fresh work container now) history := by
  refine forall₄_congr fun before arg after _ => ?_
  have hlatest := latest_run (stamps h) (s := fresh work container now) (fun _ => rfl) before
  exact restoresStored_iff h (fun p => (hlatest p).1) (fun p => (hlatest p).2) arg

/-! ## Two resource groups -/

/-- Contents are names, and a configuration is the name of its resource group. -/
def nameTools : Tools Name where
  resource_group := id
  admin_user := fun _ => ['u']
  azcopy_download := fun now blobs dir p =>
    match blobs p with
    | some content => some ⟨content, now⟩
    | none => dir p
  azcopy_upload := fun dir blobs p => ((dir p).map File.content).or (blobs p)

theorem nameTools_overwrites : nameTools.Overwrites := by
  intro now blobs dir p
  cases h : blobs p <;> simp [nameTools, h]

def parametersA : Path := [['a'] ++ ".parameters.json".toList]

def workA : Tree Name := fun p =>
  if p = config_yml then some ⟨['a'], 0⟩ else if p = parametersA then some ⟨['x'], 0⟩ else none

def workB : Tree Name := fun p => if p = config_yml then some ⟨['b'], 2⟩ else none

def containerB : Name → Blobs Name := fun rg p => if rg = ['b'] ∧ p = config_yml then some ['b'] else none

/-- The parameters of one resource group come back with the files of another. -/
theorem not_isolated_switch :
    ¬Isolated nameTools (fresh workA containerB 1) [.upload, .edit workB containerB 1, .download ['b']] := by
  intro h
  have hstored := h [.upload, .edit workB containerB 1] ['b'] [] rfl ['b'] rfl parametersA ⟨['x'], 1⟩ rfl
  exact absurd hstored (fun h => by cases h)

/-- What an upload puts into `.state` is stored. -/
theorem stored_of_puts {s : State Name} {rg : Name} (hrg : config_group nameTools s = some rg) {p : Path}
    (hputs : Puts nameTools s .upload p) : (step nameTools s .upload).container rg p ≠ none := by
  obtain ⟨config, rg', hconfig, hrg', hfile, hwork⟩ := hputs
  obtain rfl : rg = rg' := Option.some.inj (hrg.symm.trans hrg')
  obtain ⟨f, hf⟩ := Option.isSome_iff_exists.1 hwork
  have hstaged : stage rg (nameTools.admin_user config.content) s p = some ⟨f.content, s.now⟩ := by
    rw [stage, if_pos hfile, hf, Option.map_some]
  have hupload : (step nameTools s .upload).container rg p =
      ((stage rg (nameTools.admin_user config.content) s p).map File.content).or (s.container rg p) := by
    rw [step, upload, hconfig, hrg]
    simp [nameTools]
  rw [hupload, hstaged, Option.map_some, Option.some_or]
  exact Option.some_ne_none _

/-- After an upload of the other group nothing of the first is in the way. -/
theorem isolated_upload :
    Isolated nameTools (fresh workA containerB 1) [.upload, .edit workB containerB 1, .upload, .download ['b']] := by
  refine (isolated_iff nameTools_overwrites workA containerB 1 _).2 fun before arg after heq => ?_
  obtain ⟨rfl, rfl⟩ : before = [.upload, .edit workB containerB 1, .upload] ∧ arg = ['b'] := by
    -- the one download is the fourth command
    rcases before with _ | ⟨c₁, _ | ⟨c₂, _ | ⟨c₃, before⟩⟩⟩
    · simp at heq
    · simp at heq
    · simp at heq
    · simp only [List.cons_append, List.cons.injEq] at heq
      obtain ⟨rfl, rfl, rfl, hlast⟩ := heq
      cases before with
      | nil =>
        cases hlast
        exact ⟨rfl, rfl⟩
      | cons c before => simp at hlast
  intro now rg hrg p t hstands _ hnone
  obtain rfl : ['b'] = rg := Option.some.inj hrg
  have hgroup : config_group nameTools (run (step nameTools) (fresh workA containerB 1) [.upload, .edit workB containerB 1]) =
      some ['b'] := rfl
  rcases (standing_snoc (step nameTools) (effect nameTools) _ [.upload, .edit workB containerB 1] .upload p t).1 hstands with
    ⟨hputs, -⟩ | ⟨-, hstays⟩
  · exact absurd hnone (stored_of_puts hgroup hputs)
  · exact absurd (Option.isSome_iff_exists.2 ⟨_, hgroup⟩) hstays

end AzHop.StateFiles
