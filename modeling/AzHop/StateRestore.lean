import AzHop.StateFiles
/-!
# Restoring an environment

Uploads and deletions from any number of working directories, for any resource
groups, and then a download into a new directory: what it finds there of the
resource group is, file by file, what the last upload that had the file put
there, unless the state was deleted since. An upload does not take away what an
earlier one has stored.
-/
namespace AzHop.StateFiles
open Lib.Staging

variable {Content : Type}

/-- `azcopy copy` to the container overwrites, and leaves what the source does not have. -/
def Tools.Stores (tools : Tools Content) : Prop :=
  ∀ dir blobs p, tools.azcopy_upload dir blobs p = ((dir p).map File.content).or (blobs p)

/-- A command of the script, in the working directory it is given in. -/
inductive Change (Content : Type)
  | upload (work state_dir : Tree Content) (now : Nat)
  | delete (arg : Name) (work : Tree Content)

variable (tools : Tools Content)

/-- The resource group whose files the command changes. -/
def Change.group : Change Content → Option Name
  | .upload work state_dir now => config_group tools ⟨work, state_dir, fun _ _ => none, now⟩
  | .delete arg work => get_resource_group tools arg ⟨work, fun _ => none, fun _ _ => none, 0⟩

/-- The container after a command. `azcopy remove` takes away everything under the resource group. -/
def Change.apply (container : Name → Blobs Content) : Change Content → Name → Blobs Content
  | .upload work state_dir now => (StateFiles.upload tools ⟨work, state_dir, container, now⟩).container
  | .delete arg work =>
    match Change.group tools (.delete arg work) with
    | none => container
    | some rg => Function.update container rg fun _ => none

/-- What a new directory holds after a download of the resource group. -/
def restored (container : Name → Blobs Content) (rg : Name) (now : Nat) : Tree Content :=
  (download tools rg (fresh (fun _ => none) container now)).work

/-! ## One command -/

/-- The file that an upload for the resource group stores. -/
def stored (rg : Name) (p : Path) : Change Content → Option Content
  | .upload work state_dir now =>
    if Change.group tools (.upload work state_dir now) = some rg then
      (work config_yml).bind fun config =>
        if isStateFile rg (tools.admin_user config.content) p then (work p).map File.content else none
    else none
  | .delete .. => none

def deletes (rg : Name) : Change Content → Bool
  | .upload .. => false
  | .delete arg work => Change.group tools (.delete arg work) = some rg

variable {tools}

theorem apply_eq (h : tools.Stores) (container : Name → Blobs Content) (c : Change Content) (rg : Name) (p : Path) :
    c.apply tools container rg p = assign (stored tools rg p) (deletes tools rg) (container rg p) c := by
  cases c with
  | upload work state_dir now =>
    have hgroup : config_group tools ⟨work, state_dir, container, now⟩ =
        Change.group tools (.upload work state_dir now) := rfl
    change (upload tools ⟨work, state_dir, container, now⟩).container rg p = _
    unfold upload
    rw [hgroup]
    cases hrg : Change.group tools (.upload work state_dir now) with
    | none => cases hwork : work config_yml <;> simp [assign, stored, deletes, hrg, hwork]
    | some group =>
      obtain ⟨config, hconfig⟩ := config_of_group (hgroup.trans hrg)
      have hconfig : work config_yml = some config := hconfig
      simp only [hconfig]
      by_cases hsame : rg = group
      · subst hsame
        rw [if_pos rfl, h, stage]
        simp only [assign, stored, deletes, hrg, hconfig, if_true, Option.bind_some, Bool.false_eq_true, if_false]
        split <;> simp [Option.map_map, Function.comp_def]
      · have hne : ¬group = rg := fun heq => hsame heq.symm
        simp [assign, stored, deletes, hrg, hsame, hne]
  | delete arg work =>
    change (match Change.group tools (.delete arg work) with
      | none => container
      | some rg => Function.update container rg fun _ => none) rg p = _
    cases hrg : Change.group tools (.delete arg work) with
    | none => simp [assign, stored, deletes, hrg]
    | some group =>
      by_cases hsame : rg = group
      · subst hsame
        simp [assign, stored, deletes, hrg]
      · have hne : ¬group = rg := fun heq => hsame heq.symm
        simp [assign, stored, deletes, hrg, hne, Function.update_of_ne hsame]

theorem run_apply (h : tools.Stores) (cs : List (Change Content)) (rg : Name) (p : Path) :
    run (Change.apply tools) (fun _ _ => none) cs rg p = lastWrite (stored tools rg p) (deletes tools rg) cs := by
  induction cs using List.reverseRecOn with
  | nil => rfl
  | append_singleton cs c ih => rw [run_append, run_singleton, apply_eq h, ih, lastWrite_snoc]

/-! ## Restoring -/

theorem restored_eq (h : tools.Overwrites) (container : Name → Blobs Content) {rg : Name} (hrg : rg ≠ []) (now : Nat)
    (p : Path) : restored tools container rg now p =
      if visible p then (container rg p).map fun content => ⟨content, now⟩ else none := by
  have hgroup : get_resource_group tools rg (fresh (fun _ => none) container now) = some rg := if_neg hrg
  rw [restored, download, hgroup]
  change cp_update now (fun _ => none) (tools.azcopy_download now (container rg) fun _ => none) p = _
  unfold cp_update copied
  rw [h]
  cases container rg p <;> cases visible p <;> simp [Option.filter]

/-- After every history of uploads and deletions, a download into a new
directory brings a file exactly as the last upload for the resource group that
had the file left it, if the state was not deleted since; no other resource
group matters, and a file that later uploads no longer have comes back. -/
theorem restored_iff (hdown : tools.Overwrites) (hup : tools.Stores) (cs : List (Change Content)) {rg : Name} (hrg : rg ≠ [])
    (now : Nat) (p : Path) (content : Content) :
    restored tools (run (Change.apply tools) (fun _ _ => none) cs) rg now p = some ⟨content, now⟩ ↔
      visible p ∧ ∃ before c after, cs = before ++ c :: after ∧ stored tools rg p c = some content ∧
        ∀ d ∈ after, stored tools rg p d = none ∧ deletes tools rg d = false := by
  rw [restored_eq hdown _ hrg, run_apply hup, ← lastWrite_eq_some_iff]
  cases visible p with
  | false => simp
  | true =>
    simp only [if_true, true_and, Option.map_eq_some_iff, File.mk.injEq, and_true]
    constructor
    · rintro ⟨c, hc, rfl⟩
      exact hc
    · exact fun hc => ⟨content, hc, rfl⟩

theorem nameTools_stores : nameTools.Stores := fun _ _ _ => rfl

/-- An environment of which the parameters are gone. -/
def workA' : Tree Name := fun p => if p = config_yml then some ⟨['a'], 2⟩ else none

theorem restored_iff_parameters :
    restored nameTools (run (Change.apply nameTools) (fun _ _ => none)
        [.upload workA (fun _ => none) 1, .upload workB (fun _ => none) 2, .upload workA' (fun _ => none) 3])
      ['a'] 4 parametersA = some ⟨['x'], 4⟩ := by
  refine (restored_iff nameTools_overwrites nameTools_stores _ (by decide) 4 parametersA ['x']).2 ⟨by decide, ?_⟩
  refine ⟨[], .upload workA (fun _ => none) 1, [.upload workB (fun _ => none) 2, .upload workA' (fun _ => none) 3], rfl,
    by decide, ?_⟩
  simp only [List.forall_mem_cons]
  decide

end AzHop.StateFiles
