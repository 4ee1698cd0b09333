import AzHop.Lib.Double
import AzHop.Lib.Replace
/-!
# Sessions that share a node

The forms of the portal let a user take a part of a node: with the ratio `r`, a
session asks for `1/r` of its cores, rounded down, and on Slurm for `1/r` of its
GPUs, rounded up so that every session has one. `sharing` says what `r` such
sessions ask for together; they may ask for more GPUs than there are
(`not_fits_gpu`).
-/
namespace AzHop.NodeSharing
open Lib.Double Lib.Replace

abbrev Text := List Char

/-- An entry of `node_arrays.yml`. -/
structure SlotType where
  name : Text
  vcpuCount : Nat
  gpuCount : Nat

/-- The options of `scheduler_args`. -/
inductive Arg
  /-- `-p target` -/
  | partition (target : Text)
  /-- `-q vizq` -/
  | vizq
  | ntasks_per_node (cores : Nat)
  | exclusive
  | gpus (count : Nat)
  /-- `-l select=1:slot_type=..:ncpus=..`, and `:mpiprocs=..` -/
  | select (slot_type : Text) (ncpus : Nat) (mpiprocs : Option Nat)
  /-- `-l select=1:slot_type=..,place=scatter:excl` -/
  | select_excl (slot_type : Text)
  | container_mounts (dataset_dir : Text)
  | export_all
  | container_image (image : Text)
  /-- `-v enroot=1` -/
  | enroot

/-- The fields of the form that the submission reads. -/
structure Form where
  target : Text
  node_ratio : Nat
  dataset_dir : Text
  container_image : Text

variable (node_arrays : List SlotType) (form : Form)

/-! ## The forms -/

/-- The option for GPUs, where there are any. -/
def gpuArgs (gpu_count : Nat) : List Arg := if gpu_count > 0 then [.gpus gpu_count] else []

/-- The options for a part of a node, and the GPUs; `none` is an exception. -/
def share (slot_type : SlotType) (node_ratio : Nat) : Option (List Arg × Nat) :=
  if node_ratio > 1 then
    (ceil (div (ofRat slot_type.gpuCount) (ofRat node_ratio))).map fun gpu_count =>
      (.ntasks_per_node (slot_type.vcpuCount / node_ratio) :: gpuArgs gpu_count.toNat, gpu_count.toNat)
  else some (.exclusive :: gpuArgs slot_type.gpuCount, slot_type.gpuCount)

/-- The options of a form on Slurm, between those of its own. -/
def slurm (before : List Arg) (after : Nat → List Arg) : Option (List Arg) := do
  let slot_type ← node_arrays.find? fun slot_type => slot_type.name = form.target
  let (args, gpu_count) ← share slot_type form.node_ratio
  return .partition form.target :: before ++ args ++ after gpu_count

/-- The options of a form on PBS. -/
def pbs (mpiprocs : Bool) (after : List Arg) : Option (List Arg) :=
  match node_arrays.find? fun slot_type => slot_type.name = form.target with
  | none => some (.vizq :: after)
  | some slot_type =>
    if form.node_ratio = 0 then none
    else
      let cores := slot_type.vcpuCount / form.node_ratio
      some (.vizq :: .select form.target cores (if mpiprocs then some cores else none) :: after)

/-- The desktop on Slurm. -/
def bc_desktop_slurm : Option (List Arg) := slurm node_arrays form [] fun _ => []

/-- ParaView on Slurm. -/
def bc_paraview_slurm : Option (List Arg) := slurm node_arrays form [] fun _ => []

/-- VMD on Slurm. -/
def bc_vmd_slurm : Option (List Arg) := slurm node_arrays form [] fun _ => []

/-- `container_image.gsub("${gl}", gl)`. -/
def image (gpu_count : Nat) : Text :=
  let gl := if gpu_count > 0 then ['e', 'g', 'l'] else ['o', 's', 'm', 'e', 's', 'a']
  replaceAll ['$', '\x7b', 'g', 'l', '\x7d'] gl form.container_image

/-- Vizer on Slurm, in a container. -/
def bc_vizer_slurm : Option (List Arg) :=
  slurm node_arrays form [.container_mounts form.dataset_dir, .export_all] fun gpu_count =>
    [.container_image (image form gpu_count)]

/-- The desktop on PBS. -/
def bc_desktop_pbs : Option (List Arg) := pbs node_arrays form false []

/-- ParaView on PBS. -/
def bc_paraview_pbs : Option (List Arg) := pbs node_arrays form true []

/-- The only form on PBS that takes a whole node for itself. -/
def bc_vmd_pbs : Option (List Arg) :=
  if form.node_ratio > 1 then pbs node_arrays form false [] else some [.vizq, .select_excl form.target]

/-- Vizer on PBS, in a container. -/
def bc_vizer_pbs : Option (List Arg) := pbs node_arrays form true [.enroot]

/-- The applications that share nodes. -/
inductive App
  | bc_desktop
  | bc_paraview
  | bc_vmd
  | bc_vizer

/-- The schedulers they are submitted to. -/
inductive Scheduler
  | slurm
  | pbspro

/-- The options of a submission; `none` is an exception. -/
def submit : Scheduler → App → Option (List Arg)
  | .slurm, .bc_desktop => bc_desktop_slurm node_arrays form
  | .slurm, .bc_paraview => bc_paraview_slurm node_arrays form
  | .slurm, .bc_vmd => bc_vmd_slurm node_arrays form
  | .slurm, .bc_vizer => bc_vizer_slurm node_arrays form
  | .pbspro, .bc_desktop => bc_desktop_pbs node_arrays form
  | .pbspro, .bc_paraview => bc_paraview_pbs node_arrays form
  | .pbspro, .bc_vmd => bc_vmd_pbs node_arrays form
  | .pbspro, .bc_vizer => bc_vizer_pbs node_arrays form

/-! ## What a session asks for -/

/-- The cores an option asks for on a node of a type. -/
def Arg.cores (slot_type : SlotType) : Arg → Nat
  | .ntasks_per_node cores => cores
  | .exclusive => slot_type.vcpuCount
  | .select _ ncpus _ => ncpus
  | .select_excl _ => slot_type.vcpuCount
  | _ => 0

/-- The GPUs an option asks for. -/
def Arg.gpuCount : Arg → Nat
  | .gpus count => count
  | _ => 0

/-- The cores a submission asks for on a node. -/
def cores (slot_type : SlotType) (args : List Arg) : Nat := (args.map (Arg.cores slot_type)).sum

/-- The GPUs a submission asks for. -/
def gpuCount (args : List Arg) : Nat := (args.map Arg.gpuCount).sum

/-- `r` sessions fit on the node, and each has a core and, on Slurm, a GPU where
there are any. -/
def Fits (scheduler : Scheduler) (app : App) (slot_type : SlotType) : Prop :=
  ∃ args, submit node_arrays form scheduler app = some args ∧
    form.node_ratio * cores slot_type args ≤ slot_type.vcpuCount ∧
    form.node_ratio * gpuCount args ≤ slot_type.gpuCount ∧ 1 ≤ cores slot_type args ∧
    (scheduler = .slurm → 0 < slot_type.gpuCount → 1 ≤ gpuCount args)

/-- The cores of a share. -/
def SharesCores (slot_type : SlotType) (args : List Arg) : Prop :=
  form.node_ratio * cores slot_type args ≤ slot_type.vcpuCount ∧
  (form.node_ratio ≤ slot_type.vcpuCount → 1 ≤ cores slot_type args)

/-- The GPUs of a share: one part, rounded up. -/
def SharesGpus (slot_type : SlotType) (args : List Arg) : Prop :=
  (gpuCount args : ℤ) = ⌈(slot_type.gpuCount / form.node_ratio : ℚ)⌉ ∧
  (0 < slot_type.gpuCount → 1 ≤ gpuCount args) ∧
  (form.node_ratio ∣ slot_type.gpuCount → form.node_ratio * gpuCount args ≤ slot_type.gpuCount) ∧
  form.node_ratio * gpuCount args < slot_type.gpuCount + form.node_ratio

/-! ## Counting -/

theorem cores_append (slot_type : SlotType) (l l' : List Arg) :
    cores slot_type (l ++ l') = cores slot_type l + cores slot_type l' := by simp [cores]

theorem gpuCount_append (l l' : List Arg) : gpuCount (l ++ l') = gpuCount l + gpuCount l' := by simp [gpuCount]

theorem cores_gpuArgs (slot_type : SlotType) (n : Nat) : cores slot_type (gpuArgs n) = 0 := by
  unfold gpuArgs
  split <;> rfl

theorem gpuCount_gpuArgs (n : Nat) : gpuCount (gpuArgs n) = n := by
  unfold gpuArgs
  split
  · rfl
  · have hn : n = 0 := by omega
    rw [hn]
    rfl

/-- A part of the cores, rounded down. -/
theorem sharesCores_of_div {slot_type : SlotType} {args : List Arg} (hr : 1 ≤ form.node_ratio)
    (h : cores slot_type args = slot_type.vcpuCount / form.node_ratio) : SharesCores form slot_type args := by
  rw [SharesCores, h]
  exact ⟨Nat.mul_div_le _ _, fun hle => Nat.div_pos hle hr⟩

/-- A part of the GPUs, rounded up. -/
theorem sharesGpus_of_ceil {slot_type : SlotType} {args : List Arg} (hr : 1 ≤ form.node_ratio)
    (h : (gpuCount args : ℤ) = ⌈(slot_type.gpuCount / form.node_ratio : ℚ)⌉) : SharesGpus form slot_type args := by
  have hrq : (0 : ℚ) < form.node_ratio := by exact_mod_cast hr
  have hceil : (gpuCount args : ℚ) = ⌈(slot_type.gpuCount / form.node_ratio : ℚ)⌉ := by
    rw [← h, Int.cast_natCast]
  refine ⟨h, fun hpos => ?_, fun ⟨k, hk⟩ => ?_, ?_⟩
  · have hq : (0 : ℚ) < slot_type.gpuCount / form.node_ratio := div_pos (by exact_mod_cast hpos) hrq
    have hone := Int.ceil_pos.2 hq
    omega
  · have hq : (slot_type.gpuCount / form.node_ratio : ℚ) = (k : ℤ) := by
      rw [div_eq_iff hrq.ne', hk]
      push_cast
      ring
    rw [hq, Int.ceil_intCast] at h
    rw [hk, show gpuCount args = k by exact_mod_cast h]
  · have hlt := Int.ceil_lt_add_one (slot_type.gpuCount / form.node_ratio : ℚ)
    rw [← hceil, ← sub_lt_iff_lt_add, lt_div_iff₀ hrq] at hlt
    have hcast : (form.node_ratio * gpuCount args : ℚ) < slot_type.gpuCount + form.node_ratio := by linarith
    exact_mod_cast hcast

/-! ## Slurm -/

/-- Options that ask for neither cores nor GPUs. -/
def Neutral (args : List Arg) : Prop := ∀ slot_type, cores slot_type args = 0 ∧ gpuCount args = 0

theorem share_counts {slot_type : SlotType} {r : Nat} (hr : 1 ≤ r) {shared : List Arg} {gpu_count : Nat}
    (h : share slot_type r = some (shared, gpu_count)) :
    cores slot_type shared = slot_type.vcpuCount / r ∧ gpuCount shared = gpu_count := by
  have hcons : ∀ (arg : Arg) (n : Nat), arg.gpuCount = 0 →
      cores slot_type (arg :: gpuArgs n) = arg.cores slot_type ∧ gpuCount (arg :: gpuArgs n) = n := by
    intro arg n hzero
    have hcores := cores_append slot_type [arg] (gpuArgs n)
    have hgpus := gpuCount_append [arg] (gpuArgs n)
    rw [cores_gpuArgs] at hcores
    rw [gpuCount_gpuArgs] at hgpus
    exact ⟨by simpa [cores] using hcores, by simpa [gpuCount, hzero] using hgpus⟩
  unfold share at h
  split at h
  · obtain ⟨n, -, hn⟩ := Option.map_eq_some_iff.1 h
    obtain ⟨rfl, rfl⟩ := Prod.mk.inj hn
    exact hcons _ _ rfl
  · obtain rfl : r = 1 := by omega
    cases h
    rw [Nat.div_one]
    exact hcons _ _ rfl

theorem exists_share {slot_type : SlotType} {r : Nat} (hr : 1 ≤ r) (hg : slot_type.gpuCount < 2 ^ 53)
    (hr' : r < 2 ^ 53) : ∃ shared gpu_count, share slot_type r = some (shared, gpu_count) ∧
      (gpu_count : ℤ) = ⌈(slot_type.gpuCount / r : ℚ)⌉ := by
  unfold share
  split
  · have hnonneg : 0 ≤ ⌈(slot_type.gpuCount / r : ℚ)⌉ := Int.ceil_nonneg (by positivity)
    rw [ceil_div hg (by omega) hr']
    exact ⟨_, _, rfl, Int.toNat_of_nonneg hnonneg⟩
  · obtain rfl : r = 1 := by omega
    exact ⟨_, _, rfl, by simp⟩

section Slurm

variable {node_arrays form} {slot_type : SlotType} {before : List Arg} {after : Nat → List Arg}
  (hfind : node_arrays.find? (fun slot_type => slot_type.name = form.target) = some slot_type)

include hfind

theorem slurm_eq : slurm node_arrays form before after = (share slot_type form.node_ratio).map fun shared =>
    .partition form.target :: before ++ shared.1 ++ after shared.2 := by
  simp only [slurm, hfind, Option.bind_eq_bind, Option.bind_some]
  cases hshare : share slot_type form.node_ratio <;> simp

variable (hr : 1 ≤ form.node_ratio) (hbefore : Neutral before) (hafter : ∀ n, Neutral (after n))

include hr hbefore hafter

omit hfind in
theorem slurm_counts {shared : List Arg} {gpu_count : Nat}
    (hshare : share slot_type form.node_ratio = some (shared, gpu_count)) :
    cores slot_type (.partition form.target :: before ++ shared ++ after gpu_count) =
        slot_type.vcpuCount / form.node_ratio ∧
      gpuCount (.partition form.target :: before ++ shared ++ after gpu_count) = gpu_count := by
  obtain ⟨hcores, hgpus⟩ := share_counts hr hshare
  have hpartition : cores slot_type (.partition form.target :: before) = 0 := by
    simpa [cores, Arg.cores] using (hbefore slot_type).1
  have hpartition' : gpuCount (.partition form.target :: before) = 0 := by
    simpa [gpuCount, Arg.gpuCount] using (hbefore slot_type).2
  rw [cores_append, cores_append, hpartition, hcores, (hafter gpu_count slot_type).1, gpuCount_append, gpuCount_append,
    hpartition', hgpus, (hafter gpu_count slot_type).2]
  simp

theorem slurm_cores {args : List Arg} (h : slurm node_arrays form before after = some args) :
    SharesCores form slot_type args := by
  rw [slurm_eq hfind] at h
  obtain ⟨⟨shared, gpu_count⟩, hshare, rfl⟩ := Option.map_eq_some_iff.1 h
  exact sharesCores_of_div form hr (slurm_counts hr hbefore hafter hshare).1

theorem slurm_gpus (hg : slot_type.gpuCount < 2 ^ 53) (hr' : form.node_ratio < 2 ^ 53) :
    ∃ args, slurm node_arrays form before after = some args ∧ SharesGpus form slot_type args := by
  obtain ⟨shared, gpu_count, hshare, hceil⟩ := exists_share hr hg hr'
  rw [slurm_eq hfind, hshare]
  refine ⟨_, rfl, sharesGpus_of_ceil form hr ?_⟩
  rw [(slurm_counts hr hbefore hafter hshare).2, hceil]

end Slurm

/-! ## PBS -/

section Pbs

variable {node_arrays form} {slot_type : SlotType} {after : List Arg}
  (hfind : node_arrays.find? (fun slot_type => slot_type.name = form.target) = some slot_type)
  (hr : 1 ≤ form.node_ratio) (hafter : Neutral after)

include hfind hr hafter

theorem pbs_shares (mpiprocs : Bool) : ∃ args, pbs node_arrays form mpiprocs after = some args ∧
    SharesCores form slot_type args ∧ gpuCount args = 0 := by
  have hne : form.node_ratio ≠ 0 := by omega
  simp only [pbs, hfind, if_neg hne]
  refine ⟨_, rfl, sharesCores_of_div form hr ?_, ?_⟩
  · simpa [cores, Arg.cores] using (hafter slot_type).1
  · simpa [gpuCount, Arg.gpuCount] using (hafter slot_type).2

end Pbs

theorem neutral_nil : Neutral [] := fun _ => ⟨rfl, rfl⟩

/-! ## Every form -/

/-- What the sessions of any form ask for together. -/
structure Shares (scheduler : Scheduler) (app : App) (slot_type : SlotType) : Prop where
  cores : ∀ args, submit node_arrays form scheduler app = some args → SharesCores form slot_type args
  slurm : scheduler = .slurm → slot_type.gpuCount < 2 ^ 53 → form.node_ratio < 2 ^ 53 →
    ∃ args, submit node_arrays form scheduler app = some args ∧ SharesGpus form slot_type args
  pbs : scheduler = .pbspro → ∃ args, submit node_arrays form scheduler app = some args ∧ gpuCount args = 0

variable {node_arrays form}

theorem shares_slurm {slot_type : SlotType} (hr : 1 ≤ form.node_ratio)
    (hfind : node_arrays.find? (fun slot_type => slot_type.name = form.target) = some slot_type) (app : App)
    (before : List Arg) (after : Nat → List Arg) (hbefore : Neutral before) (hafter : ∀ n, Neutral (after n))
    (h : submit node_arrays form .slurm app = slurm node_arrays form before after) :
    Shares node_arrays form .slurm app slot_type where
  cores _ hargs := slurm_cores hfind hr hbefore hafter (h ▸ hargs)
  slurm _ hg hr' := h ▸ slurm_gpus hfind hr hbefore hafter hg hr'
  pbs := nofun

theorem shares_pbs {slot_type : SlotType} {app : App} {args : List Arg}
    (h : submit node_arrays form .pbspro app = some args) (hcores : SharesCores form slot_type args)
    (hgpus : gpuCount args = 0) : Shares node_arrays form .pbspro app slot_type where
  cores args' hargs := by
    cases h.symm.trans hargs
    exact hcores
  slurm := nofun
  pbs _ := ⟨args, h, hgpus⟩

/-- The forms share a node alike, on either scheduler. -/
theorem sharing (scheduler : Scheduler) (app : App) {slot_type : SlotType} (hr : 1 ≤ form.node_ratio)
    (hfind : node_arrays.find? (fun slot_type => slot_type.name = form.target) = some slot_type) :
    Shares node_arrays form scheduler app slot_type := by
  have hpbs : ∀ mpiprocs after, Neutral after → ∀ app,
      submit node_arrays form .pbspro app = pbs node_arrays form mpiprocs after →
      Shares node_arrays form .pbspro app slot_type := by
    intro mpiprocs after hafter app h
    obtain ⟨args, hargs, hcores, hgpus⟩ := pbs_shares hfind hr hafter mpiprocs
    exact shares_pbs (h.trans hargs) hcores hgpus
  cases scheduler with
  | slurm =>
    cases app with
    | bc_desktop => exact shares_slurm hr hfind _ [] (fun _ => []) neutral_nil (fun _ => neutral_nil) rfl
    | bc_paraview => exact shares_slurm hr hfind _ [] (fun _ => []) neutral_nil (fun _ => neutral_nil) rfl
    | bc_vmd => exact shares_slurm hr hfind _ [] (fun _ => []) neutral_nil (fun _ => neutral_nil) rfl
    | bc_vizer =>
      exact shares_slurm hr hfind _ [.container_mounts form.dataset_dir, .export_all]
        (fun gpu_count => [.container_image (image form gpu_count)]) (fun _ => ⟨rfl, rfl⟩) (fun _ _ => ⟨rfl, rfl⟩) rfl
  | pbspro =>
    cases app with
    | bc_desktop => exact hpbs false [] neutral_nil _ rfl
    | bc_paraview => exact hpbs true [] neutral_nil _ rfl
    | bc_vmd =>
      by_cases hshared : form.node_ratio > 1
      · exact hpbs false [] neutral_nil _ (if_pos hshared)
      · -- the whole node
        refine shares_pbs (if_neg hshared) (sharesCores_of_div form hr ?_) rfl
        obtain hone : form.node_ratio = 1 := by omega
        rw [hone, Nat.div_one]
        simp [cores, Arg.cores]
    | bc_vizer => exact hpbs true [.enroot] (fun _ => ⟨rfl, rfl⟩) _ rfl

/-! ## A node with one GPU -/

/-- A node with eight cores and one GPU. -/
def gpuNode : SlotType := ⟨['v'], 8, 1⟩

/-- Half of that node. -/
def half : Form := ⟨['v'], 2, [], []⟩

theorem sharing_half : Shares [gpuNode] half .slurm .bc_desktop gpuNode := sharing .slurm .bc_desktop (by decide) rfl

/-- Two sessions ask for the GPU each. -/
theorem not_fits_gpu :
    1 ≤ half.node_ratio ∧ [gpuNode].find? (fun slot_type => slot_type.name = half.target) = some gpuNode ∧
      ¬ Fits [gpuNode] half .slurm .bc_desktop gpuNode := by
  refine ⟨by decide, rfl, fun hfits => ?_⟩
  obtain ⟨args, hargs, -, hgpus, -, hone⟩ := hfits
  have hone := hone rfl (by decide)
  change 2 * gpuCount args ≤ 1 at hgpus
  omega

end AzHop.NodeSharing
