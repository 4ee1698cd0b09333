import AzHop.GetContainer
import AzHop.Lib.Staging
import Mathlib.Data.List.Count
import Mathlib.Logic.Function.Basic
/-!
# Two imports on a node

Two runs of `get_container.sh` share the temporary directory of `enroot`. Each
takes three steps: it imports its image into the squashfs file, creates its
container from the file, and removes the file. The name of the file comes from
the image alone, so that two runs for one image, or for two images that differ
in `/`, `:` and `+`, use one file.
-/
namespace AzHop.GetContainer
open Lib.Staging Secrets

/-- The two jobs. -/
inductive Run
  | first
  | second
deriving DecidableEq

variable {Squash : Type}

/-- `enroot` and its configuration. It imports an image reference, in which no
character means anything to the shell, and either overwrites a file that is
there or fails on it. -/
structure Enroot (Squash : Type) where
  registry : Text → Option Squash
  registry_plain : ∀ uri sq, registry uri = some sq → uri ≠ [] ∧ ∀ c ∈ uri, plain c = true
  overwrites : Bool
  ENROOT_TEMP_PATH : Text
  temp_plain : ∀ c ∈ ENROOT_TEMP_PATH, plain c = true

/-- The name of a container is one word for the shell. -/
structure ContainerName (sh : Shell) where
  text : Text
  one_word : arguments sh text = [text]

/-- What a job passes to the script. -/
structure Job (sh : Shell) where
  container_image : Text
  container_name : ContainerName sh

/-- The jobs give their containers different names. -/
structure Jobs (sh : Shell) where
  job : Run → Job sh
  distinct : ∀ r r', r ≠ r' → (job r).container_name.text ≠ (job r').container_name.text

/-- The step a run takes next. -/
inductive Phase
  | importing
  | creating
  | removing
  | done
  | failed

/-- The files under `ENROOT_TEMP_PATH`, the containers, and where each job is. -/
structure State (Squash : Type) where
  files : Text → Option Squash
  containers : Text → Option Squash
  phase : Run → Phase

variable (e : Enroot Squash) {sh : Shell} (jobs : Jobs sh)

/-! ## The script -/

/-- `.sqsh`. -/
def sqsh : Text := ['.', 's', 'q', 's', 'h']

/-- The path of the image, which the name of the container is not in. -/
def container_squashfs_path (job : Job sh) : Text :=
  e.ENROOT_TEMP_PATH ++ '/' :: (squashfsName (withScheme sh job.container_image) ++ sqsh)

/-- `enroot import --output path uri`, and `none` where it fails. -/
def enroot_import (args : List Text) (files : Text → Option Squash) : Option (Text → Option Squash) :=
  match args with
  | [output, uri] =>
    match e.registry uri with
    | some sq => if (files output).isSome && !e.overwrites then none else some (Function.update files output (some sq))
    | none => none
  | _ => none

/-- `enroot create --name name path`, and `none` where it fails. -/
def enroot_create (args : List Text) (s : State Squash) : Option (Text → Option Squash) :=
  match args with
  | [name, path] =>
    match s.files path with
    | some sq => if (s.containers name).isSome then none else some (Function.update s.containers name (some sq))
    | none => none
  | _ => none

/-- `rm`, of all its arguments. -/
def rm (args : List Text) (files : Text → Option Squash) (p : Text) : Option Squash :=
  if args.any fun arg => arg = p then none else files p

/-- The next step of a run: the script ends where a command fails. -/
def step (s : State Squash) (r : Run) : State Squash :=
  let job := jobs.job r
  let path := arguments sh (container_squashfs_path e job)
  let become := Function.update s.phase r
  match s.phase r with
  | .importing =>
    match enroot_import e (path ++ arguments sh (withScheme sh job.container_image)) s.files with
    | some files => { s with files := files, phase := become .creating }
    | none => { s with phase := become .failed }
  | .creating =>
    match enroot_create (arguments sh job.container_name.text ++ path) s with
    | some containers => { s with containers := containers, phase := become .removing }
    | none => { s with phase := become .failed }
  | .removing => { s with files := rm path s.files, phase := become .done }
  | .done => s
  | .failed => s

/-! ## What it should do -/

/-- Neither file and neither container is there yet. -/
def Fresh (s : State Squash) : Prop :=
  ∀ r, s.phase r = .importing ∧ s.files (container_squashfs_path e (jobs.job r)) = none ∧
    s.containers (jobs.job r).container_name.text = none

/-- Where a job is after so many steps. -/
def phaseAfter : Nat → Phase
  | 0 => .importing
  | 1 => .creating
  | 2 => .removing
  | _ => .done

/-- A run has come as far as its steps take it. While it needs its file, the file
is the squashfs of its image; from then on its container is made of it. -/
def Undisturbed (s : State Squash) (r : Run) (steps : Nat) : Prop :=
  s.phase r = phaseAfter steps ∧
  (steps = 1 → ∃ sq, e.registry (uri (jobs.job r).container_image) = some sq ∧
    s.files (container_squashfs_path e (jobs.job r)) = some sq) ∧
  (2 ≤ steps → ∃ sq, e.registry (uri (jobs.job r).container_image) = some sq ∧
    s.containers (jobs.job r).container_name.text = some sq)

/-- Both runs do, in any order of their steps. -/
def Isolated : Prop :=
  ∀ s, Fresh e jobs s → ∀ schedule : List Run, ∀ r,
    Undisturbed e jobs (run (step e jobs) s schedule) r (schedule.count r)

/-- `enroot` imports the image, by the URI the script makes of it. -/
def Importable (job : Job sh) : Prop :=
  ∃ sq, e.registry (uri job.container_image) = some sq ∧ e.registry (withScheme sh job.container_image) = some sq

/-! ## Arguments -/

theorem plus_plain {c : Char} {name : Text} (h : ∀ d ∈ name, plain d = true) : ∀ d ∈ plus c name, plain d = true := by
  intro d hd
  obtain ⟨f, hf, rfl⟩ := List.mem_map.1 hd
  split
  · rfl
  · exact h f hf

theorem rest?_subset {pat l rest : Text} (h : Lib.Split.rest? pat l = some rest) : ∀ c ∈ rest, c ∈ l := by
  rw [Lib.Split.rest?_eq_drop, Option.map_eq_some_iff] at h
  obtain ⟨i, -, rfl⟩ := h
  exact fun c hc => List.mem_of_mem_drop hc

theorem squashfsName_plain {image : Text} (h : ∀ c ∈ image, plain c = true) :
    ∀ c ∈ squashfsName image, plain c = true := by
  refine plus_plain (plus_plain fun c hc => ?_)
  unfold withoutScheme at hc
  cases hrest : Lib.Split.rest? separator image with
  | none =>
    rw [hrest] at hc
    exact h c hc
  | some rest =>
    rw [hrest] at hc
    exact h c (rest?_subset hrest c hc)

theorem image_plain {image : Text} (h : ∀ c ∈ uri image, plain c = true) : ∀ c ∈ image, plain c = true := by
  unfold uri at h
  split at h
  · exact h
  · exact fun c hc => h c (List.mem_append_right _ hc)

theorem withScheme_plain {image : Text} (h : ∀ c ∈ image, plain c = true) :
    ∀ c ∈ withScheme sh image, plain c = true := by
  unfold withScheme
  split
  · exact fun c hc => (List.mem_append.1 hc).elim (docker_plain c) (h c)
  · exact h

variable {e jobs}

theorem path_plain {job : Job sh} (h : ∀ c ∈ job.container_image, plain c = true) :
    ∀ c ∈ container_squashfs_path e job, plain c = true := by
  have hsqsh : ∀ c ∈ '/' :: sqsh, plain c = true := List.all_eq_true.1 rfl
  intro c hc
  simp only [container_squashfs_path, List.mem_append, List.mem_cons] at hc
  rcases hc with hc | rfl | hc | hc
  · exact e.temp_plain c hc
  · exact hsqsh '/' List.mem_cons_self
  · exact squashfsName_plain (withScheme_plain h) c hc
  · exact hsqsh c (List.mem_cons_of_mem _ hc)

/-- The path of the file of a plain image is one argument. -/
theorem arguments_path {job : Job sh} (h : ∀ c ∈ job.container_image, plain c = true) :
    arguments sh (container_squashfs_path e job) = [container_squashfs_path e job] :=
  arguments_plain (path_plain h) (by simp [container_squashfs_path])

theorem plain_of_registry {job : Job sh} {sq : Squash} (h : e.registry (uri job.container_image) = some sq) :
    ∀ c ∈ job.container_image, plain c = true :=
  image_plain (e.registry_plain _ sq h).2

theorem path_ne_iff {job job' : Job sh} : container_squashfs_path e job ≠ container_squashfs_path e job' ↔
    squashfsName (withScheme sh job.container_image) ≠ squashfsName (withScheme sh job'.container_image) := by
  simp [container_squashfs_path]

/-! ## Steps -/

/-- What a run that can import its image does first. -/
theorem step_importing {s : State Squash} {r : Run} {sq : Squash} (hphase : s.phase r = .importing)
    (hregistry : e.registry (withScheme sh (jobs.job r).container_image) = some sq)
    (hplain : ∀ c ∈ (jobs.job r).container_image, plain c = true)
    (hfile : s.files (container_squashfs_path e (jobs.job r)) = none) :
    step e jobs s r = { s with
      files := Function.update s.files (container_squashfs_path e (jobs.job r)) (some sq)
      phase := Function.update s.phase r .creating } := by
  obtain ⟨hne, huri⟩ := e.registry_plain _ sq hregistry
  simp [step, hphase, arguments_path hplain, arguments_plain huri hne, enroot_import, hregistry, hfile]

/-- A run that gets past the import can import its image. -/
theorem registry_of_step {s : State Squash} {r : Run} (hphase : s.phase r = .importing)
    (hplain : ∀ c ∈ (jobs.job r).container_image, plain c = true)
    (hnext : (step e jobs s r).phase r = .creating) :
    ∃ sq, e.registry (withScheme sh (jobs.job r).container_image) = some sq ∧
      (step e jobs s r).files (container_squashfs_path e (jobs.job r)) = some sq := by
  have hargs : arguments sh (withScheme sh (jobs.job r).container_image) = [] ∨
      arguments sh (withScheme sh (jobs.job r).container_image) = [withScheme sh (jobs.job r).container_image] := by
    by_cases hne : withScheme sh (jobs.job r).container_image = []
    · rw [hne]
      exact Or.inl rfl
    · exact Or.inr (arguments_plain (withScheme_plain hplain) hne)
  simp only [step, hphase, arguments_path hplain] at hnext ⊢
  rcases hargs with hargs | hargs
  · simp [hargs, enroot_import] at hnext
  · simp only [hargs, List.cons_append, List.nil_append, enroot_import] at hnext ⊢
    cases hregistry : e.registry (withScheme sh (jobs.job r).container_image) with
    | none => simp [hregistry] at hnext
    | some sq =>
      by_cases hthere : ((s.files (container_squashfs_path e (jobs.job r))).isSome && !e.overwrites) = true
      · simp [hregistry, hthere] at hnext
      · exact ⟨sq, rfl, by simp [hthere]⟩

theorem step_creating {s : State Squash} {r : Run} {sq : Squash} (hphase : s.phase r = .creating)
    (hplain : ∀ c ∈ (jobs.job r).container_image, plain c = true)
    (hfile : s.files (container_squashfs_path e (jobs.job r)) = some sq)
    (hcontainer : s.containers (jobs.job r).container_name.text = none) :
    step e jobs s r = { s with
      containers := Function.update s.containers (jobs.job r).container_name.text (some sq)
      phase := Function.update s.phase r .removing } := by
  simp [step, hphase, arguments_path hplain, (jobs.job r).container_name.one_word, enroot_create, hfile, hcontainer]

theorem step_removing {s : State Squash} {r : Run} (hphase : s.phase r = .removing)
    (hplain : ∀ c ∈ (jobs.job r).container_image, plain c = true) :
    step e jobs s r = { s with
      files := Function.update s.files (container_squashfs_path e (jobs.job r)) none
      phase := Function.update s.phase r .done } := by
  have hrm : rm [container_squashfs_path e (jobs.job r)] s.files =
      Function.update s.files (container_squashfs_path e (jobs.job r)) none := by
    funext p
    simp [rm, Function.update_apply, eq_comm]
  simp [step, hphase, arguments_path hplain, hrm]

/-! ## Different files -/

/-- What a run finds and leaves, by the number of its steps. -/
structure Inv (e : Enroot Squash) (jobs : Jobs sh) (s : State Squash) (r : Run) (sq : Squash) (steps : Nat) : Prop where
  phase : s.phase r = phaseAfter steps
  no_file : steps = 0 → s.files (container_squashfs_path e (jobs.job r)) = none
  file : steps = 1 → s.files (container_squashfs_path e (jobs.job r)) = some sq
  no_container : steps ≤ 1 → s.containers (jobs.job r).container_name.text = none
  container : 2 ≤ steps → s.containers (jobs.job r).container_name.text = some sq

/-- A step of the run itself. -/
theorem inv_step_self {s : State Squash} {r : Run} {sq : Squash} {steps : Nat}
    (hregistry : e.registry (withScheme sh (jobs.job r).container_image) = some sq)
    (hplain : ∀ c ∈ (jobs.job r).container_image, plain c = true) (h : Inv e jobs s r sq steps) :
    Inv e jobs (step e jobs s r) r sq (steps + 1) := by
  match steps, h with
  | 0, h =>
    rw [step_importing h.phase hregistry hplain (h.no_file rfl)]
    exact ⟨by simp [phaseAfter], by simp, by simp, fun _ => h.no_container (Nat.zero_le 1), by simp⟩
  | 1, h =>
    rw [step_creating h.phase hplain (h.file rfl) (h.no_container (Nat.le_refl 1))]
    exact ⟨by simp [phaseAfter], by simp, by simp, by simp, by simp⟩
  | 2, h =>
    rw [step_removing h.phase hplain]
    exact ⟨by simp [phaseAfter], by simp, by simp, by simp, fun _ => h.container (Nat.le_refl 2)⟩
  | steps + 3, h =>
    have hdone : s.phase r = .done := h.phase
    have hstep : step e jobs s r = s := by simp [step, hdone]
    rw [hstep]
    exact ⟨hdone, by simp, by simp, by simp, fun _ => h.container (by omega)⟩

/-- A step of a run that uses another file. -/
theorem inv_step_other {s : State Squash} {r r' : Run} {sq sq' : Squash} {steps steps' : Nat} (hne : r ≠ r')
    (hpath : container_squashfs_path e (jobs.job r) ≠ container_squashfs_path e (jobs.job r'))
    (hregistry : e.registry (withScheme sh (jobs.job r).container_image) = some sq)
    (hplain : ∀ c ∈ (jobs.job r).container_image, plain c = true) (h : Inv e jobs s r sq steps)
    (h' : Inv e jobs s r' sq' steps') : Inv e jobs (step e jobs s r) r' sq' steps' := by
  have hname := jobs.distinct r r' hne
  match steps, h with
  | 0, h =>
    rw [step_importing h.phase hregistry hplain (h.no_file rfl)]
    exact ⟨by simp [hne.symm, h'.phase], by simpa [hpath.symm] using h'.no_file, by simpa [hpath.symm] using h'.file,
      h'.no_container, h'.container⟩
  | 1, h =>
    rw [step_creating h.phase hplain (h.file rfl) (h.no_container (Nat.le_refl 1))]
    exact ⟨by simp [hne.symm, h'.phase], h'.no_file, h'.file, by simpa [hname.symm] using h'.no_container,
      by simpa [hname.symm] using h'.container⟩
  | 2, h =>
    rw [step_removing h.phase hplain]
    exact ⟨by simp [hne.symm, h'.phase], by simpa [hpath.symm] using h'.no_file, by simpa [hpath.symm] using h'.file,
      h'.no_container, h'.container⟩
  | steps + 3, h =>
    have hdone : s.phase r = .done := h.phase
    have hstep : step e jobs s r = s := by simp [step, hdone]
    rw [hstep]
    exact h'

/-- All the way through a schedule, each run finds what it needs. -/
theorem inv_run {sq : Run → Squash}
    (hregistry : ∀ r, e.registry (withScheme sh (jobs.job r).container_image) = some (sq r))
    (hplain : ∀ r, ∀ c ∈ (jobs.job r).container_image, plain c = true)
    (hpath : ∀ r r', r ≠ r' → container_squashfs_path e (jobs.job r) ≠ container_squashfs_path e (jobs.job r'))
    {s : State Squash} (hfresh : Fresh e jobs s) (schedule : List Run) (r : Run) :
    Inv e jobs (run (step e jobs) s schedule) r (sq r) (schedule.count r) := by
  induction schedule using List.reverseRecOn generalizing r with
  | nil =>
    obtain ⟨hphase, hfile, hcontainer⟩ := hfresh r
    exact ⟨hphase, fun _ => hfile, by simp, fun _ => hcontainer, by simp⟩
  | append_singleton schedule c ih =>
    rw [run_append, run_singleton, List.count_append, List.count_singleton]
    by_cases hrc : c = r
    · subst hrc
      simpa using inv_step_self (hregistry c) (hplain c) (ih c)
    · simpa [hrc] using inv_step_other hrc (hpath c r hrc) (hregistry c) (hplain c) (ih c) (ih r)

/-! ## Isolation -/

/-- A node without files and containers. -/
def emptyNode : State Squash := ⟨fun _ => none, fun _ => none, fun _ => .importing⟩

theorem fresh_emptyNode : Fresh e jobs (emptyNode : State Squash) := fun _ => ⟨rfl, rfl, rfl⟩

theorem importable_of_isolated (h : Isolated e jobs) (r : Run) : Importable e (jobs.job r) := by
  obtain ⟨hphase, hfile, -⟩ := h emptyNode fresh_emptyNode [r] r
  have hcount : [r].count r = 1 := by simp
  rw [hcount, run_singleton] at hphase
  rw [hcount, run_singleton] at hfile
  obtain ⟨sq, hregistry, hsq⟩ := hfile rfl
  obtain ⟨sq', hregistry', hsq'⟩ := registry_of_step (e := e) (s := emptyNode) rfl (plain_of_registry hregistry) hphase
  rw [show sq' = sq from Option.some.inj (hsq'.symm.trans hsq)] at hregistry'
  exact ⟨sq, hregistry, hregistry'⟩

/-- When both runs use one file, the first may remove it before the second has
created its container. -/
theorem path_ne_of_isolated (h : Isolated e jobs) :
    container_squashfs_path e (jobs.job .first) ≠ container_squashfs_path e (jobs.job .second) := by
  intro hpath
  obtain ⟨sq, hregistry, -⟩ := importable_of_isolated h .first
  have hphase := (h emptyNode fresh_emptyNode [.first, .second, .first] .first).1
  obtain ⟨sq', -, hfile⟩ := (h emptyNode fresh_emptyNode ([.first, .second, .first] ++ [.first]) .second).2.1 rfl
  have hstep := step_removing (e := e) hphase (plain_of_registry hregistry)
  rw [run_append, run_singleton, ← hpath, hstep] at hfile
  simp at hfile

theorem imports_isolated_iff (e : Enroot Squash) {sh : Shell} (jobs : Jobs sh) :
    Isolated e jobs ↔ (∀ r, Importable e (jobs.job r)) ∧
      squashfsName (withScheme sh (jobs.job .first).container_image) ≠
        squashfsName (withScheme sh (jobs.job .second).container_image) := by
  constructor
  · intro h
    exact ⟨importable_of_isolated h, path_ne_iff.1 (path_ne_of_isolated h)⟩
  · rintro ⟨himportable, hname⟩ s hfresh schedule r
    choose sq hregistry hregistry' using himportable
    have hpath : ∀ r r', r ≠ r' → container_squashfs_path e (jobs.job r) ≠ container_squashfs_path e (jobs.job r') := by
      have hne := path_ne_iff (e := e).2 hname
      rintro (- | -) (- | -) h
      · exact absurd rfl h
      · exact hne
      · exact hne.symm
      · exact absurd rfl h
    have hinv := inv_run hregistry' (fun r => plain_of_registry (hregistry r)) hpath hfresh schedule r
    exact ⟨hinv.phase, fun hsteps => ⟨sq r, hregistry r, hinv.file hsteps⟩,
      fun hsteps => ⟨sq r, hregistry r, hinv.container hsteps⟩⟩

/-! ## Two runs for one image -/

/-- An image both jobs use. -/
def alpine : Text := ['a', 'l', 'p', 'i', 'n', 'e']

/-- A registry with one image. -/
def hub : Enroot Unit where
  registry uri := if uri = docker ++ alpine then some () else none
  registry_plain uri sq h := by
    split at h
    · rename_i huri
      rw [huri]
      exact ⟨by simp [docker], List.all_eq_true.1 rfl⟩
    · cases h
  overwrites := false
  ENROOT_TEMP_PATH := ['/', 't', 'm', 'p']
  temp_plain := List.all_eq_true.1 rfl

/-- A job with that image. -/
def alpineJob (name : Char) (h : plain name = true) : Job emptyDirectory where
  container_image := alpine
  container_name := ⟨[name], arguments_plain (by simpa using h) (by simp)⟩

/-- Two jobs with that image, in containers of their own. -/
def alpineJobs : Jobs emptyDirectory where
  job
    | .first => alpineJob 'a' rfl
    | .second => alpineJob 'b' rfl
  distinct r r' h := by
    cases r <;> cases r' <;> first | exact absurd rfl h | decide

/-- Two runs for one image that can be imported. -/
theorem not_isolated_alpine : (∀ r, Importable hub (alpineJobs.job r)) ∧ ¬ Isolated hub alpineJobs := by
  refine ⟨fun r => ⟨(), ?_⟩, fun h => path_ne_iff.1 (path_ne_of_isolated h) rfl⟩
  cases r <;> decide

end AzHop.GetContainer
