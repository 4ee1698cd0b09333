import AzHop.Config
import AzHop.Lib.Checkpoint
/-!
# `install.sh`

The script runs the playbooks of its target and leaves a `.ok` file for each
that succeeds. With the target `all` a playbook with an `.ok` file is passed
over. Playbooks the configuration has no use for are skipped by creating
their `.ok` file up front.

Here is the script, as a function of the playbooks directory and of which
playbooks Ansible would complete. `sessions_eq` shows that a history of
`install.sh all` is a history of checkpointed runs in the sense of
`Lib.Checkpoint`, whose theorems then hold of it.

Trusted: file operations succeed. A value of `AzhopConfig` has passed the
schema validation the script starts with.
-/
namespace AzHop.Install
open Lib.Checkpoint

/-- The playbooks the script knows. -/
inductive Playbook
  | ad
  | ad2
  | dns
  | linux
  | grafana
  | ccportal
  | add_users
  | add_local_users
  | cccluster
  | scheduler
  | ood
  | ood_custom
  | telegraf
  | chrony
  | remove_users
  | tests
  deriving DecidableEq

/-- The argument of the script. -/
inductive Target
  | all
  | one (p : Playbook)
  | unknown
  deriving DecidableEq

/-- The files `ood-overrides-*.yml`, which the `ood` playbook takes as extra variables. -/
inductive Override
  | common
  | scheduler (name : String)
  | auth (name : HttpdAuth)
  deriving DecidableEq

/-- The override files there are in the playbooks directory. -/
def Override.present : Override → Bool
  | .scheduler name => name = "openpbs" || name = "slurm"
  | _ => true

/-- The files of the playbooks directory that the script creates: the `.ok`
files, latest first, and `extra_vars.yml`. -/
structure Dir where
  ok : List Playbook
  extra_vars : Option (List Override)

/-- `touch` of an `.ok` file. -/
def Dir.touch (p : Playbook) (d : Dir) : Dir := { d with ok := p :: d.ok }

/-- The script under way: `exit` is its status once it has ended. -/
structure Script where
  dir : Dir
  events : List (Event Playbook)
  exit : Option Nat

/-- The exit status, 0 at the end of the script. -/
def Script.status (s : Script) : Nat := s.exit.getD 0

/-- `ansible p`: Ansible completes playbook `p`. -/
def run_playbook (ansible : Playbook → Bool) (target : Target) (playbook : Playbook)
    (extra_vars_file : List Override) (s : Script) : Script :=
  if s.exit.isSome then s
  else if playbook ∉ s.dir.ok ∨ target ≠ .all then
    -- `yq` fails on a missing file, and `set -e` ends the script
    if extra_vars_file.any (fun f => !f.present) then
      { s with dir := { s.dir with extra_vars := some [] }, exit := some 1 }
    else
      let extra_vars := if extra_vars_file = [] then s.dir.extra_vars else some extra_vars_file
      if ansible playbook then
        { s with dir := { s.dir.touch playbook with extra_vars := none },
                 events := s.events ++ [.started playbook, .succeeded playbook] }
      else
        { dir := { s.dir with extra_vars }, events := s.events ++ [.started playbook, .failed playbook],
          exit := some 1 }
  else s

/-! ## Preparation -/

/-- The scheduler, `openpbs` by default. -/
def get_scheduler (c : AzhopConfig) : String := if c.queue_manager = "null" then "openpbs" else c.queue_manager

/-- `authentication.httpd_auth`. -/
def get_ood_auth (c : AzhopConfig) : HttpdAuth := (c.authentication.map (·.httpd_auth)).getD .basic

/-- With an existing domain nothing is installed for it. -/
def use_existing_ad (c : AzhopConfig) (d : Dir) : Dir :=
  if (c.domain.bind (·.use_existing_dc)) = some true then (d.touch .ad).touch .add_users else d

/-- Local users and the users of a domain exclude each other. -/
def use_local_users (c : AzhopConfig) (d : Dir) : Dir :=
  if (c.authentication.bind (·.user_auth)) = some .local then (d.touch .ad).touch .add_users
  else d.touch .add_local_users

/-- Each of the two can be switched off. -/
def use_grafana_telegraf (c : AzhopConfig) (d : Dir) : Dir :=
  let d := if (c.monitoring.bind (·.grafana)) = some false then d.touch .grafana else d
  if (c.monitoring.bind (·.telegraf)) = some false then d.touch .telegraf else d

/-- Without a section there is no portal. -/
def install_ondemand (c : AzhopConfig) (d : Dir) : Dir :=
  if c.ondemand.isNone then (d.touch .ood).touch .ood_custom else d

/-- What the script does before its first playbook. -/
def prepare (c : AzhopConfig) (d : Dir) : Dir :=
  install_ondemand c (use_grafana_telegraf c (use_local_users c (use_existing_ad c d)))

/-- `sort | uniq -d` prints no uid. -/
def validate_uids (c : AzhopConfig) : Bool := (c.users.map (·.uid)).Nodup

/-! ## The targets -/

def ood_overrides (c : AzhopConfig) : List Override :=
  [.common, .scheduler (get_scheduler c), .auth (get_ood_auth c)]

/-- The extra variables a playbook is run with. -/
def extraVars (c : AzhopConfig) : Playbook → List Override
  | .ood => ood_overrides c
  | _ => []

/-- The playbooks of the target `all`. -/
def allPlaybooks : List Playbook :=
  [.ad, .dns, .linux, .grafana, .ccportal, .add_users, .add_local_users, .cccluster, .scheduler, .ood, .ood_custom,
   .telegraf, .chrony]

/-- The playbooks of a target. -/
def targetPlaybooks : Target → List Playbook
  | .all => allPlaybooks
  | .one .ood => [.ood, .ood_custom]
  | .one p => [p]
  | .unknown => []

/-- One playbook after the other; the first that fails ends the script. -/
def runPlaybooks (ansible : Playbook → Bool) (c : AzhopConfig) (target : Target) (ps : List Playbook) (s : Script) :
    Script :=
  ps.foldl (fun s p => run_playbook ansible target p (extraVars c p) s) s

/-- `install.sh target`. -/
def install (ansible : Playbook → Bool) (c : AzhopConfig) (target : Target) (d : Dir) : Script :=
  if !validate_uids c then ⟨d, [], some 1⟩
  else
    let s : Script := ⟨prepare c d, [], none⟩
    match target with
    | .unknown => { s with exit := some 1 }
    | _ => runPlaybooks ansible c target (targetPlaybooks target) s

/-! ## What the configuration skips -/

/-- The `.ok` files the preparation creates. -/
def skipped (c : AzhopConfig) : List Playbook := (prepare c ⟨[], none⟩).ok

/-- The playbooks of `all` that the configuration does not skip, in their order. -/
def required (c : AzhopConfig) : List Playbook := needed allPlaybooks (skipped c)

theorem prepare_ok (c : AzhopConfig) (d : Dir) : (prepare c d).ok = skipped c ++ d.ok := by
  unfold skipped prepare install_ondemand use_grafana_telegraf use_local_users use_existing_ad Dir.touch
  split_ifs <;> rfl

/-! ## The script as a checkpointed run -/

/-- What becomes of an attempt. -/
def outcome (ansible : Playbook → Bool) (c : AzhopConfig) (p : Playbook) : Outcome :=
  if (extraVars c p).any (fun f => !f.present) then .refused
  else if ansible p then .succeeds else .fails

section
variable {ansible : Playbook → Bool} {c : AzhopConfig}

theorem runPlaybooks_exited {target : Target} (ps : List Playbook) {s : Script} (h : s.exit.isSome = true) :
    runPlaybooks ansible c target ps s = s := by
  induction ps with
  | nil => rfl
  | cons p ps ih =>
    have hp : run_playbook ansible target p (extraVars c p) s = s := by simp [run_playbook, h]
    simpa only [runPlaybooks, List.foldl_cons, hp] using ih

/-- The playbooks of `all` leave what the checkpointed run leaves. -/
theorem runPlaybooks_all (ps : List Playbook) :
    ∀ s : Script, s.exit = none →
      (runPlaybooks ansible c .all ps s).dir.ok = (run (outcome ansible c) ps s.dir.ok).markers ∧
      (runPlaybooks ansible c .all ps s).events = s.events ++ (run (outcome ansible c) ps s.dir.ok).events ∧
      ((runPlaybooks ansible c .all ps s).status = 0 ↔ (run (outcome ansible c) ps s.dir.ok).ok = true) := by
  induction ps with
  | nil => intro s hs; simp [runPlaybooks, run, Script.status, hs]
  | cons p ps ih =>
    intro s hs
    rw [runPlaybooks, List.foldl_cons]
    change (runPlaybooks ansible c .all ps _).dir.ok = _ ∧ (runPlaybooks ansible c .all ps _).events = _ ∧
      ((runPlaybooks ansible c .all ps _).status = 0 ↔ _)
    by_cases hp : p ∈ s.dir.ok
    · have hstep : run_playbook ansible .all p (extraVars c p) s = s := by simp [run_playbook, hs, hp]
      rw [hstep]
      simpa only [run, hp, if_true] using ih s hs
    · by_cases hmiss : (extraVars c p).any (fun f => !f.present) = true
      · have ho : outcome ansible c p = .refused := by simp only [outcome, hmiss, if_true]
        have hstep : run_playbook ansible .all p (extraVars c p) s =
            { s with dir := { s.dir with extra_vars := some [] }, exit := some 1 } := by
          simp only [run_playbook, hs, hp, hmiss]
          simp
        rw [hstep, runPlaybooks_exited ps rfl]
        simp [run, hp, ho, Script.status]
      · by_cases ha : ansible p = true
        · have ho : outcome ansible c p = .succeeds := by simp only [outcome, hmiss, ha]; simp
          have hstep : run_playbook ansible .all p (extraVars c p) s =
              { s with dir := { s.dir.touch p with extra_vars := none },
                       events := s.events ++ [.started p, .succeeded p] } := by
            simp only [run_playbook, hs, hp, hmiss, ha]
            simp
          rw [hstep]
          obtain ⟨h1, h2, h3⟩ := ih { s with dir := { s.dir.touch p with extra_vars := none },
                                             events := s.events ++ [.started p, .succeeded p] } hs
          simp only [run, hp, ho, if_false]
          exact ⟨h1, by rw [h2]; simp [Dir.touch], h3⟩
        · have ho : outcome ansible c p = .fails := by simp only [outcome, hmiss, ha]; simp
          have hstep : (run_playbook ansible .all p (extraVars c p) s).exit = some 1 ∧
              (run_playbook ansible .all p (extraVars c p) s).dir.ok = s.dir.ok ∧
              (run_playbook ansible .all p (extraVars c p) s).events = s.events ++ [.started p, .failed p] := by
            simp only [run_playbook, hs, hp, hmiss, ha]
            simp
          obtain ⟨hexit, hok, hev⟩ := hstep
          rw [runPlaybooks_exited ps (by rw [hexit]; rfl)]
          simp [run, hp, ho, Script.status, hexit, hok, hev]

end

/-! ## Histories of `install.sh all` -/

/-- The playbooks directory, and what the runs so far have done. -/
structure Machine where
  dir : Dir
  log : List (Event Playbook)

/-- One run: the configuration it finds and the playbooks Ansible completes. -/
structure Session where
  config : AzhopConfig
  ansible : Playbook → Bool

/-- A run of `install.sh all`, and its exit status. -/
def session (i : Session) (m : Machine) : Machine × Nat :=
  let s := install i.ansible i.config .all m.dir
  (⟨s.dir, m.log ++ s.events⟩, s.status)

/-- Runs one after the other, from a directory without `.ok` files. -/
def sessions (extra_vars : Option (List Override)) (is : List Session) : Machine :=
  is.foldl (fun m i => (session i m).1) ⟨⟨[], extra_vars⟩, []⟩

/-- A run as an input of the checkpointed list. -/
def Session.input (i : Session) : Input Playbook := ⟨skipped i.config, outcome i.ansible i.config⟩

/-- A run with duplicate uids ends before it touches anything. -/
def Session.valid (i : Session) : Bool := validate_uids i.config

theorem allPlaybooks_nodup : allPlaybooks.Nodup := by decide

theorem session_valid {i : Session} (hv : i.valid = true) (m : Machine) :
    let r := step allPlaybooks i.input ⟨m.dir.ok, m.log⟩
    (session i m).1.dir.ok = r.1.markers ∧ (session i m).1.log = r.1.log ∧ ((session i m).2 = 0 ↔ r.2 = true) := by
  have huids : validate_uids i.config = true := hv
  have hins : install i.ansible i.config .all m.dir =
      runPlaybooks i.ansible i.config .all allPlaybooks ⟨prepare i.config m.dir, [], none⟩ := by
    simp [install, huids, targetPlaybooks]
  obtain ⟨hok, hev, hst⟩ := @runPlaybooks_all i.ansible i.config allPlaybooks
    ⟨prepare i.config m.dir, [], none⟩ rfl
  rw [prepare_ok] at hok hev hst
  simp only [session, hins, step, Session.input]
  exact ⟨hok, by rw [hev]; simp, hst⟩

theorem session_invalid {i : Session} (hv : i.valid = false) (m : Machine) : session i m = (m, 1) := by
  have huids : validate_uids i.config = false := hv
  simp [session, install, huids, Script.status]

theorem sessions_append_one (x : Option (List Override)) (is : List Session) (i : Session) :
    sessions x (is ++ [i]) = (session i (sessions x is)).1 := by
  simp [sessions, List.foldl_append]

/-- A history of the script is a history of checkpointed runs. -/
theorem sessions_eq (x : Option (List Override)) (is : List Session) :
    (sessions x is).dir.ok = (runs allPlaybooks ((is.filter (·.valid)).map (·.input))).markers ∧
      (sessions x is).log = (runs allPlaybooks ((is.filter (·.valid)).map (·.input))).log := by
  induction is using List.reverseRecOn with
  | nil => exact ⟨rfl, rfl⟩
  | append_singleton is i ih =>
    rw [sessions_append_one]
    cases hv : i.valid with
    | false =>
      rw [session_invalid hv]
      simpa [List.filter_append, hv] using ih
    | true =>
      obtain ⟨h1, h2, -⟩ := session_valid hv (sessions x is)
      rw [ih.1, ih.2] at h1 h2
      simp only [List.filter_append, List.map_append, List.filter_cons, hv, if_true, List.filter_nil, List.map_cons,
        List.map_nil, runs_append_one]
      exact ⟨h1, h2⟩

/-- The exit status of the run after a history. -/
theorem session_status (x : Option (List Override)) (is : List Session) {i : Session} (hv : i.valid = true) :
    (session i (sessions x is)).2 = 0 ↔
      (step allPlaybooks i.input (runs allPlaybooks ((is.filter (·.valid)).map (·.input)))).2 = true := by
  have h := (session_valid hv (sessions x is)).2.2
  rwa [(sessions_eq x is).1, (sessions_eq x is).2] at h

/-! ## One configuration -/

section
variable {c : AzhopConfig} (hc : validate_uids c = true)

/-- Runs of one configuration, by what Ansible completes in each. -/
def sameConfig (c : AzhopConfig) (as : List (Playbook → Bool)) : List Session := as.map (fun a => ⟨c, a⟩)

include hc

theorem sameConfig_inputs (as : List (Playbook → Bool)) :
    ((sameConfig c as).filter (·.valid)).map (·.input) = as.map (fun a => ⟨skipped c, outcome a c⟩) := by
  have hall : (sameConfig c as).filter (·.valid) = sameConfig c as := by
    apply List.filter_eq_self.2
    intro i hi
    obtain ⟨a, -, rfl⟩ := List.mem_map.1 hi
    exact hc
  rw [hall]
  simp [sameConfig, Session.input, Function.comp_def]

theorem sameConfig_log_inv (x : Option (List Override)) (as : List (Playbook → Bool)) :
    LogInv (required c) (sessions x (sameConfig c as)).log := by
  rw [(sessions_eq x _).2, sameConfig_inputs hc]
  apply log_inv allPlaybooks_nodup (skipped c) _
  intro i hi
  obtain ⟨a, -, rfl⟩ := List.mem_map.1 hi
  rfl

/-- A run is successful exactly when in the end every playbook the
configuration does not skip has succeeded. -/
theorem sameConfig_status (x : Option (List Override)) (as : List (Playbook → Bool)) (a : Playbook → Bool) :
    (session ⟨c, a⟩ (sessions x (sameConfig c as))).2 = 0 ↔
      ∀ p ∈ required c, p ∈ successes (sessions x (sameConfig c (as ++ [a]))).log := by
  rw [session_status x _ (i := ⟨c, a⟩) hc, sameConfig_inputs hc, (sessions_eq x _).2, sameConfig_inputs hc, List.map_append]
  rw [show (Session.mk c a).input = ⟨skipped c, outcome a c⟩ from rfl, ok_iff allPlaybooks_nodup]
  constructor
  · intro h p hp
    obtain ⟨hpt, hps⟩ := mem_needed.1 hp
    rcases h p hpt with h | ⟨j, hj, hjp⟩
    · exact h
    · rcases List.mem_append.1 hj with hj | hj
      · obtain ⟨b, -, rfl⟩ := List.mem_map.1 hj
        exact absurd hjp hps
      · rw [List.mem_singleton.1 hj] at hjp
        exact absurd hjp hps
  · intro h p hp
    by_cases hps : p ∈ skipped c
    · exact .inr ⟨_, List.mem_append_right _ (List.mem_singleton_self _), hps⟩
    · exact .inl (h p (mem_needed.2 ⟨hp, hps⟩))

/-- Over any number of runs of `install.sh all` with one configuration: each
playbook succeeds at most once, in the order of the script; none is started
before all earlier ones have succeeded, and none that is skipped; and a run
exits 0 exactly when all have succeeded. -/
theorem install_all_checkpoints (x : Option (List Override)) (as : List (Playbook → Bool)) :
    (successes (sessions x (sameConfig c as)).log).Nodup ∧
    successes (sessions x (sameConfig c as)).log <+: required c ∧
    (∀ pre p post, (sessions x (sameConfig c as)).log = pre ++ .started p :: post →
      ∃ before after, required c = before ++ p :: after ∧ ∀ q ∈ before, q ∈ successes pre) ∧
    (∀ p ∈ skipped c, .started p ∉ (sessions x (sameConfig c as)).log) ∧
    (∀ a, (session ⟨c, a⟩ (sessions x (sameConfig c as))).2 = 0 ↔
      ∀ p ∈ required c, p ∈ successes (sessions x (sameConfig c (as ++ [a]))).log) := by
  obtain ⟨⟨rest, hneed⟩, hstart⟩ := sameConfig_log_inv hc x as
  have hnd : (required c).Nodup := needed_nodup allPlaybooks_nodup _
  refine ⟨?_, ⟨rest, hneed.symm⟩, ?_, ?_, sameConfig_status hc x as⟩
  · rw [hneed] at hnd
    exact (List.nodup_append.1 hnd).1
  · intro pre p post he
    obtain ⟨after, ha⟩ := hstart pre p post he
    exact ⟨successes pre, after, ha, fun q hq => hq⟩
  · intro p hp hmem
    obtain ⟨pre, post, he⟩ := List.append_of_mem hmem
    obtain ⟨after, ha⟩ := hstart pre p post he
    have hreq : p ∈ required c := by
      rw [ha]
      exact List.mem_append_right _ List.mem_cons_self
    exact (mem_needed.1 hreq).2 hp

end

/-- A run in which `linux` fails, and one in which nothing does: the second one
exits 0, and every playbook has been executed. -/
theorem install_all_checkpoints_small :
    (session ⟨smallConfig, fun _ => true⟩ (sessions none (sameConfig smallConfig [fun p => p ≠ .linux]))).2 = 0 ∧
      ∀ p ∈ required smallConfig,
        p ∈ successes (sessions none (sameConfig smallConfig [fun p => p ≠ .linux, fun _ => true])).log := by
  have hiff := (install_all_checkpoints (c := smallConfig) (by decide) none [fun p => p ≠ .linux]).2.2.2.2 (fun _ => true)
  have hall : ∀ p ∈ required smallConfig,
      p ∈ successes (sessions none (sameConfig smallConfig [fun p => p ≠ .linux, fun _ => true])).log := by decide
  exact ⟨hiff.2 hall, hall⟩

/-! ## Edits of the configuration between runs -/

/-- After the history `is` and the run `i`, every playbook the configuration of
`i` does not skip has been executed successfully. -/
def Complete (x : Option (List Override)) (is : List Session) (i : Session) : Prop :=
  ∀ p ∈ required i.config, p ∈ successes (sessions x (is ++ [i])).log

/-- Every playbook that `i` needs and an earlier run skipped had been executed
successfully before `i`. -/
def SkippedWereRun (x : Option (List Override)) (is : List Session) (i : Session) : Prop :=
  ∀ p ∈ required i.config, (∃ j ∈ is, j.valid = true ∧ p ∈ skipped j.config) → p ∈ successes (sessions x is).log

theorem complete_iff_of_exit_zero {x : Option (List Override)} {is : List Session} {i : Session}
    (h0 : (session i (sessions x is)).2 = 0) : Complete x is i ↔ SkippedWereRun x is i := by
  have hv : i.valid = true := by
    cases hv : i.valid with
    | true => rfl
    | false =>
      rw [session_invalid hv] at h0
      cases h0
  have hinputs : ((is ++ [i]).filter (·.valid)).map (·.input) = (is.filter (·.valid)).map (·.input) ++ [i.input] := by
    simp [List.filter_append, hv]
  have hskip : ∀ p, (∃ j ∈ (is.filter (·.valid)).map (·.input), p ∈ j.skip) ↔
      ∃ j ∈ is, j.valid = true ∧ p ∈ skipped j.config := by
    intro p
    simp [Session.input, and_assoc]
  have h := complete_iff allPlaybooks_nodup ((session_status x is hv).1 h0)
  simp only [hskip] at h
  unfold Complete SkippedWereRun
  rw [(sessions_eq x (is ++ [i])).2, (sessions_eq x is).2, hinputs]
  exact h

/-- In any history, with any edits of the configuration: every run that exits 0
leaves what its configuration needs executed, exactly when at each such run
nothing it needs has a marker that only an earlier run's skipping left. -/
theorem complete_across_edits_iff (x : Option (List Override)) (is : List Session) :
    (∀ pre i post, is = pre ++ i :: post → (session i (sessions x pre)).2 = 0 → Complete x pre i) ↔
      ∀ pre i post, is = pre ++ i :: post → (session i (sessions x pre)).2 = 0 → SkippedWereRun x pre i := by
  constructor
  · intro h pre i post he h0
    exact (complete_iff_of_exit_zero h0).1 (h pre i post he h0)
  · intro h pre i post he h0
    exact (complete_iff_of_exit_zero h0).2 (h pre i post he h0)

/-- A second run with Open OnDemand, where the first had none, exits 0 without
having run `ood`. -/
theorem ondemand_added_not_run :
    let i : Session := ⟨{ smallConfig with ondemand := some { vm_size := "Standard_D4s_v5" } }, fun _ => true⟩
    let before : List Session := [⟨smallConfig, fun _ => true⟩]
    (session i (sessions none before)).2 = 0 ∧ .ood ∈ required i.config ∧
      .ood ∉ successes (sessions none (before ++ [i])).log := by
  decide

end AzHop.Install
