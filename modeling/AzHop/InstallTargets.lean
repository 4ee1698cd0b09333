import AzHop.Install
/-!
# `install.sh` with any target

Runs of the target `all` between runs of single playbooks, as an administrator
makes them: a single playbook is run whether or not it has an `.ok` file, and
gets one when it succeeds. No run takes an `.ok` file away.
-/
namespace AzHop.Install
open Lib.Checkpoint

structure Command where
  config : AzhopConfig
  ansible : Playbook → Bool
  target : Target

def Command.valid (i : Command) : Bool := validate_uids i.config

/-- A run of `install.sh`, and its exit status. -/
def command (i : Command) (m : Machine) : Machine × Nat :=
  let s := install i.ansible i.config i.target m.dir
  (⟨s.dir, m.log ++ s.events⟩, s.status)

def commands (extra_vars : Option (List Override)) (is : List Command) : Machine :=
  is.foldl (fun m i => (command i m).1) ⟨⟨[], extra_vars⟩, []⟩

theorem commands_append_one (x : Option (List Override)) (is : List Command) (i : Command) :
    commands x (is ++ [i]) = (command i (commands x is)).1 := by
  simp [commands, List.foldl_append]

/-! ## One run -/

/-- A playbook is passed over, refused for a missing file of overrides, or run. -/
theorem run_playbook_cases (ansible : Playbook → Bool) (target : Target) (p : Playbook) (vars : List Override) {s : Script}
    (h : s.exit = none) :
    let s' := run_playbook ansible target p vars s
    (target = .all ∧ p ∈ s.dir.ok ∧ s' = s) ∨
    (target = .all → p ∉ s.dir.ok) ∧
      (s'.exit = some 1 ∧ s'.dir.ok = s.dir.ok ∧ s'.events = s.events ∨
        s'.exit = none ∧ s'.dir.ok = p :: s.dir.ok ∧ s'.events = s.events ++ [.started p, .succeeded p] ∨
        s'.exit = some 1 ∧ s'.dir.ok = s.dir.ok ∧ s'.events = s.events ++ [.started p, .failed p]) := by
  unfold run_playbook
  rw [if_neg (by simp [h])]
  by_cases hrun : p ∉ s.dir.ok ∨ target ≠ .all
  · rw [if_pos hrun]
    refine .inr ⟨fun hall => hrun.resolve_right (not_not.2 hall), ?_⟩
    split
    · exact .inl ⟨rfl, rfl, rfl⟩
    · cases ansible p with
      | true => exact .inr (.inl ⟨h, rfl, rfl⟩)
      | false => exact .inr (.inr ⟨rfl, rfl, rfl⟩)
  · rw [if_neg hrun]
    rw [not_or, not_not, not_not] at hrun
    exact .inl ⟨hrun.2, hrun.1, rfl⟩

/-- What a run of the playbooks adds. -/
structure Ran (target : Target) (ps : List Playbook) (s s' : Script) (es : List (Event Playbook)) : Prop where
  events : s'.events = s.events ++ es
  ok : ∀ p, p ∈ s'.dir.ok ↔ p ∈ successes es ∨ p ∈ s.dir.ok
  started : ∀ p, .started p ∈ es → p ∈ ps ∧ (target = .all → p ∉ s.dir.ok)
  succeeded : ∀ p ∈ successes es, p ∈ ps
  status : s'.status = 0 ↔ ∀ p ∈ ps, p ∈ successes es ∨ target = .all ∧ p ∈ s.dir.ok

theorem runPlaybooks_ran (ansible : Playbook → Bool) (c : AzhopConfig) (target : Target) (ps : List Playbook)
    (hps : ps.Nodup) : ∀ s : Script, s.exit = none → ∃ es, Ran target ps s (runPlaybooks ansible c target ps s) es := by
  induction ps with
  | nil =>
    intro s hs
    exact ⟨[], by simp [runPlaybooks], by simp [runPlaybooks, successes], by simp, by simp [successes],
      by simp [runPlaybooks, Script.status, hs]⟩
  | cons p ps ih =>
    intro s hs
    obtain ⟨hp, hps⟩ := List.nodup_cons.1 hps
    rw [runPlaybooks, List.foldl_cons]
    change ∃ es, Ran target (p :: ps) s (runPlaybooks ansible c target ps _) es
    rcases run_playbook_cases ansible target p (extraVars c p) hs with
      ⟨hall, hmarked, hsame⟩ | ⟨hrun, ⟨hexit, hok, hevents⟩ | ⟨hexit, hok, hevents⟩ | ⟨hexit, hok, hevents⟩⟩
    · -- passed over
      rw [hsame]
      obtain ⟨es, h⟩ := ih hps s hs
      refine ⟨es, h.events, h.ok, fun q hq => ?_, fun q hq => List.mem_cons_of_mem p (h.succeeded q hq), ?_⟩
      · exact ⟨List.mem_cons_of_mem p (h.started q hq).1, (h.started q hq).2⟩
      · rw [h.status, List.forall_mem_cons]
        exact ⟨fun hrest => ⟨.inr ⟨hall, hmarked⟩, hrest⟩, And.right⟩
    · rw [runPlaybooks_exited ps (by rw [hexit]; rfl)]
      refine ⟨[], by simp [hevents], by simp [hok, successes], by simp, by simp [successes], ?_⟩
      refine iff_of_false (by simp [Script.status, hexit]) fun hall => ?_
      rcases hall p List.mem_cons_self with hnil | ⟨htarget, hmarked⟩
      · cases hnil
      · exact hrun htarget hmarked
    · obtain ⟨es, h⟩ := ih hps _ hexit
      refine ⟨[.started p, .succeeded p] ++ es, ?_, ?_, ?_, ?_, ?_⟩
      · rw [h.events, hevents, List.append_assoc]
      · intro q
        rw [h.ok, hok]
        simp only [successes_append, successes, List.mem_append, List.mem_cons]
        tauto
      · intro q hq
        simp only [List.cons_append, List.nil_append, List.mem_cons, Event.started.injEq, reduceCtorEq, false_or] at hq
        rcases hq with rfl | hq
        · exact ⟨List.mem_cons_self, hrun⟩
        · obtain ⟨hmem, hnot⟩ := h.started q hq
          exact ⟨List.mem_cons_of_mem p hmem, fun hall hq' => hnot hall (hok ▸ List.mem_cons_of_mem p hq')⟩
      · intro q hq
        simp only [successes_append, successes, List.mem_append, List.mem_singleton] at hq
        rcases hq with rfl | hq
        · exact List.mem_cons_self
        · exact List.mem_cons_of_mem p (h.succeeded q hq)
      · rw [h.status, List.forall_mem_cons]
        have hsuccess : p ∈ successes ([.started p, .succeeded p] ++ es) := by simp [successes]
        rw [and_iff_right (.inl hsuccess)]
        refine forall₂_congr fun q hq => ?_
        have hne : q ≠ p := ne_of_mem_of_not_mem hq hp
        simp [hok, successes, hne]
    · rw [runPlaybooks_exited ps (by rw [hexit]; rfl)]
      refine ⟨[.started p, .failed p], hevents, by simp [hok, successes], ?_, by simp [successes], ?_⟩
      · intro q hq
        simp only [List.mem_cons, Event.started.injEq, reduceCtorEq, List.not_mem_nil, or_false] at hq
        cases hq
        exact ⟨List.mem_cons_self, hrun⟩
      · refine iff_of_false (by simp [Script.status, hexit]) fun hall => ?_
        rcases hall p List.mem_cons_self with hnil | ⟨htarget, hmarked⟩
        · simp [successes] at hnil
        · exact hrun htarget hmarked

theorem targetPlaybooks_nodup (t : Target) : (targetPlaybooks t).Nodup := by
  cases t with
  | all => exact allPlaybooks_nodup
  | one p => cases p <;> decide
  | unknown => exact List.nodup_nil

/-- A run: the preparation, then the playbooks of its target. An unknown target is refused after the preparation. -/
theorem command_ran {i : Command} (hv : i.valid = true) (m : Machine) :
    ∃ es, (command i m).1.log = m.log ++ es ∧
      (∀ p, p ∈ (command i m).1.dir.ok ↔ p ∈ successes es ∨ p ∈ skipped i.config ∨ p ∈ m.dir.ok) ∧
      (∀ p, .started p ∈ es → i.target = .all → p ∉ skipped i.config ∧ p ∉ m.dir.ok) ∧
      (i.target ≠ .unknown → ((command i m).2 = 0 ↔ ∀ p ∈ targetPlaybooks i.target,
        p ∈ successes es ∨ i.target = .all ∧ (p ∈ skipped i.config ∨ p ∈ m.dir.ok))) := by
  have huids : validate_uids i.config = true := hv
  have hprepared : ∀ p, p ∈ (prepare i.config m.dir).ok ↔ p ∈ skipped i.config ∨ p ∈ m.dir.ok := by
    intro p
    rw [prepare_ok, List.mem_append]
  by_cases htarget : i.target = .unknown
  · have hins : install i.ansible i.config i.target m.dir = ⟨prepare i.config m.dir, [], some 1⟩ := by
      simp [install, huids, htarget]
    refine ⟨[], ?_, ?_, by simp, fun h => absurd htarget h⟩
    · simp [command, hins]
    · simp [command, hins, hprepared, successes]
  · have hins : install i.ansible i.config i.target m.dir =
        runPlaybooks i.ansible i.config i.target (targetPlaybooks i.target) ⟨prepare i.config m.dir, [], none⟩ := by
      unfold install
      rw [if_neg (by simp [huids])]
      cases htarget' : i.target with
      | all => rfl
      | one p => rfl
      | unknown => exact absurd htarget' htarget
    obtain ⟨es, h⟩ := runPlaybooks_ran i.ansible i.config i.target _ (targetPlaybooks_nodup i.target)
      ⟨prepare i.config m.dir, [], none⟩ rfl
    rw [← hins] at h
    refine ⟨es, ?_, ?_, ?_, ?_⟩
    · simp [command, h.events]
    · intro p
      rw [← hprepared]
      exact h.ok p
    · intro p hp hall
      have hnot := (h.started p hp).2 hall
      rw [hprepared, not_or] at hnot
      exact hnot
    · intro _
      refine h.status.trans (forall₂_congr fun p _ => ?_)
      rw [← hprepared]

theorem command_invalid {i : Command} (hv : i.valid = false) (m : Machine) : command i m = (m, 1) := by
  have huids : validate_uids i.config = false := hv
  simp [command, install, huids, Script.status]

/-! ## Histories -/

/-- An earlier run of the history, this one included, skipped the playbook. -/
def Skipped (is : List Command) (p : Playbook) : Prop := ∃ j ∈ is, j.valid = true ∧ p ∈ skipped j.config

theorem skipped_append_one {is : List Command} {i : Command} (hv : i.valid = true) (p : Playbook) :
    Skipped (is ++ [i]) p ↔ p ∈ skipped i.config ∨ Skipped is p := by
  simp only [Skipped, List.mem_append, List.mem_singleton, or_and_right, exists_or, exists_eq_left, hv, true_and]
  exact or_comm

theorem marked_iff (x : Option (List Override)) (is : List Command) (p : Playbook) :
    p ∈ (commands x is).dir.ok ↔ p ∈ successes (commands x is).log ∨ Skipped is p := by
  induction is using List.reverseRecOn with
  | nil => simp [commands, successes, Skipped]
  | append_singleton is i ih =>
    rw [commands_append_one]
    cases hv : i.valid with
    | false =>
      rw [command_invalid hv, ih]
      simp [Skipped, or_and_right, exists_or, hv]
    | true =>
      obtain ⟨es, hlog, hok, -, -⟩ := command_ran hv (commands x is)
      rw [hok, hlog, ih, successes_append, List.mem_append, skipped_append_one hv]
      tauto

/-- In every history of runs with any targets and configurations: the next run
of `all` starts a playbook only if none has ever succeeded with it or skipped
it, so not for a later failure either; it exits 0 exactly if then each of its
playbooks has succeeded or been skipped at some time; and a run of a single
target exits 0 exactly if its playbooks succeed in that very run. -/
theorem any_targets (x : Option (List Override)) (is : List Command) {i : Command} (hv : i.valid = true) :
    ∃ es, (commands x (is ++ [i])).log = (commands x is).log ++ es ∧
      (i.target = .all → (∀ p, .started p ∈ es → p ∉ successes (commands x is).log ∧ ¬Skipped (is ++ [i]) p) ∧
        ((command i (commands x is)).2 = 0 ↔
          ∀ p ∈ allPlaybooks, p ∈ successes (commands x (is ++ [i])).log ∨ Skipped (is ++ [i]) p)) ∧
      ∀ p, i.target = .one p → ((command i (commands x is)).2 = 0 ↔ ∀ q ∈ targetPlaybooks (.one p), q ∈ successes es) := by
  obtain ⟨es, hlog, -, hstarted, hstatus⟩ := command_ran hv (commands x is)
  rw [← commands_append_one] at hlog
  refine ⟨es, hlog, fun hall => ⟨?_, ?_⟩, fun p hone => ?_⟩
  · intro p hp
    obtain ⟨hskip, hmarked⟩ := hstarted p hp hall
    rw [marked_iff, not_or] at hmarked
    rw [skipped_append_one hv, not_or]
    exact ⟨hmarked.1, hskip, hmarked.2⟩
  · have hstatus := hstatus (by simp [hall])
    rw [hall] at hstatus
    refine hstatus.trans (forall₂_congr fun p _ => ?_)
    rw [marked_iff, hlog, successes_append, List.mem_append, skipped_append_one hv]
    tauto
  · have hstatus := hstatus (by simp [hone])
    rw [hone] at hstatus
    refine hstatus.trans (forall₂_congr fun q _ => ?_)
    simp

/-- The playbook `linux` fails when it is run again by itself, and `all` passes it over all the same. -/
theorem any_targets_small :
    (command ⟨smallConfig, fun _ => true, .all⟩
      (commands none [⟨smallConfig, fun _ => true, .all⟩, ⟨smallConfig, fun _ => false, .one .linux⟩])).2 = 0 := by
  obtain ⟨es, -, hall, -⟩ := any_targets none
    [⟨smallConfig, fun _ => true, .all⟩, ⟨smallConfig, fun _ => false, .one .linux⟩]
    (show (⟨smallConfig, fun _ => true, .all⟩ : Command).valid = true by decide)
  refine (hall rfl).2.2 ?_
  unfold Skipped
  decide

end AzHop.Install
