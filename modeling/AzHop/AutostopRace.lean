import AzHop.Autostop
/-!
# autostop.rb and the PBS scheduler

The steps of autostop.rb on a node, interleaved with the scheduler starting
and finishing jobs there. The script looks at the job directory once, at its
start; PBS starts no job on a node that is offline. `invocation_steps` says
that the steps without any interleaving are `autostop`.

The script does not look at the exit status of `pbsnodes -o`: where the command
fails, it sleeps and shuts down a node that still takes jobs.

Between the sample and the shutdown, or the `pbsnodes -o` that succeeds, the
node is neither known to be busy nor offline: `no_job_killed` is about the runs
in which no job starts there, and `start_then_killed` says what becomes of one
that does.
-/
namespace AzHop.Autostop

open Lib.Json

/-- How far the running invocation is. -/
inductive Phase
  | waiting
  | sampled (i : Invocation) (config : Members) (idle_long_enough : Bool)
  | written (i : Invocation)
  | checked
  | offlined
  | slept

/-- The node: how far the script is, its state file, how many jobs run, and
whether the server has it offline. -/
structure Node where
  phase : Phase
  file : Option (List Char)
  jobs : Nat
  offline : Bool

/-- A step of the script or of the scheduler; `pbsnodes -o` succeeds or not. -/
inductive Action
  | sample (i : Invocation)
  | write
  | query
  | pbsnodes_offline (succeeds : Bool)
  | sleep
  | shutdown
  | start
  | finish

/-- What the invocation reads on the node: the job directory. -/
def Invocation.on (i : Invocation) (n : Node) : Invocation := { i with active := decide (0 < n.jobs) }

/-- One action; `none` when it is not possible in this phase. -/
def step (n : Node) : Action → Option Node
  | .sample i =>
    match n.phase, i.config.autostop_enabled with
    | .waiting, true =>
      match (runtime_config n.file).bind (check_idle · (i.on n)) with
      | none => some n
      | some (config, idle_long_enough) => some { n with phase := .sampled (i.on n) config idle_long_enough }
    | .waiting, false => some n
    | _, _ => none
  | .write =>
    match n.phase with
    | .sampled i config idle_long_enough =>
      some { n with file := some (puts config), phase := if idle_long_enough then .written i else .waiting }
    | _ => none
  | .query =>
    match n.phase with
    | .written i =>
      match is_keepalive? i with
      | none => some { n with phase := .waiting }
      | some (am_i, _) => some { n with phase := if truthy am_i then .waiting else .checked }
    | _ => none
  | .pbsnodes_offline succeeds =>
    match n.phase with
    -- the exit status is not looked at
    | .checked => some { n with offline := n.offline || succeeds, phase := .offlined }
    | _ => none
  | .sleep =>
    match n.phase with
    | .offlined => some { n with phase := .slept }
    | _ => none
  | .shutdown =>
    match n.phase with
    | .slept => some { n with phase := .waiting }
    | _ => none
  -- the scheduler
  | .start => if n.offline then none else some { n with jobs := n.jobs + 1 }
  | .finish => if n.jobs = 0 then none else some { n with jobs := n.jobs - 1 }

/-- Actions one after the other. -/
def run (n : Node) (as : List Action) : Option Node := as.foldlM step n

theorem run_append (n : Node) (as bs : List Action) : run n (as ++ bs) = (run n as).bind (run · bs) := by
  simp [run, List.foldlM_append]

/-! ## Without interleaving -/

theorem run_cons (n : Node) (a : Action) (as : List Action) : run n (a :: as) = (step n a).bind (run · as) := by
  simp [run, List.foldlM_cons]

/-- The steps of an invocation, one after the other, do what `autostop` does,
whether `pbsnodes -o` succeeds or not. -/
theorem invocation_steps {n : Node} (hn : n.phase = .waiting) {i : Invocation}
    (hen : i.config.autostop_enabled = true) (hk : i.killed = none) (succeeds : Bool) :
    (∀ m, run n [.sample i, .write] = some m → m.file = (autostop n.file (i.on n)).file) ∧
      ((run n [.sample i, .write, .query, .pbsnodes_offline succeeds, .sleep, .shutdown]).isSome = true ↔
        Effect.shutdown ∈ (autostop n.file (i.on n)).effects) := by
  have hen' : (i.on n).config.autostop_enabled = true := hen
  have hk' : (i.on n).killed = none := hk
  cases hcheck : (runtime_config n.file).bind (check_idle · (i.on n)) with
  | none => simp [step, hn, hen, hcheck, autostop, hen', run]
  | some r =>
    obtain ⟨config, idle⟩ := r
    refine ⟨?_, ?_⟩
    · intro m hm
      simp only [run_cons, step, hn, hen, hcheck, Option.bind_some] at hm
      cases hm
      simp [autostop, hen', hcheck, hk']
    · cases idle with
      | false => simp [run_cons, step, hn, hen, hcheck, autostop, hen', hk', stop]
      | true =>
        cases hkeep : is_keepalive? (i.on n) with
        | none => simp [run_cons, step, hn, hen, hcheck, autostop, hen', hk', stop, hkeep]
        | some r =>
          have hr : Effect.shutdown ∉ r.2 := no_shutdown_in_check hkeep
          cases ht : truthy r.1 <;>
            simp [step, hn, hen, hcheck, autostop, hen', hk', stop, hkeep, ht, hr, run]

/-! ## With the scheduler -/

/-- The script has seen no job and may go on to shut the node down, and the
node is not offline. -/
def Pending (n : Node) : Prop :=
  match n.phase with
  | .sampled _ _ true | .written _ | .checked | .offlined | .slept => n.offline = false
  | _ => False

/-- No job runs on a node that is about to be shut down. -/
def Quiet (n : Node) : Prop :=
  match n.phase with
  | .sampled _ _ true | .written _ | .checked | .offlined | .slept => n.jobs = 0
  | _ => True

theorem idle_of_check {config config' : Members} {i : Invocation} (h : check_idle config i = some (config', true)) :
    i.active = false := by
  unfold check_idle at h
  split_ifs at h with hactive
  · simp at h
  · simpa using hactive

/-- A sample with which the script goes on to stop the node saw no job. -/
theorem sample_cases {n n' : Node} {i : Invocation} (h : step n (.sample i) = some n') :
    n' = n ∨ ∃ config idle, n' = { n with phase := .sampled (i.on n) config idle } ∧ (idle = true → n.jobs = 0) := by
  simp only [step] at h
  split at h
  · split at h
    · cases h
      exact .inl rfl
    · rename_i config idle hcheck
      cases h
      refine .inr ⟨config, idle, rfl, ?_⟩
      rintro rfl
      -- an idle sample means that the job directory was empty
      obtain ⟨config₀, -, hcheck⟩ := Option.bind_eq_some_iff.1 hcheck
      have hjobs : (i.on n).active = false := idle_of_check hcheck
      simpa [Invocation.on] using hjobs
  · cases h
    exact .inl rfl
  · cases h

theorem write_cases {n n' : Node} (h : step n .write = some n') : ∃ i config idle,
    n.phase = .sampled i config idle ∧
    n' = { n with file := some (puts config), phase := if idle then .written i else .waiting } := by
  simp only [step] at h
  split at h
  · rename_i i config idle hphase
    cases h
    exact ⟨i, config, idle, hphase, rfl⟩
  · cases h

theorem query_cases {n n' : Node} (h : step n .query = some n') : ∃ i, n.phase = .written i ∧
    (n' = { n with phase := .waiting } ∨ n' = { n with phase := .checked }) := by
  simp only [step] at h
  split at h
  · rename_i i hphase
    refine ⟨i, hphase, ?_⟩
    split at h
    · cases h
      exact .inl rfl
    · rename_i am_i effects hkeep
      cases h
      cases truthy am_i with
      | true => exact .inl rfl
      | false => exact .inr rfl
  · cases h

theorem pbsnodes_offline_cases {n n' : Node} {succeeds : Bool} (h : step n (.pbsnodes_offline succeeds) = some n') :
    n.phase = .checked ∧ n' = { n with offline := n.offline || succeeds, phase := .offlined } := by
  simp only [step] at h
  split at h
  · rename_i hphase
    cases h
    exact ⟨hphase, rfl⟩
  · cases h

theorem sleep_cases {n n' : Node} (h : step n .sleep = some n') :
    n.phase = .offlined ∧ n' = { n with phase := .slept } := by
  simp only [step] at h
  split at h
  · rename_i hphase
    cases h
    exact ⟨hphase, rfl⟩
  · cases h

theorem shutdown_cases {n n' : Node} (h : step n .shutdown = some n') :
    n.phase = .slept ∧ n' = { n with phase := .waiting } := by
  simp only [step] at h
  split at h
  · rename_i hphase
    cases h
    exact ⟨hphase, rfl⟩
  · cases h

theorem start_cases {n n' : Node} (h : step n .start = some n') :
    n.offline = false ∧ n' = { n with jobs := n.jobs + 1 } := by
  simp only [step] at h
  split_ifs at h with hoffline
  cases h
  exact ⟨by simpa using hoffline, rfl⟩

theorem finish_cases {n n' : Node} (h : step n .finish = some n') : n' = { n with jobs := n.jobs - 1 } := by
  simp only [step] at h
  split_ifs at h
  cases h
  rfl

/-- One step keeps a node quiet, unless it starts a job on a pending node. -/
theorem step_quiet {n n' : Node} {a : Action} (h : step n a = some n') (hn : Quiet n)
    (hstart : a = .start → ¬ Pending n) : Quiet n' := by
  cases a with
  | sample i =>
    obtain rfl | ⟨config, idle, rfl, hjobs⟩ := sample_cases h
    · exact hn
    · cases idle with
      | false => trivial
      | true => exact hjobs rfl
  | write =>
    obtain ⟨i, config, idle, hphase, rfl⟩ := write_cases h
    cases idle with
    | false => trivial
    | true => simpa [Quiet, hphase] using hn
  | query =>
    obtain ⟨i, hphase, rfl | rfl⟩ := query_cases h
    · trivial
    · simpa [Quiet, hphase] using hn
  | pbsnodes_offline succeeds =>
    obtain ⟨hphase, rfl⟩ := pbsnodes_offline_cases h
    simpa [Quiet, hphase] using hn
  | sleep =>
    obtain ⟨hphase, rfl⟩ := sleep_cases h
    simpa [Quiet, hphase] using hn
  | shutdown =>
    obtain ⟨-, rfl⟩ := shutdown_cases h
    trivial
  | start =>
    obtain ⟨honline, rfl⟩ := start_cases h
    have hpending : ¬ Pending n := hstart rfl
    -- the node is not offline, so that it is pending wherever `Quiet` asks for something
    unfold Quiet Pending at *
    dsimp only
    split at hn <;> simp_all
  | finish =>
    cases finish_cases h
    unfold Quiet at *
    dsimp only
    split at hn <;> simp_all

/-- In no step of the run does a job start on a pending node. -/
def NoStartWhilePending (n₀ : Node) (as : List Action) : Prop :=
  ∀ pre post n, as = pre ++ .start :: post → run n₀ pre = some n → ¬ Pending n

theorem run_quiet {n₀ : Node} (h₀ : Quiet n₀) (as : List Action) (hcond : NoStartWhilePending n₀ as) :
    ∀ n, run n₀ as = some n → Quiet n := by
  induction as using List.reverseRecOn with
  | nil =>
    intro n hn
    cases hn
    exact h₀
  | append_singleton as a ih =>
    intro n hn
    rw [run_append] at hn
    obtain ⟨m, hm, hstep⟩ := Option.bind_eq_some_iff.1 hn
    have hstep : step m a = some n := by simpa [run] using hstep
    have hbefore : NoStartWhilePending n₀ as := by
      rintro pre post k rfl hk
      exact hcond pre (post ++ [a]) k (by simp) hk
    apply step_quiet hstep (ih hbefore m hm)
    rintro rfl
    exact hcond as [] m rfl hm

theorem step_shutdown {n n' : Node} (h : step n .shutdown = some n') (hn : Quiet n) : n.jobs = 0 := by
  obtain ⟨hphase, -⟩ := shutdown_cases h
  simpa only [Quiet, hphase] using hn

/-- `jetpack shutdown` is not executed with a job running, in a run in which
no job starts while the node is pending. -/
theorem no_job_killed {n₀ : Node} (h₀ : n₀.phase = .waiting) (as : List Action) (hcond : NoStartWhilePending n₀ as)
    (pre post : List Action) (n n' : Node) (has : as = pre ++ .shutdown :: post) (hrun : run n₀ pre = some n)
    (hstep : step n .shutdown = some n') : n.jobs = 0 := by
  have hquiet : Quiet n₀ := by simp [Quiet, h₀]
  have hbefore : NoStartWhilePending n₀ pre := by
    rintro pre' post' k rfl hk
    exact hcond pre' (post' ++ .shutdown :: post) k (by simp [has]) hk
  exact step_shutdown hstep (run_quiet hquiet pre hbefore n hrun)

/-- A job that starts right before `pbsnodes -o`, or after one that failed, is
killed if it runs for the five seconds until the shutdown. -/
theorem start_then_killed {n : Node} (hphase : n.phase = .checked) (hoffline : n.offline = false) (succeeds : Bool) :
    (∃ m, run n [.start, .pbsnodes_offline succeeds, .sleep] = some m ∧ (step m .shutdown).isSome = true ∧
        0 < m.jobs) ∧
      ∃ m, run n [.pbsnodes_offline false, .start, .sleep] = some m ∧ (step m .shutdown).isSome = true ∧
        0 < m.jobs := by
  constructor
  · refine ⟨{ n with jobs := n.jobs + 1, offline := succeeds, phase := .slept }, ?_, rfl, Nat.succ_pos _⟩
    simp [step, hphase, hoffline, run]
  · refine ⟨{ n with jobs := n.jobs + 1, phase := .slept }, ?_, rfl, Nat.succ_pos _⟩
    simp [step, hphase, hoffline, run]

/-- A node that has just been started. -/
def freshNode : Node := ⟨.waiting, none, 0, false⟩

/-- A job, and then two invocations six minutes apart; `pbsnodes -o` fails. -/
def quietRun : List Action :=
  [.start, .finish, .sample (idleAt 60), .write, .sample (idleAt 420), .write, .query, .pbsnodes_offline false, .sleep]

theorem no_job_killed_quiet : ∃ n n', run freshNode quietRun = some n ∧ step n .shutdown = some n' ∧ n.jobs = 0 := by
  have hcond : NoStartWhilePending freshNode (quietRun ++ [.shutdown]) := by
    intro pre post n has hrun
    rcases pre with _ | ⟨a, pre⟩
    · cases hrun
      exact id
    · have hlater : Action.start ∈ quietRun.tail ++ [.shutdown] := by
        have htail : quietRun.tail ++ [.shutdown] = pre ++ .start :: post := (List.cons.inj has).2
        simp [htail]
      simp [quietRun] at hlater
  exact ⟨_, _, rfl, rfl, no_job_killed rfl _ hcond quietRun [] _ _ rfl rfl rfl⟩

/-- A job starts after the keepalive check, and is running when the node is shut down. -/
theorem started_job_killed : ∃ n,
    run freshNode [.sample (idleAt 60), .write, .sample (idleAt 420), .write, .query, .start, .pbsnodes_offline true,
      .sleep] = some n ∧ (step n .shutdown).isSome = true ∧ n.jobs = 1 :=
  ⟨_, rfl, rfl, rfl⟩

end AzHop.Autostop
