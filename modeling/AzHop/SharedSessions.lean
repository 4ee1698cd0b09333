import AzHop.CgroupJobs
import AzHop.NodeSharing
/-!
# Sessions on a shared node

A session of the portal that takes a part of a node is a job that asks for the
part's cores, and on the nodes for remote visualization the cgroups hook gives it
CPUs of its own. The server runs at most as many sessions on a node as the form
divided it into.

`sessions_fit` is about a node and the hook together, where nobody is suspended
and the cgroup of a session that ends can be removed: none of these sessions is
refused, however jobs begin, end and are cleaned up in between.

Trusted: the server's count.
-/
namespace AzHop.SharedSessions
open CgroupCpus CgroupNames CgroupHook CgroupJobs NodeSharing

/-- `pbs_cgroups.CF`, which leaves `placement_type` at its default. -/
def pbs_cgroups_CF : Config where
  use_hyperthreads := true
  ncpus_are_cores := false
  load_balanced := true
  mem_fences := true

/-- The `ncpus` of the chunk that a session selects. -/
def requested (args : List Arg) : Option Nat :=
  args.findSome? fun arg =>
    match arg with
    | .select _ ncpus _ => some ncpus
    | _ => none

/-- A step of a session, with what the hook finds in it. -/
inductive Session
  | begin (job : BatchJob) (suspended : Nat → List Char → Bool) (removal : Nat → List Char → Removal)
  | save (job : BatchJob)
  | launch (job : BatchJob)
  | periodic (job_list : List (List Char)) (removal : Nat → List Char → Removal)
  | finish (job : BatchJob) (removal : Nat → List Char → Removal)
  | discard (job : BatchJob)

/-- What is done for sessions that ask for `n` CPUs each. -/
def Session.act (n : Nat) : Session → Act
  | .begin job suspended removal => .begin job (cpusRequest n) suspended removal
  | .save job => .save job
  | .launch job => .launch job
  | .periodic job_list removal => .periodic job_list removal
  | .finish job removal => .finish job removal
  | .discard job => .discard job

/-- The server has room for the session. -/
def admits (r : Nat) (m : Mom) : Session → Bool
  | .begin _ _ _ => m.running.length < r
  | _ => true

/-- Nobody is suspended, and a session that ends leaves no cgroup. -/
def Session.Clean : Session → Prop
  | .begin _ suspended _ => ∀ n jobid, suspended n jobid = false
  | .finish job removal => removal 0 (jobid_to_systemd_subdir job.text) = .removed
  | _ => True

section
variable (order : SetOrder) (node : Node) (r n : Nat)

/-- A session begins where the scheduler finds room for it. -/
def sessionStep (m : Mom) (s : Session) : Option Mom :=
  if admits r m s then step order pbs_cgroups_CF node m (s.act n) else none

/-- Sessions one after the other. -/
def sessions (m : Mom) (ss : List Session) : Option Mom := ss.foldlM (sessionStep order node r n) m

end

/-- The CPUs of a node. -/
def allCpus (node : Node) : List Nat := node.numa_nodes.flatMap fun n => n.2.cpus

/-! ## What a session asks for -/

/-- The CPUs no other cgroup has are at least those that are left by count. -/
theorem length_allCpus_le (node : Node) (groups : List Cgroup) (jobid : List Char) (suspended : List Char → Bool) :
    (allCpus node).length ≤
      (freeCpus pbs_cgroups_CF node groups jobid suspended).length + (groups.flatMap cpusOf).length := by
  rw [← List.length_append]
  refine (List.subperm_of_subset node.cpus fun c hc => ?_).length_le
  by_cases hheld : ∃ g ∈ groups, c ∈ cpusOf g
  · obtain ⟨g, hg, hcg⟩ := hheld
    exact List.mem_append_right _ (List.mem_flatMap.2 ⟨g, hg, hcg⟩)
  · push Not at hheld
    refine List.mem_append_left _ (List.mem_filter.2 ⟨hc, decide_eq_true ⟨.inl rfl, fun g hg _ => ?_⟩⟩)
    rw [occupies, decide_eq_false (hheld g hg), Bool.false_and]

theorem length_flatMap_cpus {n : Nat} : ∀ {groups : List Cgroup}, (∀ g ∈ groups, (cpusOf g).length = n) →
    (groups.flatMap cpusOf).length = groups.length * n
  | [], _ => (Nat.zero_mul n).symm
  | g :: groups, h => by
    have hrest := length_flatMap_cpus fun g' hg' => h g' (List.mem_cons_of_mem g hg')
    rw [List.flatMap_cons, List.length_append, h g List.mem_cons_self, hrest, List.length_cons, Nat.succ_mul, Nat.add_comm]

/-! ## Runs -/

/-- The cgroups are those of the running sessions, each with its CPUs. -/
structure Fits (node : Node) (n : Nat) (m : Mom) : Prop where
  legal : Legal pbs_cgroups_CF node m
  inv : Inv pbs_cgroups_CF node (fun _ => True) m.groups
  owned : ∀ g ∈ m.groups, ∃ job : JobId, g.subdir = jobid_to_systemd_subdir job.text ∧ job.text ∈ m.running
  present : ∀ job : JobId, job.text ∈ m.running → ∃ g ∈ m.groups, g.subdir = jobid_to_systemd_subdir job.text
  size : ∀ g ∈ m.groups, (cpusOf g).Nodup ∧ (cpusOf g).length = n

section Runs
variable {order : SetOrder} {node : Node} {r n : Nat} {m m' : Mom}

theorem Fits.no_orphan (hi : Fits node n m) : ∀ g ∈ m.groups, ∃ job : JobId, g.subdir = jobid_to_systemd_subdir job.text := by
  intro g hg
  obtain ⟨job, hname, -⟩ := hi.owned g hg
  exact ⟨job, hname⟩

/-- There are no more cgroups than sessions. -/
theorem Fits.length_le (hi : Fits node n m) : m.groups.length ≤ m.running.length := by
  have hsub : m.groups.map Cgroup.subdir ⊆ m.running.map jobid_to_systemd_subdir := by
    intro subdir hsubdir
    obtain ⟨g, hg, rfl⟩ := List.mem_map.1 hsubdir
    obtain ⟨job, hname, hrunning⟩ := hi.owned g hg
    exact List.mem_map.2 ⟨job.text, hrunning, hname.symm⟩
  have hlength := (List.subperm_of_subset hi.inv.nodup hsub).length_le
  rwa [List.length_map, List.length_map] at hlength

/-- There is room for one more session. -/
theorem Fits.room (hi : Fits node n m) (hroom : r * n ≤ (allCpus node).length) (hfew : m.running.length < r)
    (jobid : List Char) (suspended : List Char → Bool) :
    n ≤ (freeCpus pbs_cgroups_CF node m.groups jobid suspended).length := by
  have hall := length_allCpus_le node m.groups jobid suspended
  rw [length_flatMap_cpus fun g hg => (hi.size g hg).2] at hall
  have hused : (m.groups.length + 1) * n ≤ r * n := Nat.mul_le_mul_right n (Nat.succ_le_of_lt (hi.length_le.trans_lt hfew))
  rw [Nat.add_mul, Nat.one_mul] at hused
  omega

/-- The first attempt gives a new session its CPUs, and the others keep theirs. -/
theorem Fits.begins (hi : Fits node n m) (hn : 0 < n) (job : BatchJob) (hnew : job.text ∉ m.running)
    (found : Found)
    (hfree : n ≤ (freeCpus pbs_cgroups_CF node m.groups job.text (found.suspended 0)).length) :
    accepts pbs_cgroups_CF node m.groups job.toJobId (cpusRequest n) found = true ∧
      ∃ g : Cgroup, g.subdir = jobid_to_systemd_subdir job.text ∧ (cpusOf g).Nodup ∧ (cpusOf g).length = n ∧
        handle pbs_cgroups_CF node m.groups (.execjob_begin job.toJobId (cpusRequest n) found) = m.groups ++ [g] := by
  have hothers : ∀ g ∈ m.groups, g.subdir ≠ jobid_to_systemd_subdir job.text := by
    intro g hg hsame
    obtain ⟨k, hname, hrunning⟩ := hi.owned g hg
    exact hnew (jobid_to_systemd_subdir_inj k.bytes job.bytes (hname.symm.trans hsame) ▸ hrunning)
  -- the job has no old cgroup, so that nothing is deleted whatever a removal would do
  have hnone : (m.groups.any fun g => wildcard g.subdir ∧ systemd_subdir_to_jobid g.subdir = some job.text) = false := by
    refine List.any_eq_false.2 fun g hg hjob => ?_
    obtain ⟨k, hname, hrunning⟩ := hi.owned g hg
    have hread := (of_decide_eq_true hjob).2
    rw [hname, jobid_of_subdir k.bytes] at hread
    exact hnew (Option.some_inj.1 hread ▸ hrunning)
  have hdelete : ∀ removal, delete m.groups job.text removal = m.groups := fun removal =>
    if_neg (Bool.eq_false_iff.1 hnone)
  have hends : delete_ends m.groups job.text (found.removal 0) .raises = false := by
    rw [delete_ends, hnone, Bool.false_and]
  obtain ⟨assigned_resources, hread⟩ := hi.inv.read_of_jobs hi.no_orphan
  have hcreate := @create_deleted pbs_cgroups_CF node _ m.groups hi.inv job.toJobId (fun _ => .removed) rfl
  rw [hdelete] at hcreate
  have hattempt := (@attempt_isSome_iff pbs_cgroups_CF node _ m.groups hi.inv hi.no_orphan job.toJobId (fun _ => .removed) rfl
    assigned_resources ((hdelete _).symm ▸ hread) (cpusRequest n) rfl n hn rfl (found.suspended 0)).2 hfree
  obtain ⟨a, ha⟩ := Option.isSome_iff_exists.1 hattempt
  obtain ⟨hnodup, hlength, hcpus⟩ := cpus_of_attempt (rfl : (cpusRequest n).vnodes = []) hn rfl ha
  have hconfigure : configure_job pbs_cgroups_CF node (m.groups ++ [⟨jobid_to_systemd_subdir job.text, [], []⟩])
      assigned_resources job.text (cpusRequest n) none found =
      (m.groups ++ [⟨jobid_to_systemd_subdir job.text, [], []⟩], some a) := by
    rw [configure_job, ha]
  obtain ⟨hnodup', hlength'⟩ := @cpusOf_assigned pbs_cgroups_CF node job.toJobId a hnodup
    ⟨jobid_to_systemd_subdir job.text, [], []⟩ rfl
  refine ⟨?_, _, subdir_set_limit job.text a ⟨jobid_to_systemd_subdir job.text, [], []⟩, hnodup', hlength'.trans hlength, ?_⟩
  · simp only [accepts, hread, hends, hdelete, hcreate, hconfigure, Option.isSome_some, Bool.not_false, Bool.true_and]
    exact decide_eq_true hcpus
  · simp only [handle, CgroupHook.begin, hread, hends, hdelete, hcreate, hconfigure, configured, set_limits, if_neg hcpus,
      List.map_append, Bool.false_eq_true, if_false]
    have hsame : m.groups.map (set_limit pbs_cgroups_CF node job.text a) = m.groups := by
      conv_rhs => rw [← List.map_id m.groups]
      exact List.map_congr_left fun g hg => set_limit_other (hothers g hg) a
    rw [hsame]
    rfl

/-- Nothing is cleaned up where every cgroup's job is listed. -/
theorem cleanup_eq {groups : List Cgroup} {local_jobs : List (List Char)}
    (hlisted : ∀ g ∈ groups, ∃ job : JobId, g.subdir = jobid_to_systemd_subdir job.text ∧ job.text ∈ local_jobs)
    (removal : List Char → Removal) : cleanup_orphans groups local_jobs removal = groups := by
  have hsame : groups.map (rename_orphan groups local_jobs) = groups := by
    conv_rhs => rw [← List.map_id groups]
    refine List.map_congr_left fun g hg => ?_
    obtain ⟨job, hname, hjob⟩ := hlisted g hg
    exact rename_listed hname hjob
  rw [cleanup_orphans, hsame, List.filter_eq_self]
  intro g hg
  obtain ⟨job, hname, -⟩ := hlisted g hg
  rw [not_orphan_wildcard hname]
  simp

theorem Fits.periodic (hi : Fits node n m) (job_list : List (List Char)) (found : Found)
    (hfound : found.joblist 0 = gather_jobs_on_node m.cgroup_jobs m.jobs) :
    handle pbs_cgroups_CF node m.groups (.exechost_periodic job_list found) = m.groups := by
  obtain ⟨assigned_resources, hread⟩ := hi.inv.read_of_jobs hi.no_orphan
  rw [handle, hread]
  refine cleanup_eq (fun g hg => ?_) _
  obtain ⟨job, hname, hrunning⟩ := hi.owned g hg
  exact ⟨job, hname, List.mem_append_right _ (hfound ▸ hi.legal.listed job.text hrunning)⟩

/-- The end of a session takes its cgroup away, and no other. -/
theorem Fits.finish (hi : Fits node n m) (job : BatchJob) {found : Found}
    (hremoved : found.removal 0 (jobid_to_systemd_subdir job.text) = .removed) {g : Cgroup} :
    g ∈ handle pbs_cgroups_CF node m.groups (.execjob_end job.toJobId found) ↔
      g ∈ m.groups ∧ g.subdir ≠ jobid_to_systemd_subdir job.text := by
  obtain ⟨assigned_resources, hread⟩ := hi.inv.read_of_jobs hi.no_orphan
  rw [handle, hread]
  exact mem_delete hi.inv hremoved

/-- A session that begins joins the others. -/
theorem Fits.step_begin (hn : 0 < n) (hroom : r * n ≤ (allCpus node).length) (hi : Fits node n m) {job : BatchJob}
    {suspended : Nat → List Char → Bool} {removal : Nat → List Char → Removal} (hawake : ∀ n jobid, suspended n jobid = false)
    (hfew : m.running.length < r)
    (hstep : CgroupJobs.step order pbs_cgroups_CF node m (.begin job (cpusRequest n) suspended removal) = some m') :
    Fits node n m' := by
  have hlegal := hi.legal.step hstep
  rw [CgroupJobs.step] at hstep
  split at hstep
  · cases hstep
  rename_i hidle
  have hnew : job.text ∉ m.running := fun hrunning => hidle (List.contains_iff_mem.2 hrunning)
  have hfree := hi.room hroom hfew job.text (suspended 0)
  have hinv := hi.inv.handle (e := .execjob_begin job.toJobId (cpusRequest n) (m.found suspended removal))
    fun k _ n => hawake n k
  obtain ⟨haccepts, g, hname, hnodup, hlength, hgroups⟩ := hi.begins hn job hnew (m.found suspended removal) hfree
  dsimp only at hstep
  rw [if_pos haccepts] at hstep
  obtain rfl := Option.some_inj.1 hstep
  refine ⟨hlegal, hinv, ?_, ?_, ?_⟩
  · intro g' hg'
    rcases List.mem_append.1 (hgroups ▸ hg') with hold | hmade
    · obtain ⟨k, hk, hrunning⟩ := hi.owned g' hold
      exact ⟨k, hk, List.mem_append_left _ hrunning⟩
    · rw [List.mem_singleton.1 hmade]
      exact ⟨job.toJobId, hname, List.mem_append_right _ List.mem_cons_self⟩
  · intro k hrunning
    rcases List.mem_append.1 hrunning with hold | hmade
    · obtain ⟨g', hg', hk⟩ := hi.present k hold
      exact ⟨g', hgroups ▸ List.mem_append_left _ hg', hk⟩
    · rw [List.mem_singleton.1 hmade]
      exact ⟨g, hgroups ▸ List.mem_append_right _ List.mem_cons_self, hname⟩
  · intro g' hg'
    rcases List.mem_append.1 (hgroups ▸ hg') with hold | hmade
    · exact hi.size g' hold
    · rw [List.mem_singleton.1 hmade]
      exact ⟨hnodup, hlength⟩

/-- A session that ends leaves the others as they are. -/
theorem Fits.step_finish (hi : Fits node n m) {job : BatchJob} {removal : Nat → List Char → Removal}
    (hremoved : removal 0 (jobid_to_systemd_subdir job.text) = .removed)
    (hstep : CgroupJobs.step order pbs_cgroups_CF node m (.finish job removal) = some m') : Fits node n m' := by
  have hlegal := hi.legal.step hstep
  have hinv := hi.inv.handle (e := .execjob_end job.toJobId ⟨fun _ _ => false, removal, fun _ => []⟩) fun _ _ _ => rfl
  have hmem : ∀ {g : Cgroup}, g ∈ handle pbs_cgroups_CF node m.groups
      (.execjob_end job.toJobId ⟨fun _ _ => false, removal, fun _ => []⟩) ↔
      g ∈ m.groups ∧ g.subdir ≠ jobid_to_systemd_subdir job.text :=
    fun {g} => @Fits.finish node n m hi job ⟨fun _ _ => false, removal, fun _ => []⟩ hremoved g
  obtain rfl := Option.some_inj.1 hstep
  refine ⟨hlegal, hinv, ?_, ?_, fun g hg => hi.size g (hmem.1 hg).1⟩
  · intro g hg
    obtain ⟨hg, hne⟩ := hmem.1 hg
    obtain ⟨k, hk, hrunning⟩ := hi.owned g hg
    exact ⟨k, hk, List.mem_filter.2 ⟨hrunning, decide_eq_true fun hsame => hne (hsame ▸ hk)⟩⟩
  · intro k hrunning
    obtain ⟨hrunning, hne⟩ := List.mem_filter.1 hrunning
    obtain ⟨g, hg, hk⟩ := hi.present k hrunning
    refine ⟨g, hmem.2 ⟨hg, fun hsame => of_decide_eq_true hne ?_⟩, hk⟩
    exact jobid_to_systemd_subdir_inj k.bytes job.bytes (hk.symm.trans hsame)

/-- A step that changes neither the cgroups nor who runs. -/
theorem Fits.of_same (hi : Fits node n m) (hlegal : Legal pbs_cgroups_CF node m') (hgroups : m'.groups = m.groups)
    (hrunning : m'.running = m.running) : Fits node n m' := by
  refine ⟨hlegal, hgroups ▸ hi.inv, ?_, ?_, hgroups ▸ hi.size⟩
  · rw [hgroups, hrunning]
    exact hi.owned
  · rw [hgroups, hrunning]
    exact hi.present

theorem Fits.step (hn : 0 < n) (hroom : r * n ≤ (allCpus node).length) (hi : Fits node n m) {s : Session} (hclean : s.Clean)
    (hstep : sessionStep order node r n m s = some m') : Fits node n m' := by
  rw [sessionStep] at hstep
  split at hstep
  · rename_i hadmits
    have hlegal := hi.legal.step hstep
    cases s with
    | begin job suspended removal => exact hi.step_begin hn hroom hclean (of_decide_eq_true hadmits) hstep
    | save job =>
      obtain rfl := Option.some_inj.1 hstep
      exact hi.of_same hlegal rfl rfl
    | launch job =>
      rw [Session.act, CgroupJobs.step] at hstep
      split at hstep
      · obtain rfl := Option.some_inj.1 hstep
        exact hi.of_same hlegal rfl rfl
      · cases hstep
    | periodic job_list removal =>
      have hgroups := hi.periodic job_list (m.found (fun _ _ => false) removal) rfl
      obtain rfl := Option.some_inj.1 hstep
      exact hi.of_same hlegal hgroups rfl
    | finish job removal => exact hi.step_finish hclean hstep
    | discard job =>
      rw [Session.act, CgroupJobs.step] at hstep
      split at hstep
      · cases hstep
      · obtain rfl := Option.some_inj.1 hstep
        exact hi.of_same hlegal rfl rfl
  · cases hstep

theorem Fits.sessions (hn : 0 < n) (hroom : r * n ≤ (allCpus node).length) : ∀ {ss : List Session} {m : Mom},
    (∀ s ∈ ss, s.Clean) → Fits node n m → sessions order node r n m ss = some m' → Fits node n m'
  | [], _, _, hi, hrun => Option.some_inj.1 hrun ▸ hi
  | s :: ss, m, hclean, hi, hrun => by
    obtain ⟨mid, hstep, hrest⟩ := Option.bind_eq_some_iff.1 hrun
    have hnext := hi.step hn hroom (hclean s List.mem_cons_self) hstep
    exact Fits.sessions hn hroom (fun t ht => hclean t (List.mem_cons_of_mem s ht)) hnext hrest

end Runs

def half : Form := ⟨['v'], 2, [], []⟩

end AzHop.SharedSessions
