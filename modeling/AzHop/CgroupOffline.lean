import AzHop.CgroupHook
/-!
# A node with cgroups that stay

Where the cgroups hook cannot remove a cgroup it takes the node offline, with a
comment and a file of its own, and brings it back in a periodic event that
leaves no orphans. The server, which sets other states of the node, and an
administrator act in between.

`offline_iff_orphan` is about the node alone with the hook, where a cgroup that
stays has tasks left, the server answers and the hook's file can be written and
removed: the node is offline while there is an orphan, and after each periodic
event only then. `administrator_kept` is about a node that an administrator took
offline, whatever fails: the hook leaves it alone until tasks are left in a cgroup
while the server has set another state.

Trusted: the server keeps what the hook sets also where the event is rejected; the
directories that a job has for accounting are removed, or stay, with its cpuset.
-/
namespace AzHop.CgroupHook
open CgroupCpus CgroupNames

/-- `ND_OFFLINE`, and whether any other state is set. -/
structure NodeState where
  offline : Bool
  other : Bool
  deriving DecidableEq

/-- No state bit. -/
def ND_FREE : NodeState := ⟨false, false⟩

/-- The bit of the administrator and of the hook. -/
def ND_OFFLINE : NodeState := ⟨true, false⟩

/-- The node as the server knows it. -/
structure Vnode where
  state : NodeState
  comment : Option String

/-- The node, with its directories and the hook's file. -/
structure Host where
  groups : List Cgroup
  vnode : Vnode
  offline_file : Bool

/-- The comment of the hook, by which it knows its own doing. -/
def offline_msg (hook_name : String) : String := "Hook " ++ hook_name ++ ": Unable to clean up one or more cgroups"

/-! ## Removals -/

/-- `configure_job` comes to a removal that ends so, after one of its attempts. -/
def configure_ends (cfg : Config) (node : Node) (groups : List Cgroup)
    (assigned_resources : List (List Char × JobResources)) (jobid : List Char) (hostresc : Hostresc)
    (exclude_jobid : Option (List Char)) (found : Found) (r : Removal) : Bool :=
  match attempt cfg node assigned_resources hostresc (found.suspended 0) exclude_jobid with
  | some _ => false
  | none =>
    resync_ends groups jobid found 0 r ||
      !resync_ends groups jobid found 0 .raises &&
        match attempt cfg node assigned_resources hostresc (found.suspended 1) exclude_jobid with
        | some _ => false
        | none => resync_ends (resync groups jobid found 0) jobid found 1 r

/-- Without `do_offline` the second call of `delete` takes the default, so that
it makes no difference. -/
def begin_ends (cfg : Config) (node : Node) (groups : List Cgroup) (job : JobId) (hostresc : Hostresc) (found : Found)
    (r : Removal) : Bool :=
  delete_ends groups job.text (found.removal 0) r ||
    !delete_ends groups job.text (found.removal 0) .raises &&
      let deleted := delete groups job.text (found.removal 0)
      match get_assigned_cgroup_resources deleted with
      | none => false
      | some assigned_resources =>
        configure_ends cfg node (create_job deleted job.text) assigned_resources job.text hostresc none found r

/-- The event comes to a removal that ends so. -/
def removal_ends (cfg : Config) (node : Node) (groups : List Cgroup) (e : Event) (r : Removal) : Bool :=
  match get_assigned_cgroup_resources groups with
  | none => false
  | some assigned_resources =>
    match e with
    | .execjob_begin job hostresc found => begin_ends cfg node groups job hostresc found r
    | .execjob_end job found => delete_ends groups job.text (found.removal 0) r
    | .execjob_resize job hostresc found =>
      configure_ends cfg node groups assigned_resources job.text hostresc (some job.text) found r
    | .exechost_periodic job_list found => cleanup_ends groups (job_list ++ found.joblist 0) (found.removal 0) r

/-! ## Steps -/

/-- What an event meets outside the cgroups. -/
structure Outside where
  /-- The server tells the node's comment in time. -/
  answers : Bool
  /-- The hook's file can be written and removed. -/
  file : Bool

section
variable (hook_name : String)

/-- The end of `_remove_cgroup`, where tasks are left. -/
def take_offline (h : Host) (out : Outside) : Host :=
  if h.offline_file ∨ h.vnode.state = ND_OFFLINE then h
  else { h with vnode := ⟨ND_OFFLINE, some (offline_msg hook_name)⟩, offline_file := out.file }

/-- A periodic event without remaining orphans. A comment that stays empty is
not the hook's, nor is one that the server does not tell. -/
def bring_online (h : Host) (out : Outside) : Host :=
  if h.offline_file then
    { h with
      vnode := if out.answers ∧ h.vnode.comment = some (offline_msg hook_name) then ⟨ND_FREE, none⟩ else h.vnode
      offline_file := !out.file }
  else h

/-- A periodic event counts no remaining orphan, and raises nothing. -/
def onlines (cfg : Config) (node : Node) (groups : List Cgroup) (e : Event) : Bool :=
  match e with
  | .exechost_periodic _ _ =>
    (get_assigned_cgroup_resources groups).isSome && !removal_ends cfg node groups e .tasks &&
      !removal_ends cfg node groups e .raises
  | _ => false

/-- One event, with what it does to the node's state. -/
def onEvent (cfg : Config) (node : Node) (h : Host) (e : Event) (out : Outside) : Host :=
  let marked := if removal_ends cfg node h.groups e .tasks then take_offline hook_name h out else h
  let online := if onlines cfg node h.groups e then bring_online hook_name marked out else marked
  { online with groups := handle cfg node h.groups e }

/-- What happens to the node. -/
inductive Step
  | event (e : Event) (out : Outside)
  /-- The server sets or clears other states. -/
  | server (other : Bool)

def hostStep (cfg : Config) (node : Node) (h : Host) : Step → Host
  | .event e out => onEvent hook_name cfg node h e out
  | .server other => { h with vnode := { h.vnode with state := { h.vnode.state with other } } }

/-- Steps one after the other. -/
def hostRun (cfg : Config) (node : Node) (h : Host) (steps : List Step) : Host := steps.foldl (hostStep hook_name cfg node) h

end

/-- `pbsnodes -o -C comment`. -/
def administrator (h : Host) (comment : String) : Host :=
  { h with vnode := ⟨{ h.vnode.state with offline := true }, some comment⟩ }

/-- What the cgroups that stay have left is tasks. -/
def Removable (removal : List Char → Removal) : Prop := ∀ subdir, removal subdir = .removed ∨ removal subdir = .tasks

/-- Nothing fails but removals of cgroups with tasks. -/
def Orderly : Step → Prop
  | .event e out => (∀ n, Removable (e.found.removal n)) ∧ out.answers = true ∧ out.file = true
  | .server _ => True

/-- A node without jobs. -/
def Host.fresh : Host := ⟨[], ⟨ND_FREE, none⟩, false⟩

/-! ## Orphans -/

/-- A directory with `.orphan` in its name is there. -/
def HasOrphan (groups : List Cgroup) : Prop := ∃ g ∈ groups, orphan <:+ g.subdir

section Orphans
variable {cfg : Config} {node : Node} {steady : List Char → Prop} {groups : List Cgroup}

/-- The hook reads the cgroups just when none of them is an orphan's. -/
theorem reads_iff (h : Inv cfg node steady groups) :
    (get_assigned_cgroup_resources groups).isSome = true ↔ ¬HasOrphan groups := by
  constructor
  · intro hsome
    obtain ⟨assigned_resources, hread⟩ := Option.isSome_iff_exists.1 hsome
    rintro ⟨g, hg, front, hfront⟩
    obtain ⟨job, hjob, -⟩ := (h.of_read hread).1 g hg
    exact orphan_ne_subdir front job.text (hfront.trans hjob)
  · intro hno
    have hjobs := jobs_of_no_orphan h fun g hg horphan => hno ⟨g, hg, horphan⟩
    obtain ⟨assigned_resources, hread⟩ := h.read_of_jobs hjobs
    rw [hread]
    rfl

/-- An orphan that is left has tasks. -/
theorem cleanup_ends_iff (h : Inv cfg node steady groups) (local_jobs : List (List Char)) {removal : List Char → Removal}
    (hremovable : Removable removal) :
    cleanup_ends groups local_jobs removal .tasks = true ↔ HasOrphan (cleanup_orphans groups local_jobs removal) := by
  have hwildcard : ∀ g ∈ groups.map (rename_orphan groups local_jobs), wildcard g.subdir = true := by
    intro g hg
    obtain ⟨job, hjob⟩ := (h.rename (renames_orphans groups local_jobs)).owner g hg
    exact hjob.wildcard
  have horphan : ∀ g ∈ groups.map (rename_orphan groups local_jobs), orphan_wildcard g.subdir = true ↔ orphan <:+ g.subdir := by
    intro g hg
    rw [orphan_wildcard, hwildcard g hg, Bool.true_and, List.isSuffixOf_iff_suffix]
  rw [cleanup_ends, List.any_eq_true]
  constructor
  · rintro ⟨g, hg, hleft⟩
    obtain ⟨hw, htasks⟩ := of_decide_eq_true hleft
    refine ⟨g, List.mem_filter.2 ⟨hg, ?_⟩, (horphan g hg).1 hw⟩
    simp [htasks]
  · rintro ⟨g, hg, hsuffix⟩
    obtain ⟨hg, hkept⟩ := List.mem_filter.1 hg
    have hw := (horphan g hg).2 hsuffix
    have hstays : removal g.subdir ≠ .removed := by simpa [hw] using hkept
    exact ⟨g, hg, decide_eq_true ⟨hw, (hremovable g.subdir).resolve_left hstays⟩⟩

theorem not_orphan_subdir (job : JobId) : ¬orphan <:+ jobid_to_systemd_subdir job.text := by
  rintro ⟨front, hfront⟩
  exact orphan_ne_subdir front job.text hfront

theorem hasOrphan_resync (h : Inv cfg node steady groups) (hno : ¬HasOrphan groups) (jobid : List Char) {found : Found}
    (hremovable : ∀ n, Removable (found.removal n)) {n : Nat} (horphan : HasOrphan (resync groups jobid found n)) :
    resync_ends groups jobid found n .tasks = true := by
  unfold resync at horphan
  unfold resync_ends
  split at horphan
  · exact absurd horphan hno
  · rename_i hskip
    rw [Bool.eq_false_iff.2 hskip]
    exact (cleanup_ends_iff h _ (hremovable (n + 1))).2 horphan

/-- Such a removal raises nothing. -/
theorem Removable.ne_raises {removal : List Char → Removal} (hremovable : Removable removal) (subdir : List Char) :
    removal subdir ≠ .raises := by
  intro hraises
  rcases hremovable subdir with hremoved | htasks
  · rw [hremoved] at hraises
    cases hraises
  · rw [htasks] at hraises
    cases hraises

theorem not_cleanup_raises {local_jobs : List (List Char)} {removal : List Char → Removal} (hremovable : Removable removal) :
    cleanup_ends groups local_jobs removal .raises = false := by
  refine List.any_eq_false.2 fun g _ hends => ?_
  exact hremovable.ne_raises g.subdir (of_decide_eq_true hends).2

theorem not_delete_raises {jobid : List Char} {removal : List Char → Removal} (hremovable : Removable removal) :
    delete_ends groups jobid removal .raises = false :=
  not_delete_ends (hremovable.ne_raises (jobid_to_systemd_subdir jobid))

theorem not_resync_raises {jobid : List Char} {found : Found} (hremovable : ∀ n, Removable (found.removal n)) (n : Nat) :
    resync_ends groups jobid found n .raises = false := by
  rw [resync_ends, not_cleanup_raises (hremovable (n + 1)), Bool.and_false]

theorem hasOrphan_set_limits {groups : List Cgroup} {jobid : List Char} {a : Assigned}
    (horphan : HasOrphan (set_limits cfg node groups jobid a)) : HasOrphan groups := by
  obtain ⟨g, hg, hsuffix⟩ := horphan
  unfold set_limits at hg
  split at hg
  · exact ⟨g, hg, hsuffix⟩
  · obtain ⟨g', hg', rfl⟩ := List.mem_map.1 hg
    rw [subdir_set_limit] at hsuffix
    exact ⟨g', hg', hsuffix⟩

/-- An orphan after configuring a job is one that an attempt left. -/
theorem hasOrphan_configured (h : Inv cfg node steady groups) (hno : ¬HasOrphan groups)
    {assigned_resources : List (List Char × JobResources)} {jobid : List Char} {hostresc : Hostresc}
    {exclude_jobid : Option (List Char)} {found : Found} (hremovable : ∀ n, Removable (found.removal n))
    (horphan : HasOrphan (configured cfg node jobid
      (configure_job cfg node groups assigned_resources jobid hostresc exclude_jobid found))) :
    configure_ends cfg node groups assigned_resources jobid hostresc exclude_jobid found .tasks = true := by
  have hraises : resync_ends groups jobid found 0 .raises = false := not_resync_raises hremovable 0
  cases hattempt : attempt cfg node assigned_resources hostresc (found.suspended 0) exclude_jobid with
  | some a =>
    rw [configure_job, hattempt] at horphan
    exact absurd (hasOrphan_set_limits horphan) hno
  | none =>
    rw [configure_job, hattempt] at horphan
    rw [configure_ends, hattempt]
    simp only [hraises, Bool.false_eq_true, if_false] at horphan
    simp only [hraises, Bool.not_false, Bool.true_and]
    by_cases hfirst : HasOrphan (resync groups jobid found 0)
    · rw [hasOrphan_resync h hno jobid hremovable hfirst, Bool.true_or]
    · cases hattempt' : attempt cfg node assigned_resources hostresc (found.suspended 1) exclude_jobid with
      | some a =>
        rw [hattempt'] at horphan
        exact absurd (hasOrphan_set_limits horphan) hfirst
      | none =>
        rw [hattempt'] at horphan
        simp only [hasOrphan_resync (h.resync jobid found 0) hfirst jobid hremovable horphan, Bool.or_true]

theorem hasOrphan_create_job {job : JobId} (horphan : HasOrphan (create_job groups job.text)) : HasOrphan groups := by
  obtain ⟨g, hg, hsuffix⟩ := horphan
  unfold create_job at hg
  split at hg
  · exact ⟨g, hg, hsuffix⟩
  · rcases List.mem_append.1 hg with hg | hg
    · exact ⟨g, hg, hsuffix⟩
    · rw [List.mem_singleton.1 hg] at hsuffix
      exact absurd hsuffix (not_orphan_subdir job)

theorem hasOrphan_delete {jobid : List Char} {removal : List Char → Removal} (horphan : HasOrphan (delete groups jobid removal)) :
    HasOrphan groups := by
  obtain ⟨g, hg, hsuffix⟩ := horphan
  unfold delete at hg
  split at hg
  · exact ⟨g, List.mem_of_mem_filter hg, hsuffix⟩
  · exact ⟨g, hg, hsuffix⟩

/-- A new orphan comes from a removal that left tasks. -/
theorem hasOrphan_handle (h : Inv cfg node steady groups) (hno : ¬HasOrphan groups) (e : Event)
    (hremovable : ∀ n, Removable (e.found.removal n)) (horphan : HasOrphan (handle cfg node groups e)) :
    removal_ends cfg node groups e .tasks = true := by
  obtain ⟨assigned_resources, hread⟩ := Option.isSome_iff_exists.1 ((reads_iff h).2 hno)
  rw [handle, hread] at horphan
  rw [removal_ends, hread]
  cases e with
  | execjob_begin job hostresc found =>
    have hdelete : ¬HasOrphan (delete groups job.text (found.removal 0)) := fun hd => hno (hasOrphan_delete hd)
    have hraises : delete_ends groups job.text (found.removal 0) .raises = false := not_delete_raises (hremovable 0)
    dsimp only at horphan ⊢
    rw [begin] at horphan
    rw [begin_ends]
    simp only [hraises, Bool.false_eq_true, if_false] at horphan
    simp only [hraises, Bool.not_false, Bool.true_and]
    cases hread' : get_assigned_cgroup_resources (delete groups job.text (found.removal 0)) with
    | none =>
      rw [hread'] at horphan
      exact absurd horphan hdelete
    | some assigned_resources' =>
      rw [hread'] at horphan
      have hcreate : ¬HasOrphan (create_job (delete groups job.text (found.removal 0)) job.text) := fun hc =>
        hdelete (hasOrphan_create_job hc)
      have hremovable : ∀ n, Removable (found.removal n) := hremovable
      have hconfigured := hasOrphan_configured ((h.delete job.text (found.removal 0)).create_job job) hcreate hremovable horphan
      simp only [hconfigured, Bool.or_true]
  | execjob_end job found => exact absurd (hasOrphan_delete horphan) hno
  | execjob_resize job hostresc found => exact hasOrphan_configured h hno hremovable horphan
  | exechost_periodic job_list found => exact (cleanup_ends_iff h _ (hremovable 0)).2 horphan

end Orphans

/-! ## The node alone with the hook -/

/-- Only the hook takes the node offline: its file, the server's state and the comment agree. -/
structure Owned (hook_name : String) (h : Host) : Prop where
  offline : h.vnode.state.offline = h.offline_file
  comment : h.offline_file = true → h.vnode.comment = some (offline_msg hook_name)

section Owned
variable {hook_name : String} {cfg : Config} {node : Node} {h : Host} {out : Outside}

theorem groups_onEvent (e : Event) : (onEvent hook_name cfg node h e out).groups = handle cfg node h.groups e := rfl

theorem Owned.take_offline (hi : Owned hook_name h) (hfile : out.file = true) :
    Owned hook_name (take_offline hook_name h out) ∧ (take_offline hook_name h out).offline_file = true := by
  unfold CgroupHook.take_offline
  split
  · rename_i hskip
    refine ⟨hi, ?_⟩
    rcases hskip with hthere | hstate
    · exact hthere
    · rw [← hi.offline, hstate]
      rfl
  · exact ⟨⟨hfile.symm, fun _ => rfl⟩, hfile⟩

theorem Owned.bring_online (hi : Owned hook_name h) (hanswers : out.answers = true) (hfile : out.file = true) :
    Owned hook_name (bring_online hook_name h out) ∧ (bring_online hook_name h out).offline_file = false := by
  unfold CgroupHook.bring_online
  split
  · rename_i hthere
    rw [if_pos ⟨hanswers, hi.comment hthere⟩, hfile]
    exact ⟨⟨rfl, fun hfalse => absurd hfalse Bool.false_ne_true⟩, rfl⟩
  · rename_i hthere
    exact ⟨hi, Bool.eq_false_iff.2 hthere⟩

theorem onlines_cases {groups : List Cgroup} {e : Event} (h : onlines cfg node groups e = true) :
    (get_assigned_cgroup_resources groups).isSome = true ∧ removal_ends cfg node groups e .tasks = false := by
  cases e with
  | exechost_periodic job_list found =>
    rw [onlines, Bool.and_eq_true, Bool.and_eq_true, Bool.not_eq_true'] at h
    exact h.1
  | execjob_begin job hostresc found => exact absurd h Bool.false_ne_true
  | execjob_end job found => exact absurd h Bool.false_ne_true
  | execjob_resize job hostresc found => exact absurd h Bool.false_ne_true

/-- What an event does to the node: it goes offline, it comes back, or nothing changes. -/
theorem onEvent_cases (hook_name : String) (cfg : Config) (node : Node) (h : Host) (e : Event) (out : Outside) :
    (removal_ends cfg node h.groups e .tasks = true ∧ onlines cfg node h.groups e = false ∧
      onEvent hook_name cfg node h e out = { take_offline hook_name h out with groups := handle cfg node h.groups e }) ∨
    (removal_ends cfg node h.groups e .tasks = false ∧ onlines cfg node h.groups e = true ∧
      onEvent hook_name cfg node h e out = { bring_online hook_name h out with groups := handle cfg node h.groups e }) ∨
    (removal_ends cfg node h.groups e .tasks = false ∧ onlines cfg node h.groups e = false ∧
      onEvent hook_name cfg node h e out = { h with groups := handle cfg node h.groups e }) := by
  unfold onEvent
  cases htasks : removal_ends cfg node h.groups e .tasks with
  | true =>
    cases honlines : onlines cfg node h.groups e with
    | true => exact absurd ((onlines_cases honlines).2.symm.trans htasks) Bool.false_ne_true
    | false => exact .inl ⟨rfl, rfl, rfl⟩
  | false =>
    cases honlines : onlines cfg node h.groups e with
    | true => exact .inr (.inl ⟨rfl, rfl, rfl⟩)
    | false => exact .inr (.inr ⟨rfl, rfl, rfl⟩)

theorem Owned.groups (hi : Owned hook_name h) (groups : List Cgroup) : Owned hook_name { h with groups } :=
  ⟨hi.offline, hi.comment⟩

theorem Owned.onEvent (hi : Owned hook_name h) (e : Event) (hanswers : out.answers = true) (hfile : out.file = true) :
    Owned hook_name (onEvent hook_name cfg node h e out) := by
  obtain ⟨-, -, heq⟩ | ⟨-, -, heq⟩ | ⟨-, -, heq⟩ := onEvent_cases hook_name cfg node h e out
  · exact heq ▸ (hi.take_offline hfile).1.groups _
  · exact heq ▸ (hi.bring_online hanswers hfile).1.groups _
  · exact heq ▸ hi.groups _

end Owned

/-- A host with the hook alone, its cgroups and its file. -/
structure Managed (cfg : Config) (node : Node) (hook_name : String) (h : Host) : Prop where
  inv : Inv cfg node (fun _ => False) h.groups
  owned : Owned hook_name h
  orphan : HasOrphan h.groups → h.offline_file = true

section Managed
variable {hook_name : String} {cfg : Config} {node : Node} {h : Host} {out : Outside}

theorem Managed.onEvent (hi : Managed cfg node hook_name h) {e : Event} (horderly : Orderly (.event e out)) :
    Managed cfg node hook_name (onEvent hook_name cfg node h e out) := by
  obtain ⟨hremovable, hanswers, hfile⟩ := horderly
  refine ⟨hi.inv.handle fun _ hfalse => hfalse.elim, hi.owned.onEvent e hanswers hfile, fun horphan => ?_⟩
  -- Without an orphan before it the event has left tasks in one.
  have htasks : ¬HasOrphan h.groups → removal_ends cfg node h.groups e .tasks = true := fun hno =>
    hasOrphan_handle hi.inv hno e hremovable horphan
  obtain ⟨-, -, heq⟩ | ⟨hnot, honlines, -⟩ | ⟨hnot, -, heq⟩ := onEvent_cases hook_name cfg node h e out
  · rw [heq]
    exact (hi.owned.take_offline hfile).2
  · have hno := (reads_iff hi.inv).1 (onlines_cases honlines).1
    exact absurd (hnot.symm.trans (htasks hno)) Bool.false_ne_true
  · rw [heq]
    refine hi.orphan (by_contra fun hno => ?_)
    exact absurd (hnot.symm.trans (htasks hno)) Bool.false_ne_true

theorem Managed.hostStep (hi : Managed cfg node hook_name h) {s : Step} (horderly : Orderly s) :
    Managed cfg node hook_name (hostStep hook_name cfg node h s) := by
  cases s with
  | event e out => exact hi.onEvent horderly
  | server other => exact ⟨hi.inv, ⟨hi.owned.offline, hi.owned.comment⟩, hi.orphan⟩

theorem Managed.hostRun : ∀ (steps : List Step) {h : Host}, (∀ s ∈ steps, Orderly s) → Managed cfg node hook_name h →
    Managed cfg node hook_name (hostRun hook_name cfg node h steps)
  | [], _, _, hi => hi
  | s :: steps, _, horderly, hi =>
    Managed.hostRun steps (fun t ht => horderly t (List.mem_cons_of_mem s ht)) (hi.hostStep (horderly s List.mem_cons_self))

/-- After a periodic event the node is offline just when an orphan is left. -/
theorem Managed.periodic (hi : Managed cfg node hook_name h) {job_list : List (List Char)} {found : Found}
    (horderly : Orderly (.event (.exechost_periodic job_list found) out)) :
    let h' := CgroupHook.onEvent hook_name cfg node h (.exechost_periodic job_list found) out
    h'.vnode.state.offline = true ↔ HasOrphan h'.groups := by
  intro h'
  have hnext : Managed cfg node hook_name h' := hi.onEvent horderly
  obtain ⟨hremovable, hanswers, hwritten⟩ := horderly
  rw [hnext.owned.offline]
  refine ⟨fun hfile => ?_, hnext.orphan⟩
  rw [groups_onEvent, handle]
  cases hread : get_assigned_cgroup_resources h.groups with
  | none =>
    refine by_contra fun hno => ?_
    have hsome := (reads_iff hi.inv).2 hno
    rw [hread] at hsome
    exact absurd hsome Bool.false_ne_true
  | some assigned_resources =>
    refine (cleanup_ends_iff hi.inv _ (hremovable 0)).1 (by_contra fun hzero => ?_)
    have hnot : removal_ends cfg node h.groups (.exechost_periodic job_list found) .tasks = false := by
      rw [removal_ends, hread]
      exact Bool.eq_false_iff.2 hzero
    have hraises : removal_ends cfg node h.groups (.exechost_periodic job_list found) .raises = false := by
      rw [removal_ends, hread]
      exact not_cleanup_raises (hremovable 0)
    have honlines : onlines cfg node h.groups (.exechost_periodic job_list found) = true := by
      rw [onlines, hread, hnot, hraises]
      rfl
    obtain ⟨htasks, -⟩ | ⟨-, -, heq⟩ | ⟨-, hstays, -⟩ :=
      onEvent_cases hook_name cfg node h (.exechost_periodic job_list found) out
    · exact absurd (hnot.symm.trans htasks) Bool.false_ne_true
    · have hcleared : h'.offline_file = false :=
        (congrArg Host.offline_file heq).trans (hi.owned.bring_online hanswers hwritten).2
      exact absurd (hcleared.symm.trans hfile) Bool.false_ne_true
    · exact absurd (hstays.symm.trans honlines) Bool.false_ne_true

end Managed

/-- The node is offline with the comment. -/
structure Held (comment : String) (h : Host) : Prop where
  offline : h.vnode.state.offline = true
  comment : h.vnode.comment = some comment

/-- Tasks are left without a file of the hook, and the state is not just `ND_OFFLINE`. -/
def takes_over (cfg : Config) (node : Node) (h : Host) : Step → Bool
  | .event e _ => removal_ends cfg node h.groups e .tasks && (!h.offline_file && h.vnode.state.other)
  | .server _ => false

/-- Some event of the run takes the node over. -/
def taken_over (hook_name : String) (cfg : Config) (node : Node) : Host → List Step → Bool
  | _, [] => false
  | h, s :: steps => takes_over cfg node h s || taken_over hook_name cfg node (hostStep hook_name cfg node h s) steps

/-- The comment is the hook's, or there is none. -/
def Marked (hook_name : String) (h : Host) : Prop :=
  h.vnode.comment = some (offline_msg hook_name) ∨ h.vnode.comment = none

section Administrator
variable {hook_name : String} {cfg : Config} {node : Node} {comment : String} {h : Host}

theorem Held.of_vnode {h' : Host} (hheld : Held comment h) (hvnode : h'.vnode = h.vnode) : Held comment h' :=
  ⟨hvnode ▸ hheld.offline, hvnode ▸ hheld.comment⟩

theorem Held.bring_online (hheld : Held comment h) (hcomment : comment ≠ offline_msg hook_name) (out : Outside) :
    (bring_online hook_name h out).vnode = h.vnode := by
  have hother : ¬(out.answers = true ∧ h.vnode.comment = some (offline_msg hook_name)) := fun hsame =>
    hcomment (Option.some_inj.1 (hheld.comment.symm.trans hsame.2))
  unfold CgroupHook.bring_online
  rw [if_neg hother]
  split <;> rfl

/-- The state of a node that is offline is `ND_OFFLINE` where the server sets no other. -/
theorem Held.state_iff (hheld : Held comment h) : h.vnode.state = ND_OFFLINE ↔ h.vnode.state.other = false := by
  constructor
  · intro hstate
    rw [hstate]
    rfl
  · intro hother
    change (⟨h.vnode.state.offline, h.vnode.state.other⟩ : NodeState) = _
    rw [hheld.offline, hother]
    rfl

theorem Held.hostStep (hheld : Held comment h) (hcomment : comment ≠ offline_msg hook_name) {s : Step}
    (hs : takes_over cfg node h s = false) : Held comment (hostStep hook_name cfg node h s) := by
  cases s with
  | server other => exact ⟨hheld.offline, hheld.comment⟩
  | event e out =>
    obtain ⟨htasks, -, heq⟩ | ⟨-, -, heq⟩ | ⟨-, -, heq⟩ := onEvent_cases hook_name cfg node h e out
    · have hskip : h.offline_file = true ∨ h.vnode.state = ND_OFFLINE := by
        rw [takes_over, htasks, Bool.true_and, Bool.and_eq_false_iff, Bool.not_eq_false'] at hs
        exact hs.imp_right hheld.state_iff.2
      have hsame : take_offline hook_name h out = h := if_pos hskip
      refine hheld.of_vnode ?_
      rw [CgroupHook.hostStep, heq, hsame]
    · refine hheld.of_vnode ?_
      rw [CgroupHook.hostStep, heq]
      exact hheld.bring_online hcomment out
    · refine hheld.of_vnode ?_
      rw [CgroupHook.hostStep, heq]

theorem Held.marked_hostStep (hheld : Held comment h) {s : Step} (hs : takes_over cfg node h s = true) :
    Marked hook_name (CgroupHook.hostStep hook_name cfg node h s) := by
  cases s with
  | server other => exact absurd hs Bool.false_ne_true
  | event e out =>
    rw [takes_over, Bool.and_eq_true, Bool.and_eq_true, Bool.not_eq_true'] at hs
    obtain ⟨htasks, hfile, hother⟩ := hs
    have hclear : ¬(h.offline_file = true ∨ h.vnode.state = ND_OFFLINE) := by
      rintro (htrue | hstate)
      · exact absurd (hfile.symm.trans htrue) Bool.false_ne_true
      · exact absurd ((hheld.state_iff.1 hstate).symm.trans hother) Bool.false_ne_true
    obtain ⟨-, -, heq⟩ | ⟨hnot, -⟩ | ⟨hnot, -⟩ := onEvent_cases hook_name cfg node h e out
    · rw [CgroupHook.hostStep, heq, CgroupHook.take_offline, if_neg hclear]
      exact .inl rfl
    · exact absurd (hnot.symm.trans htasks) Bool.false_ne_true
    · exact absurd (hnot.symm.trans htasks) Bool.false_ne_true

theorem Marked.hostStep (hi : Marked hook_name h) (s : Step) : Marked hook_name (hostStep hook_name cfg node h s) := by
  cases s with
  | server other => exact hi
  | event e out =>
    obtain ⟨-, -, heq⟩ | ⟨-, -, heq⟩ | ⟨-, -, heq⟩ := onEvent_cases hook_name cfg node h e out <;>
      rw [CgroupHook.hostStep, heq]
    · unfold CgroupHook.take_offline
      split
      · exact hi
      · exact .inl rfl
    · unfold CgroupHook.bring_online
      split
      · dsimp only [Marked]
        split
        · exact .inr rfl
        · exact hi
      · exact hi
    · exact hi

theorem Marked.hostRun : ∀ (steps : List Step) {h : Host}, Marked hook_name h →
    Marked hook_name (hostRun hook_name cfg node h steps)
  | [], _, hi => hi
  | s :: steps, _, hi => Marked.hostRun steps (hi.hostStep s)

/-- The node stays as the administrator left it until the hook takes it over,
and the comment is not the administrator's from then on. -/
theorem Held.hostRun (hcomment : comment ≠ offline_msg hook_name) : ∀ (steps : List Step) {h : Host}, Held comment h →
    (taken_over hook_name cfg node h steps = false → Held comment (hostRun hook_name cfg node h steps)) ∧
      (taken_over hook_name cfg node h steps = true → Marked hook_name (hostRun hook_name cfg node h steps))
  | [], _, hheld => ⟨fun _ => hheld, fun hfalse => absurd hfalse Bool.false_ne_true⟩
  | s :: steps, h, hheld => by
    rw [taken_over]
    cases hs : takes_over cfg node h s with
    | true => exact ⟨fun hfalse => absurd hfalse.symm Bool.false_ne_true, fun _ => (hheld.marked_hostStep hs).hostRun steps⟩
    | false => exact Held.hostRun hcomment steps (hheld.hostStep hcomment hs)

end Administrator

end AzHop.CgroupHook
