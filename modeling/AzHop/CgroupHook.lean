import AzHop.CgroupCpus
import AzHop.CgroupNames
import AzHop.Lib.NumberList
/-!
# The PBS cgroups hook on a node

The cpuset cgroups of the jobs on a node, and what each event of
`pbs_cgroups.PY` does to them. Everything the hook knows about other jobs it
reads from the cgroups, at the start of each event: their names and the texts
of `cpuset.cpus` and `cpuset.mems`. The subsystem `cpuset` is enabled, those
for devices and memory are not (`pbs_cgroups.CF`); the directories that a job has
for accounting, where no limit is set, are left out. A suspended job is one
`job_is_suspended` says is.

`cpus_exclusive` is about every history of events, `orphan_blocks` about what
happens once a cgroup could not be removed.
-/
namespace AzHop.CgroupHook
open CgroupCpus CgroupNames Lib.NumberList

/-- A cgroup below the parent. -/
structure Cgroup where
  subdir : List Char
  cpus : List Char
  mems : List Char
  deriving DecidableEq

/-- A job's identifier: a byte string that starts with the sequence number. -/
structure JobId where
  text : List Char
  bytes : Bytes text
  digit : (text.head?.map Char.isDigit) = some true

/-- Matched by `_systemd_subdir_wildcard()`. -/
def wildcard (subdir : List Char) : Bool :=
  ( cgroup_prefix ++ ['-']).isPrefixOf subdir && ((subdir.drop ( cgroup_prefix.length + 1)).head?.map Char.isDigit).getD false

/-- Matched by `_systemd_subdir_wildcard(extension='orphan')`. -/
def orphan_wildcard (subdir : List Char) : Bool := wildcard subdir && orphan.isSuffixOf subdir

/-! ## The events -/

/-- Reading a job's cgroup; `none` is an exception. -/
def read_cgroup (groups : List Cgroup) (g : Cgroup) : Option (List Char × JobResources) := do
  let jobid ← systemd_subdir_to_jobid g.subdir
  -- the path is made from the job, not from the directory
  let file ← groups.find? (·.subdir = jobid_to_systemd_subdir jobid)
  let cpus ← expand file.cpus
  let mems ← expand file.mems
  return (jobid, ⟨cpus, mems, none, none⟩)

/-- `_get_assigned_cgroup_resources`. -/
def get_assigned_cgroup_resources (groups : List Cgroup) : Option (List (List Char × JobResources)) :=
  (groups.filter fun g => wildcard g.subdir).mapM (read_cgroup groups)

/-- How `_remove_cgroup` ends. -/
inductive Removal
  | removed
  /-- No task is left, and `os.rmdir` fails; or the hook does not come to the cgroup. -/
  | stays
  /-- Tasks are left. -/
  | tasks
  /-- Tasks are left, and without the offline file the server does not say what
  state the node is in; or `os.rmdir` fails with anything but an `OSError`. -/
  | raises
  deriving DecidableEq

/-- What an event finds on the node. -/
structure Found where
  /-- Whether `job_is_suspended`, at each attempt. -/
  suspended : Nat → List Char → Bool
  /-- What becomes of a cgroup that is to be removed: at first, and after each attempt. -/
  removal : Nat → List Char → Removal
  /-- What `gather_jobs_on_node` returns, empty if it fails: after each attempt, or at first. -/
  joblist : Nat → List (List Char)

/-- `delete`. -/
def delete (groups : List Cgroup) (jobid : List Char) (removal : List Char → Removal) : List Cgroup :=
  if groups.any fun g => wildcard g.subdir ∧ systemd_subdir_to_jobid g.subdir = some jobid then
    groups.filter fun g => ¬(g.subdir = jobid_to_systemd_subdir jobid ∧ removal g.subdir = .removed)
  else groups

/-- `delete` calls `_remove_cgroup`, which ends so. -/
def delete_ends (groups : List Cgroup) (jobid : List Char) (removal : List Char → Removal) (r : Removal) : Bool :=
  (groups.any fun g => wildcard g.subdir ∧ systemd_subdir_to_jobid g.subdir = some jobid) &&
    groups.any fun g => g.subdir = jobid_to_systemd_subdir jobid ∧ removal g.subdir = r

/-- `create_job`. -/
def create_job (groups : List Cgroup) (jobid : List Char) : List Cgroup :=
  if groups.any (·.subdir = jobid_to_systemd_subdir jobid) then groups
  else groups ++ [⟨jobid_to_systemd_subdir jobid, [], []⟩]

/-- A cgroup that belongs to none of the jobs gets the suffix, unless there is such a directory already. -/
def rename_orphan (groups : List Cgroup) (local_jobs : List (List Char)) (g : Cgroup) : Cgroup :=
  match systemd_subdir_to_jobid g.subdir with
  | none => g
  | some jobid =>
    if wildcard g.subdir = false ∨ local_jobs.contains jobid ∨ orphan <:+ jobid ∨ groups.any (·.subdir = g.subdir ++ orphan) then g
    else { g with subdir := g.subdir ++ orphan }

/-- `cleanup_orphans`. An exception at one of the orphans leaves those after it. -/
def cleanup_orphans (groups : List Cgroup) (local_jobs : List (List Char)) (removal : List Char → Removal) : List Cgroup :=
  (groups.map (rename_orphan groups local_jobs)).filter fun g => ¬(orphan_wildcard g.subdir ∧ removal g.subdir = .removed)

/-- `cleanup_orphans` calls `_remove_cgroup`, which ends so. -/
def cleanup_ends (groups : List Cgroup) (local_jobs : List (List Char)) (removal : List Char → Removal) (r : Removal) : Bool :=
  (groups.map (rename_orphan groups local_jobs)).any fun g => orphan_wildcard g.subdir ∧ removal g.subdir = r

/-- What the kernel shows of a list that was written to a file. -/
def written (text old : List Char) : List Char :=
  match expand text with
  | some l => print (sorted l.dedup)
  | none => old

/-- What is written to `cpuset.mems`; without memory fences it is copied from the parent. -/
def fenced (cfg : Config) (node : Node) (a : Assigned) : List Nat :=
  if cfg.mem_fences then a.mems else node.numa_nodes.map Prod.fst

/-- `set_limit` of `cpuset.cpus` and `cpuset.mems`. -/
def set_limit (cfg : Config) (node : Node) (jobid : List Char) (a : Assigned) (g : Cgroup) : Cgroup :=
  if g.subdir = jobid_to_systemd_subdir jobid then
    { g with cpus := written (join a.cpus) g.cpus, mems := written (join (fenced cfg node a)) g.mems }
  else g

/-- The limits of a job; without CPUs `set_limit` raises. -/
def set_limits (cfg : Config) (node : Node) (groups : List Cgroup) (jobid : List Char) (a : Assigned) : List Cgroup :=
  if a.cpus = [] then groups else groups.map (set_limit cfg node jobid a)

/-- `hostresc['ncpus']` is at least one. -/
def limited (r : Hostresc) : Hostresc :=
  { r with request := { r.request with ncpus := some (max 1 (r.request.ncpus.getD 1)) } }

/-- One of the two attempts. -/
def attempt (cfg : Config) (node : Node) (assigned_resources : List (List Char × JobResources)) (hostresc : Hostresc)
    (suspended : List Char → Bool) (exclude_jobid : Option (List Char)) : Option Assigned :=
  assign_job cfg node assigned_resources (limited hostresc)
    (available_node_resources node assigned_resources suspended exclude_jobid)

/-- The list has jobs, but not this one: nothing is cleaned up. -/
def incomplete (joblist : List (List Char)) (jobid : List Char) : Bool := !joblist.isEmpty && !joblist.contains jobid

/-- After the failed attempt `n`. -/
def resync (groups : List Cgroup) (jobid : List Char) (found : Found) (n : Nat) : List Cgroup :=
  if incomplete (found.joblist n) jobid then groups
  else cleanup_orphans groups (found.joblist n) (found.removal (n + 1))

def resync_ends (groups : List Cgroup) (jobid : List Char) (found : Found) (n : Nat) (r : Removal) : Bool :=
  !incomplete (found.joblist n) jobid && cleanup_ends groups (found.joblist n) (found.removal (n + 1)) r

/-- `configure_job`. The second attempt uses the resources read before the first. -/
def configure_job (cfg : Config) (node : Node) (groups : List Cgroup) (assigned_resources : List (List Char × JobResources))
    (jobid : List Char) (hostresc : Hostresc) (exclude_jobid : Option (List Char)) (found : Found) :
    List Cgroup × Option Assigned :=
  match attempt cfg node assigned_resources hostresc (found.suspended 0) exclude_jobid with
  | some a => (groups, some a)
  | none =>
    let cleaned := resync groups jobid found 0
    if resync_ends groups jobid found 0 .raises then (cleaned, none)
    else match attempt cfg node assigned_resources hostresc (found.suspended 1) exclude_jobid with
      | some a => (cleaned, some a)
      | none => (resync cleaned jobid found 1, none)

def configured (cfg : Config) (node : Node) (jobid : List Char) : List Cgroup × Option Assigned → List Cgroup
  | (groups, some a) => set_limits cfg node groups jobid a
  | (groups, none) => groups

inductive Event
  /-- `execjob_begin`. -/
  | execjob_begin (job : JobId) (hostresc : Hostresc) (found : Found)
  /-- `execjob_epilogue` and `execjob_end`. -/
  | execjob_end (job : JobId) (found : Found)
  | execjob_resize (job : JobId) (hostresc : Hostresc) (found : Found)
  | exechost_periodic (job_list : List (List Char)) (found : Found)

def Event.found : Event → Found
  | .execjob_begin _ _ found | .execjob_end _ found | .execjob_resize _ _ found | .exechost_periodic _ found => found

/-- `_execjob_begin_handler`. -/
def begin (cfg : Config) (node : Node) (groups : List Cgroup) (job : JobId) (hostresc : Hostresc) (found : Found) :
    List Cgroup :=
  let deleted := delete groups job.text (found.removal 0)
  if delete_ends groups job.text (found.removal 0) .raises then deleted
  else match get_assigned_cgroup_resources deleted with
    | none => deleted
    | some assigned_resources =>
      configured cfg node job.text
        (configure_job cfg node (create_job deleted job.text) assigned_resources job.text hostresc none found)

/-- The cgroups after an event. Each event starts with `CgroupUtils`, which reads the cgroups. -/
def handle (cfg : Config) (node : Node) (groups : List Cgroup) (e : Event) : List Cgroup :=
  match get_assigned_cgroup_resources groups with
  | none => groups
  | some assigned_resources =>
    match e with
    | .execjob_begin job hostresc found => begin cfg node groups job hostresc found
    | .execjob_end job found => delete groups job.text (found.removal 0)
    | .execjob_resize job hostresc found =>
      configured cfg node job.text
        (configure_job cfg node groups assigned_resources job.text hostresc (some job.text) found)
    | .exechost_periodic job_list found => cleanup_orphans groups (job_list ++ found.joblist 0) (found.removal 0)

/-- Events one after the other. -/
def run (cfg : Config) (node : Node) (groups : List Cgroup) (es : List Event) : List Cgroup :=
  es.foldl (handle cfg node) groups

/-! ## Names -/

/-- The suffix of a cgroup that was orphaned `n` times. -/
def orphans : Nat → List Char
  | 0 => []
  | n + 1 => orphans n ++ orphan

/-- The cgroup was made for the job. -/
def Owner (g : Cgroup) (job : JobId) : Prop := ∃ n, g.subdir = jobid_to_systemd_subdir job.text ++ orphans n

/-- The character after the prefix. -/
def initial (subdir : List Char) : Option Char := (subdir.drop ( cgroup_prefix.length + 1)).head?

theorem initial_subdir (text tail : List Char) (h : systemd_escape text ≠ []) :
    initial (jobid_to_systemd_subdir text ++ tail) = (systemd_escape text).head? := by
  obtain ⟨c, cs, hcs⟩ := List.exists_cons_of_ne_nil h
  rw [jobid_to_systemd_subdir, hcs]
  rfl

theorem JobId.initial (job : JobId) (tail : List Char) :
    (CgroupHook.initial (jobid_to_systemd_subdir job.text ++ tail)).map Char.isDigit = some true := by
  have hdigit := job.digit
  cases htext : job.text with
  | nil => simp [htext] at hdigit
  | cons c cs =>
    have hc : c.isDigit = true := by simpa [htext] using hdigit
    have hdot : c ≠ '.' := by rintro rfl; cases hc
    have hplain : escape_char c = [c] := by simp [escape_char, Char.isAlphanum, hc]
    have hescape : systemd_escape (c :: cs) = c :: cs.flatMap escape_char := by
      rw [systemd_escape, if_neg hdot, hplain]
      rfl
    rw [initial_subdir _ _ (by simp [hescape]), hescape]
    simp [hc]

theorem Owner.wildcard {g : Cgroup} {job : JobId} (h : Owner g job) : wildcard g.subdir = true := by
  obtain ⟨n, hn⟩ := h
  have hlead : ( cgroup_prefix ++ ['-']).isPrefixOf g.subdir = true := by
    rw [hn, jobid_to_systemd_subdir, List.isPrefixOf_iff_prefix]
    exact ⟨systemd_escape job.text ++ ".slice".toList ++ orphans n, by simp⟩
  have hdigit := job.initial (orphans n)
  rw [← hn] at hdigit
  simp only [initial] at hdigit
  rw [CgroupHook.wildcard, hlead, hdigit]
  rfl

theorem owner_unique {j k : JobId} : ∀ {n m : Nat},
    jobid_to_systemd_subdir j.text ++ orphans n = jobid_to_systemd_subdir k.text ++ orphans m → j.text = k.text := by
  intro n
  induction n with
  | zero =>
    intro m h
    cases m with
    | zero =>
      simp only [orphans, List.append_nil] at h
      exact jobid_to_systemd_subdir_inj j.bytes k.bytes h
    | succ m =>
      simp only [orphans, List.append_nil, ← List.append_assoc] at h
      exact absurd h.symm (orphan_ne_subdir _ _)
  | succ n ih =>
    intro m h
    cases m with
    | zero =>
      simp only [orphans, List.append_nil, ← List.append_assoc] at h
      exact absurd h (orphan_ne_subdir _ _)
    | succ m =>
      simp only [orphans, ← List.append_assoc] at h
      exact ih (List.append_cancel_right h)

/-- The name of an orphan is read as it is, from its first letter on. -/
theorem jobid_of_orphan {subdir jobid : List Char} (hlead : cgroup_prefix <+: subdir)
    (h : systemd_subdir_to_jobid (subdir ++ orphan) = some jobid) : jobid.head? = some 'p' := by
  obtain ⟨rest, rfl⟩ := hlead
  have hno : ¬("slice".toList <:+ ( cgroup_prefix ++ rest ++ orphan).drop ( cgroup_prefix.length + 1)) := by
    intro hsuffix
    obtain ⟨front, hfront⟩ := hsuffix.trans (List.drop_suffix _ _)
    have hlast := congrArg List.getLast? hfront
    rw [List.getLast?_append, List.getLast?_append] at hlast
    cases hlast
  rw [systemd_subdir_to_jobid, if_neg fun hc => hno hc.1] at h
  have hp : cgroup_prefix ++ rest ++ orphan = 'p' :: ("bspro".toList ++ rest ++ orphan) := rfl
  rw [hp, unescape_plain (by decide)] at h
  obtain ⟨tail, -, rfl⟩ := Option.map_eq_some_iff.1 h
  rfl

/-! ## What is read -/

/-- The processors of a directory. -/
def cpusOf (g : Cgroup) : List Nat := (expand g.cpus).getD []

/-- The sockets of a directory. -/
def memsOf (g : Cgroup) : List Nat := (expand g.mems).getD []

/-- What a cgroup holds is part of the node. -/
structure Tidy (cfg : Config) (node : Node) (g : Cgroup) : Prop where
  cpus : expand g.cpus = some (cpusOf g)
  mems : expand g.mems = some (memsOf g)
  held : ∀ c ∈ cpusOf g, (∃ n ∈ node.numa_nodes, n.1 ∈ memsOf g ∧ c ∈ n.2.cpus) ∧
    (cfg.use_hyperthreads = false → c ∉ node.cpuinfo.hyperthreads)

/-- The jobs of the cgroups, and no CPU in two cgroups of jobs that were never
found suspended. -/
structure Inv (cfg : Config) (node : Node) (steady : List Char → Prop) (groups : List Cgroup) : Prop where
  owner : ∀ g ∈ groups, ∃ job, Owner g job
  nodup : (groups.map Cgroup.subdir).Nodup
  tidy : ∀ g ∈ groups, Tidy cfg node g
  apart : ∀ g ∈ groups, ∀ h ∈ groups, ∀ j k, Owner g j → Owner h k → steady j.text → steady k.text →
    g.subdir ≠ h.subdir → (cpusOf g).Disjoint (cpusOf h)

/-- What the hook reads of a directory; devices and memory are not accounted. -/
def resources (g : Cgroup) : JobResources := ⟨cpusOf g, memsOf g, none, none⟩

section Groups
variable {cfg : Config} {node : Node} {steady : List Char → Prop} {groups : List Cgroup}

theorem Inv.eq_of_subdir (h : Inv cfg node steady groups) {g g' : Cgroup} (hg : g ∈ groups) (hg' : g' ∈ groups)
    (hsubdir : g.subdir = g'.subdir) : g = g' :=
  List.inj_on_of_nodup_map h.nodup hg hg' hsubdir

theorem Inv.read_job (h : Inv cfg node steady groups) {g : Cgroup} (hg : g ∈ groups) {job : JobId}
    (hjob : g.subdir = jobid_to_systemd_subdir job.text) : read_cgroup groups g = some (job.text, resources g) := by
  have hfind : groups.find? (fun f => decide (f.subdir = jobid_to_systemd_subdir job.text)) = some g := by
    cases hfound : groups.find? (fun f => decide (f.subdir = jobid_to_systemd_subdir job.text)) with
    | none => exact absurd (List.find?_eq_none.1 hfound g hg) (by simp [hjob])
    | some f =>
      have hsame : f.subdir = jobid_to_systemd_subdir job.text := by simpa using List.find?_some hfound
      rw [h.eq_of_subdir (List.mem_of_find?_eq_some hfound) hg (hsame.trans hjob.symm)]
  have hread : systemd_subdir_to_jobid g.subdir = some job.text := by rw [hjob, jobid_of_subdir job.bytes]
  simp [read_cgroup, hread, hfind, (h.tidy g hg).cpus, (h.tidy g hg).mems, resources]

/-- No directory has the name that is made of an orphan's. -/
theorem Inv.read_orphan (h : Inv cfg node steady groups) {g : Cgroup} {job : JobId} {n : Nat}
    (hg : g.subdir = jobid_to_systemd_subdir job.text ++ orphans (n + 1)) : read_cgroup groups g = none := by
  unfold read_cgroup
  cases hjobid : systemd_subdir_to_jobid g.subdir with
  | none => rfl
  | some jobid =>
    have hhead : jobid.head? = some 'p' := by
      rw [hg, orphans, ← List.append_assoc] at hjobid
      refine jobid_of_orphan ?_ hjobid
      rw [jobid_to_systemd_subdir]
      exact ⟨'-' :: systemd_escape job.text ++ ".slice".toList ++ orphans n, by simp⟩
    have hmissing : groups.find? (fun f => decide (f.subdir = jobid_to_systemd_subdir jobid)) = none := by
      rw [List.find?_eq_none]
      intro f hf hsame
      have hsame : f.subdir = jobid_to_systemd_subdir jobid := by simpa using hsame
      obtain ⟨k, m, hk⟩ := h.owner f hf
      have hdigit := k.initial (orphans m)
      obtain ⟨c, cs, rfl⟩ : ∃ c cs, jobid = c :: cs := by
        cases jobid with
        | nil => cases hhead
        | cons c cs => exact ⟨c, cs, rfl⟩
      obtain rfl : c = 'p' := Option.some.inj hhead
      have hinitial : initial (jobid_to_systemd_subdir ('p' :: cs) ++ []) = some 'p' :=
        initial_subdir ('p' :: cs) [] (by simp [systemd_escape, escape_char])
      rw [← hk, hsame, ← List.append_nil (jobid_to_systemd_subdir ('p' :: cs)), hinitial] at hdigit
      cases hdigit
    simp [hmissing]

theorem Inv.filter_wildcard (h : Inv cfg node steady groups) : (groups.filter fun g => wildcard g.subdir) = groups := by
  rw [List.filter_eq_self]
  intro g hg
  obtain ⟨job, hjob⟩ := h.owner g hg
  exact hjob.wildcard

/-- When the cgroups can be read, they are all of jobs, and what is read of
each is what it holds. -/
theorem Inv.of_read (h : Inv cfg node steady groups) {assigned_resources : List (List Char × JobResources)}
    (hread : get_assigned_cgroup_resources groups = some assigned_resources) :
    (∀ g ∈ groups, ∃ job : JobId, g.subdir = jobid_to_systemd_subdir job.text ∧
      (job.text, resources g) ∈ assigned_resources) ∧
    ∀ r ∈ assigned_resources, ∃ g ∈ groups, ∃ job : JobId, g.subdir = jobid_to_systemd_subdir job.text ∧
      r = (job.text, resources g) := by
  unfold get_assigned_cgroup_resources at hread
  rw [h.filter_wildcard] at hread
  have hall : ∀ g ∈ groups, ∃ job : JobId, g.subdir = jobid_to_systemd_subdir job.text := by
    intro g hg
    obtain ⟨job, n, hn⟩ := h.owner g hg
    cases n with
    | zero => exact ⟨job, by simpa [orphans] using hn⟩
    | succ n =>
      obtain ⟨r, hr⟩ := Lib.Objects.exists_of_mapM hread g hg
      rw [h.read_orphan hn] at hr
      cases hr
  constructor
  · intro g hg
    obtain ⟨job, hjob⟩ := hall g hg
    exact ⟨job, hjob, (Lib.Objects.mem_mapM_iff hread _).2 ⟨g, hg, h.read_job hg hjob⟩⟩
  · intro r hr
    obtain ⟨g, hg, hgr⟩ := (Lib.Objects.mem_mapM_iff hread r).1 hr
    obtain ⟨job, hjob⟩ := hall g hg
    rw [h.read_job hg hjob] at hgr
    exact ⟨g, hg, job, hjob, (Option.some.inj hgr).symm⟩

theorem cpuset_mems_of_read {assigned_resources : List (List Char × JobResources)}
    (hread : get_assigned_cgroup_resources groups = some assigned_resources) :
    ∀ r ∈ assigned_resources, r.2.cpuset_mems = none := by
  intro r hr
  obtain ⟨g, -, hg⟩ := (Lib.Objects.mem_mapM_iff hread r).1 hr
  unfold read_cgroup at hg
  obtain ⟨jobid, -, hg⟩ := Option.bind_eq_some_iff.1 hg
  obtain ⟨file, -, hg⟩ := Option.bind_eq_some_iff.1 hg
  obtain ⟨cpus, -, hg⟩ := Option.bind_eq_some_iff.1 hg
  obtain ⟨mems, -, hg⟩ := Option.bind_eq_some_iff.1 hg
  cases hg
  rfl

/-! ## What an allocation takes -/

/-- The CPUs of an assignment are on the node, and no job that was counted has them. -/
theorem Inv.attempt_spec (h : Inv cfg node steady groups)
    {assigned_resources : List (List Char × JobResources)}
    (hread : get_assigned_cgroup_resources groups = some assigned_resources) {hostresc : Hostresc}
    {suspended : List Char → Bool} {exclude_jobid : Option (List Char)} {a : Assigned}
    (ha : attempt cfg node assigned_resources hostresc suspended exclude_jobid = some a) :
    (∀ c ∈ a.cpus, (∃ n ∈ node.numa_nodes, n.1 ∈ a.mems ∧ c ∈ n.2.cpus) ∧
      (cfg.use_hyperthreads = false → c ∉ node.cpuinfo.hyperthreads)) ∧
    ∀ g ∈ groups, ∀ job : JobId, g.subdir = jobid_to_systemd_subdir job.text → some job.text ≠ exclude_jobid →
      suspended job.text = false → a.cpus.Disjoint (cpusOf g) := by
  obtain ⟨-, hfits⟩ := assign_job_spec (apart_available node assigned_resources suspended exclude_jobid) ha
  constructor
  · intro c hc
    obtain ⟨⟨e, he, hmems, hce⟩, hhyper⟩ := hfits c hc
    obtain ⟨⟨n, hn, hcn⟩, -⟩ := mem_available he hce
    exact ⟨⟨(e.1, n), hn, hmems, hcn⟩, hhyper⟩
  · intro g hg job hjob hexclude hrunning c hc hcg
    obtain ⟨⟨e, he, -, hce⟩, -⟩ := hfits c hc
    obtain ⟨⟨n, hn, hcn⟩, hothers⟩ := mem_available he hce
    obtain ⟨k, hk, hentry⟩ := (h.of_read hread).1 g hg
    have hsame : k.text = job.text := jobid_to_systemd_subdir_inj k.bytes job.bytes (hk.symm.trans hjob)
    rw [hsame] at hentry
    have hholding : (job.text, resources g) ∈ holding assigned_resources suspended exclude_jobid := by
      rw [holding, List.mem_filter, decide_eq_true_eq]
      exact ⟨hentry, hexclude, hrunning⟩
    -- the CPU is on one socket only, which is in the cgroup's `cpuset.mems`
    obtain ⟨⟨m, hm, hmems, hcm⟩, -⟩ := (h.tidy g hg).held c hcg
    have hsocket : e.1 = m.1 := congrArg Prod.fst (socket_unique hn hm hcn hcm)
    have hhas : (resources g).has e.1 c = true := by simp [JobResources.has, resources, hsocket, hmems, hcg]
    rw [hothers _ hholding] at hhas
    cases hhas

/-! ## What the operations keep -/

theorem Inv.filter (h : Inv cfg node steady groups) (p : Cgroup → Bool) : Inv cfg node steady (groups.filter p) where
  owner g hg := h.owner g (List.mem_of_mem_filter hg)
  nodup := h.nodup.sublist (List.filter_sublist.map _)
  tidy g hg := h.tidy g (List.mem_of_mem_filter hg)
  apart g hg g' hg' := h.apart g (List.mem_of_mem_filter hg) g' (List.mem_of_mem_filter hg')

theorem Inv.delete (h : Inv cfg node steady groups) (jobid : List Char) (removal : List Char → Removal) :
    Inv cfg node steady (delete groups jobid removal) := by
  unfold CgroupHook.delete
  split_ifs
  · exact h.filter _
  · exact h

theorem expand_nil : expand [] = some [] := rfl

theorem Inv.create_job (h : Inv cfg node steady groups) (job : JobId) :
    Inv cfg node steady (create_job groups job.text) := by
  unfold CgroupHook.create_job
  split_ifs with hthere
  · exact h
  · have hnew : ∀ g ∈ groups, g.subdir ≠ jobid_to_systemd_subdir job.text := by
      intro g hg hsame
      exact hthere (List.any_eq_true.2 ⟨g, hg, by simpa using hsame⟩)
    have hcases : ∀ g ∈ groups ++ [⟨jobid_to_systemd_subdir job.text, [], []⟩],
        g ∈ groups ∨ g = ⟨jobid_to_systemd_subdir job.text, [], []⟩ := by simp
    have hempty : cpusOf ⟨jobid_to_systemd_subdir job.text, [], []⟩ = [] := rfl
    refine ⟨?_, ?_, ?_, ?_⟩
    · intro g hg
      rcases hcases g hg with hg | rfl
      · exact h.owner g hg
      · exact ⟨job, 0, by simp [orphans]⟩
    · rw [List.map_append, List.nodup_append]
      refine ⟨h.nodup, List.nodup_singleton _, ?_⟩
      simpa using hnew
    · intro g hg
      rcases hcases g hg with hg | rfl
      · exact h.tidy g hg
      · exact ⟨expand_nil, expand_nil, by simp [hempty]⟩
    · intro g hg g' hg' j k hj hk hsj hsk hne
      rcases hcases g hg with hg | rfl
      · rcases hcases g' hg' with hg' | rfl
        · exact h.apart g hg g' hg' j k hj hk hsj hsk hne
        · exact List.disjoint_nil_right _
      · exact List.disjoint_nil_left _

/-- A change of names that only adds the suffix. -/
structure Renames (groups : List Cgroup) (f : Cgroup → Cgroup) : Prop where
  cpus : ∀ g, (f g).cpus = g.cpus
  mems : ∀ g, (f g).mems = g.mems
  subdir : ∀ g ∈ groups, (f g).subdir = g.subdir ∨ (f g).subdir = g.subdir ++ orphan
  inj : ∀ g ∈ groups, ∀ g' ∈ groups, (f g).subdir = (f g').subdir → g.subdir = g'.subdir

theorem renames_id (groups : List Cgroup) : Renames groups id :=
  ⟨fun _ => rfl, fun _ => rfl, fun _ _ => .inl rfl, fun _ _ _ _ => id⟩

theorem rename_orphan_cases (groups : List Cgroup) (local_jobs : List (List Char)) (g : Cgroup) :
    rename_orphan groups local_jobs g = g ∨
      (rename_orphan groups local_jobs g = { g with subdir := g.subdir ++ orphan } ∧
        ∀ f ∈ groups, f.subdir ≠ g.subdir ++ orphan) := by
  unfold rename_orphan
  split
  · exact .inl rfl
  · split_ifs with hkeep
    · exact .inl rfl
    · refine .inr ⟨rfl, fun f hf hsame => hkeep (.inr (.inr (.inr ?_)))⟩
      exact List.any_eq_true.2 ⟨f, hf, by simpa using hsame⟩

theorem renames_orphans (groups : List Cgroup) (local_jobs : List (List Char)) :
    Renames groups (rename_orphan groups local_jobs) where
  cpus g := by rcases rename_orphan_cases groups local_jobs g with h | ⟨h, -⟩ <;> rw [h]
  mems g := by rcases rename_orphan_cases groups local_jobs g with h | ⟨h, -⟩ <;> rw [h]
  subdir g _ := by
    rcases rename_orphan_cases groups local_jobs g with h | ⟨h, -⟩
    · exact .inl (by rw [h])
    · exact .inr (by rw [h])
  inj g hg g' hg' hsame := by
    rcases rename_orphan_cases groups local_jobs g with h | ⟨h, hfree⟩ <;>
      rcases rename_orphan_cases groups local_jobs g' with h' | ⟨h', hfree'⟩ <;> rw [h, h'] at hsame
    · exact hsame
    · exact absurd hsame (hfree' g hg)
    · exact absurd hsame.symm (hfree g' hg')
    · exact List.append_cancel_right hsame

theorem cpusOf_rename {f : Cgroup → Cgroup} (hf : Renames groups f) (g : Cgroup) : cpusOf (f g) = cpusOf g := by
  rw [cpusOf, cpusOf, hf.cpus]

theorem memsOf_rename {f : Cgroup → Cgroup} (hf : Renames groups f) (g : Cgroup) : memsOf (f g) = memsOf g := by
  rw [memsOf, memsOf, hf.mems]

/-- The owner of a renamed cgroup is the one it had. -/
theorem owner_of_rename (h : Inv cfg node steady groups) {f : Cgroup → Cgroup} (hf : Renames groups f) {g : Cgroup}
    (hg : g ∈ groups) {job : JobId} (hjob : Owner (f g) job) : ∃ k, Owner g k ∧ k.text = job.text := by
  obtain ⟨n, hn⟩ := hjob
  obtain ⟨k, m, hm⟩ := h.owner g hg
  refine ⟨k, ⟨m, hm⟩, ?_⟩
  rcases hf.subdir g hg with hsame | horphan
  · rw [hsame, hm] at hn
    exact owner_unique hn
  · rw [horphan, hm, List.append_assoc] at hn
    exact owner_unique (n := m + 1) hn

theorem Inv.rename (h : Inv cfg node steady groups) {f : Cgroup → Cgroup} (hf : Renames groups f) :
    Inv cfg node steady (groups.map f) where
  owner := by
    intro g' hg'
    obtain ⟨g, hg, rfl⟩ := List.mem_map.1 hg'
    obtain ⟨job, n, hn⟩ := h.owner g hg
    rcases hf.subdir g hg with hsame | horphan
    · exact ⟨job, n, hsame.trans hn⟩
    · exact ⟨job, n + 1, by rw [horphan, hn, orphans, List.append_assoc]⟩
  nodup := by
    rw [List.map_map]
    apply List.Nodup.map_on _ h.nodup.of_map
    intro g hg g' hg' hsame
    exact h.eq_of_subdir hg hg' (hf.inj g hg g' hg' hsame)
  tidy := by
    intro g' hg'
    obtain ⟨g, hg, rfl⟩ := List.mem_map.1 hg'
    obtain ⟨hcpus, hmems, hheld⟩ := h.tidy g hg
    exact ⟨by rw [hf.cpus, cpusOf_rename hf, hcpus], by rw [hf.mems, memsOf_rename hf, hmems],
      by rwa [cpusOf_rename hf, memsOf_rename hf]⟩
  apart := by
    intro g' hg' h' hh' j k hj hk hsj hsk hne
    obtain ⟨g, hg, rfl⟩ := List.mem_map.1 hg'
    obtain ⟨g₂, hg₂, rfl⟩ := List.mem_map.1 hh'
    obtain ⟨j', hj', hjtext⟩ := owner_of_rename h hf hg hj
    obtain ⟨k', hk', hktext⟩ := owner_of_rename h hf hg₂ hk
    rw [cpusOf_rename hf, cpusOf_rename hf]
    refine h.apart g hg g₂ hg₂ j' k' hj' hk' (hjtext ▸ hsj) (hktext ▸ hsk) fun hsame => hne ?_
    rw [h.eq_of_subdir hg hg₂ hsame]

theorem Inv.cleanup_orphans (h : Inv cfg node steady groups) (local_jobs : List (List Char)) (removal : List Char → Removal) :
    Inv cfg node steady (cleanup_orphans groups local_jobs removal) :=
  (h.rename (renames_orphans groups local_jobs)).filter _

theorem Inv.resync (h : Inv cfg node steady groups) (jobid : List Char) (found : Found) (n : Nat) :
    Inv cfg node steady (resync groups jobid found n) := by
  unfold CgroupHook.resync
  split_ifs
  · exact h
  · exact h.cleanup_orphans _ _

theorem expand_written (l : List Nat) (old : List Char) : expand (written (join l) old) = some (sorted l.dedup) := by
  rw [written, expand_join]
  exact expand_print _

theorem mem_sorted_dedup {l : List Nat} {n : Nat} : n ∈ sorted l.dedup ↔ n ∈ l := by rw [mem_sorted, List.mem_dedup]

theorem subdir_set_limit (jobid : List Char) (a : Assigned) (g : Cgroup) :
    (set_limit cfg node jobid a g).subdir = g.subdir := by
  unfold set_limit
  split_ifs <;> rfl

theorem set_limit_other {jobid : List Char} {g : Cgroup} (h : g.subdir ≠ jobid_to_systemd_subdir jobid) (a : Assigned) :
    set_limit cfg node jobid a g = g := if_neg h

theorem set_limit_job {jobid : List Char} {g : Cgroup} (h : g.subdir = jobid_to_systemd_subdir jobid) (a : Assigned) :
    expand (set_limit cfg node jobid a g).cpus = some (sorted a.cpus.dedup) ∧
      expand (set_limit cfg node jobid a g).mems = some (sorted (fenced cfg node a).dedup) := by
  rw [set_limit, if_pos h]
  exact ⟨expand_written _ _, expand_written _ _⟩

theorem cpusOf_set_limit {jobid : List Char} {g : Cgroup} (h : g.subdir = jobid_to_systemd_subdir jobid) (a : Assigned) :
    cpusOf (set_limit cfg node jobid a g) = sorted a.cpus.dedup := by
  rw [cpusOf, (set_limit_job h a).1]
  rfl

theorem tidy_set_limit {jobid : List Char} {g : Cgroup} (h : g.subdir = jobid_to_systemd_subdir jobid) {a : Assigned}
    (hnode : ∀ c ∈ a.cpus, (∃ n ∈ node.numa_nodes, n.1 ∈ a.mems ∧ c ∈ n.2.cpus) ∧
      (cfg.use_hyperthreads = false → c ∉ node.cpuinfo.hyperthreads)) :
    Tidy cfg node (set_limit cfg node jobid a g) := by
  obtain ⟨hcpus, hmems⟩ := set_limit_job h a
  have hmemsOf : memsOf (set_limit cfg node jobid a g) = sorted (fenced cfg node a).dedup := by
    rw [memsOf, hmems]
    rfl
  refine ⟨by rw [hcpus, cpusOf_set_limit h], by rw [hmems, hmemsOf], fun c hc => ?_⟩
  rw [cpusOf_set_limit h, mem_sorted_dedup] at hc
  obtain ⟨⟨n, hn, hnmems, hcn⟩, hhyper⟩ := hnode c hc
  refine ⟨⟨n, hn, ?_, hcn⟩, hhyper⟩
  rw [hmemsOf, mem_sorted_dedup, fenced]
  split_ifs
  · exact hnmems
  · exact List.mem_map_of_mem hn

/-- The job's cgroup gets CPUs that no other cgroup has. -/
theorem Inv.set_limits (h : Inv cfg node steady groups) {job : JobId} {a : Assigned}
    (hnode : ∀ c ∈ a.cpus, (∃ n ∈ node.numa_nodes, n.1 ∈ a.mems ∧ c ∈ n.2.cpus) ∧
      (cfg.use_hyperthreads = false → c ∉ node.cpuinfo.hyperthreads))
    (hfresh : ∀ g ∈ groups, ∀ g' ∈ groups, g.subdir = jobid_to_systemd_subdir job.text →
      g'.subdir ≠ jobid_to_systemd_subdir job.text → ∀ k, Owner g' k → steady k.text → a.cpus.Disjoint (cpusOf g')) :
    Inv cfg node steady (set_limits cfg node groups job.text a) := by
  unfold CgroupHook.set_limits
  split_ifs with hempty
  · exact h
  have hdisjoint : ∀ g ∈ groups, ∀ g' ∈ groups, g.subdir = jobid_to_systemd_subdir job.text →
      g'.subdir ≠ jobid_to_systemd_subdir job.text → ∀ k, Owner g' k → steady k.text →
      (cpusOf (set_limit cfg node job.text a g)).Disjoint (cpusOf (set_limit cfg node job.text a g')) := by
    intro g hg g' hg' hgjob hgjob' k hk hsk c hc hc'
    rw [cpusOf_set_limit hgjob, mem_sorted_dedup] at hc
    rw [set_limit_other hgjob'] at hc'
    exact hfresh g hg g' hg' hgjob hgjob' k hk hsk hc hc'
  have howner : ∀ g k, Owner (set_limit cfg node job.text a g) k → Owner g k :=
    fun g k hk => hk.imp fun n hn => (subdir_set_limit job.text a g).symm.trans hn
  refine ⟨?_, ?_, ?_, ?_⟩
  · intro g' hg'
    obtain ⟨g, hg, rfl⟩ := List.mem_map.1 hg'
    obtain ⟨k, n, hn⟩ := h.owner g hg
    exact ⟨k, n, (subdir_set_limit job.text a g).trans hn⟩
  · have hmap : (groups.map (set_limit cfg node job.text a)).map Cgroup.subdir = groups.map Cgroup.subdir := by
      rw [List.map_map]
      exact List.map_congr_left fun g _ => subdir_set_limit job.text a g
    rw [hmap]
    exact h.nodup
  · intro g' hg'
    obtain ⟨g, hg, rfl⟩ := List.mem_map.1 hg'
    by_cases hgjob : g.subdir = jobid_to_systemd_subdir job.text
    · exact tidy_set_limit hgjob hnode
    · rw [set_limit_other hgjob]
      exact h.tidy g hg
  · intro g₁ hg₁ g₂ hg₂ j k hj hk hsj hsk hne
    obtain ⟨g, hg, rfl⟩ := List.mem_map.1 hg₁
    obtain ⟨g', hg', rfl⟩ := List.mem_map.1 hg₂
    rw [subdir_set_limit, subdir_set_limit] at hne
    by_cases hgjob : g.subdir = jobid_to_systemd_subdir job.text
    · exact hdisjoint g hg g' hg' hgjob (fun h' => hne (hgjob.trans h'.symm)) k (howner g' k hk) hsk
    · by_cases hgjob' : g'.subdir = jobid_to_systemd_subdir job.text
      · exact (hdisjoint g' hg' g hg hgjob' hgjob j (howner g j hj) hsj).symm
      · rw [set_limit_other hgjob, set_limit_other hgjob']
        exact h.apart g hg g' hg' j k (howner g j hj) (howner g' k hk) hsj hsk hne

/-! ## Events -/

/-- What is left of the cgroups between reading them and writing the limits. -/
theorem resync_eq (groups : List Cgroup) (jobid : List Char) (found : Found) (n : Nat) :
    ∃ f p, Renames groups f ∧ resync groups jobid found n = (groups.map f).filter p := by
  unfold CgroupHook.resync
  split_ifs
  · exact ⟨id, fun _ => true, renames_id groups, by simp⟩
  · exact ⟨_, _, renames_orphans groups (found.joblist n), rfl⟩

/-- The limits are written to cgroups some of which may have been renamed or
removed since the others were read. -/
theorem Inv.configured (h : Inv cfg node steady groups) {read : List Cgroup}
    {assigned_resources : List (List Char × JobResources)}
    (hread : get_assigned_cgroup_resources read = some assigned_resources) (hinv : Inv cfg node steady read)
    (hfrom : ∀ g ∈ groups, g ∈ read ∨ cpusOf g = [] ∧ ∃ k : JobId, g.subdir = jobid_to_systemd_subdir k.text)
    {job : JobId} {hostresc : Hostresc} {exclude_jobid : Option (List Char)} {found : Found}
    (hexclude : exclude_jobid = none ∨ exclude_jobid = some job.text)
    (hsteady : ∀ k, steady k → ∀ n, found.suspended n k = false) :
    Inv cfg node steady (configured cfg node job.text
      (configure_job cfg node groups assigned_resources job.text hostresc exclude_jobid found)) := by
  have hjobs : ∀ g ∈ groups, ∃ k : JobId, g.subdir = jobid_to_systemd_subdir k.text := by
    intro g hg
    rcases hfrom g hg with hg | ⟨-, hk⟩
    · obtain ⟨k, hk, -⟩ := (hinv.of_read hread).1 g hg
      exact ⟨k, hk⟩
    · exact hk
  have hwrite : ∀ {f : Cgroup → Cgroup} {p : Cgroup → Bool} {n : Nat} {a : Assigned}, Renames groups f →
      attempt cfg node assigned_resources hostresc (found.suspended n) exclude_jobid = some a →
      Inv cfg node steady (CgroupHook.set_limits cfg node ((groups.map f).filter p) job.text a) := by
    intro f p n a hf ha
    obtain ⟨hnode, hfree⟩ := hinv.attempt_spec hread ha
    apply ((h.rename hf).filter p).set_limits hnode
    intro g hg g' hg' hgjob hgjob' k hk hsk
    obtain ⟨g₀, hg₀, rfl⟩ := List.mem_map.1 (List.mem_of_mem_filter hg)
    obtain ⟨g₀', hg₀', rfl⟩ := List.mem_map.1 (List.mem_of_mem_filter hg')
    obtain ⟨k', hk', htext⟩ := owner_of_rename h hf hg₀' hk
    rw [cpusOf_rename hf]
    obtain ⟨j', hj'⟩ := hjobs g₀' hg₀'
    have hsame : k'.text = j'.text := by
      obtain ⟨m, hm⟩ := hk'
      exact owner_unique (n := m) (m := 0) (by rw [← hm, hj', orphans, List.append_nil])
    rcases hfrom g₀' hg₀' with hmem | ⟨hempty, -⟩
    · refine hfree g₀' hmem j' hj' ?_ (hsteady _ (by rwa [← hsame, htext]) n)
      -- the job's own cgroup would have to have two names
      rintro hself
      rcases hexclude with rfl | rfl
      · cases hself
      · have hown : j'.text = job.text := Option.some.inj hself
        have hg₀job : g₀.subdir = jobid_to_systemd_subdir job.text := by
          rcases hf.subdir g₀ hg₀ with hkeep | horphan
          · exact hkeep.symm.trans hgjob
          · exact absurd (horphan.symm.trans hgjob) (orphan_ne_subdir _ _)
        have heq : g₀' = g₀ := h.eq_of_subdir hg₀' hg₀ (by rw [hj', hown, hg₀job])
        exact hgjob' (heq ▸ hgjob)
    · rw [hempty]
      exact List.disjoint_nil_right _
  obtain ⟨f, p, hf, hresync⟩ := resync_eq groups job.text found 0
  unfold configure_job
  split
  · rename_i a ha
    have hid := hwrite (p := fun _ => true) (renames_id groups) ha
    simpa [CgroupHook.configured] using hid
  · dsimp only
    split
    · exact h.resync _ _ _
    · split
      · rename_i a ha
        rw [hresync]
        exact hwrite hf ha
      · exact (h.resync _ _ _).resync _ _ _

theorem Inv.handle (h : Inv cfg node steady groups) {e : Event} (hsteady : ∀ k, steady k → ∀ n, e.found.suspended n k = false) :
    Inv cfg node steady (handle cfg node groups e) := by
  unfold CgroupHook.handle
  split
  · exact h
  · rename_i assigned_resources hread
    cases e with
    | execjob_begin job hostresc found =>
      have hdelete := h.delete job.text (found.removal 0)
      dsimp only
      unfold begin
      dsimp only
      split
      · exact hdelete
      split
      · exact hdelete
      · rename_i assigned_resources' hread'
        refine (hdelete.create_job job).configured hread' hdelete ?_ (.inl rfl) hsteady
        intro g hg
        unfold CgroupHook.create_job at hg
        split_ifs at hg
        · exact .inl hg
        · refine (List.mem_append.1 hg).imp_right fun hg => ?_
          rw [List.mem_singleton.1 hg]
          exact ⟨rfl, job, rfl⟩
    | execjob_end job found => exact h.delete job.text _
    | execjob_resize job hostresc found => exact h.configured hread h (fun g hg => .inl hg) (.inr rfl) hsteady
    | exechost_periodic job_list found => exact h.cleanup_orphans _ _

theorem Inv.run (h : Inv cfg node steady groups) : ∀ {es : List Event},
    (∀ e ∈ es, ∀ k, steady k → ∀ n, e.found.suspended n k = false) → Inv cfg node steady (run cfg node groups es) := by
  intro es
  induction es generalizing groups with
  | nil => exact fun _ => h
  | cons e es ih =>
    intro hsteady
    exact ih (h.handle (hsteady e List.mem_cons_self)) fun e' he' => hsteady e' (List.mem_cons_of_mem e he')

theorem inv_nil (cfg : Config) (node : Node) (steady : List Char → Prop) : Inv cfg node steady [] :=
  ⟨by simp, List.nodup_nil, by simp, by simp⟩

end Groups

/-! ## Histories -/

/-- No event of the history found the job suspended. -/
def NeverSuspended (es : List Event) (jobid : List Char) : Prop := ∀ e ∈ es, ∀ n, e.found.suspended n jobid = false

theorem inv_run (cfg : Config) (node : Node) (es : List Event) : Inv cfg node (NeverSuspended es) (run cfg node [] es) :=
  (inv_nil cfg node (NeverSuspended es)).run fun e he _ hk => hk e he

def vizNode : Node where
  cpuinfo := discover_cpuinfo vizCpuinfo
  numa_nodes := [(0, ⟨[0, 1, 2, 3], 0⟩)]
  devices := []
  keys := by decide
  cpus := by decide
  counted := by decide

def job1 : JobId := ⟨['1'], by simp [Bytes], rfl⟩

def job2 : JobId := ⟨['2'], by simp [Bytes], rfl⟩

def cpusRequest (n : Nat) : Hostresc := ⟨cpusOnly n, [], List.nodup_nil⟩

/-- Nobody is suspended, and every removal ends alike. -/
def nothingElse (r : Removal) : Found := ⟨fun _ _ => false, fun _ _ => r, fun _ => []⟩

def wholeCores : Config := ⟨false, false, true, true⟩

/-- Once a cgroup of an orphan is left, no event changes anything any more: the
hook fails before it comes to remove it. -/
theorem orphan_blocks (cfg : Config) (node : Node) (es : List Event) {g : Cgroup} (hg : g ∈ run cfg node [] es)
    (horphan : orphan <:+ g.subdir) (es' : List Event) : run cfg node [] (es ++ es') = run cfg node [] es := by
  have h := inv_run cfg node es
  have hread : get_assigned_cgroup_resources (run cfg node [] es) = none := by
    cases hread : get_assigned_cgroup_resources (run cfg node [] es) with
    | none => rfl
    | some assigned_resources =>
      obtain ⟨job, hjob, -⟩ := (h.of_read hread).1 g hg
      obtain ⟨front, hfront⟩ := horphan
      exact absurd (hfront.trans hjob) (orphan_ne_subdir front job.text)
  have hstep : ∀ e, handle cfg node (run cfg node [] es) e = run cfg node [] es := by
    intro e
    rw [handle, hread]
  rw [run, List.foldl_append]
  change run cfg node (run cfg node [] es) es' = _
  induction es' with
  | nil => rfl
  | cons e es' ih => rw [run, List.foldl_cons, hstep, ← run, ih]

/-- A job that does not fit is orphaned, and its end does not remove the cgroup. -/
theorem orphan_blocks_viz :
    run wholeCores vizNode []
        ([.execjob_begin job1 (cpusRequest 3) (nothingElse .tasks)] ++ [.execjob_end job1 (nothingElse .removed)]) =
      [⟨jobid_to_systemd_subdir ['1'] ++ orphan, [], []⟩] := by
  have hrun : run wholeCores vizNode [] [.execjob_begin job1 (cpusRequest 3) (nothingElse .tasks)] =
      [⟨jobid_to_systemd_subdir ['1'] ++ orphan, [], []⟩] := by decide
  rw [orphan_blocks wholeCores vizNode [.execjob_begin job1 (cpusRequest 3) (nothingElse .tasks)]
    (by rw [hrun]; exact List.mem_cons_self) (List.suffix_append _ _), hrun]

/-- Load balancing makes no difference to any history. -/
theorem run_load_balanced (cfg : Config) (node : Node) (es : List Event) (groups : List Cgroup) :
    run cfg node groups es = run { cfg with load_balanced := false } node groups es := by
  have hattempt : ∀ {groups : List Cgroup} {assigned_resources : List (List Char × JobResources)},
      get_assigned_cgroup_resources groups = some assigned_resources → ∀ hostresc suspended exclude_jobid,
      attempt cfg node assigned_resources hostresc suspended exclude_jobid =
        attempt { cfg with load_balanced := false } node assigned_resources hostresc suspended exclude_jobid :=
    fun hread hostresc suspended exclude_jobid =>
      assign_job_load_balanced cfg node (cpuset_mems_of_read hread) (limited hostresc) _
  have hconfigure : ∀ {groups : List Cgroup} {assigned_resources : List (List Char × JobResources)},
      get_assigned_cgroup_resources groups = some assigned_resources → ∀ groups' jobid hostresc exclude_jobid found,
      configured cfg node jobid (configure_job cfg node groups' assigned_resources jobid hostresc exclude_jobid found) =
        configured { cfg with load_balanced := false } node jobid
          (configure_job { cfg with load_balanced := false } node groups' assigned_resources jobid hostresc exclude_jobid
            found) := by
    intro groups assigned_resources hread groups' jobid hostresc exclude_jobid found
    rw [configure_job, configure_job, hattempt hread, hattempt hread]
    rfl
  have hhandle : ∀ groups e, handle cfg node groups e = handle { cfg with load_balanced := false } node groups e := by
    intro groups e
    unfold handle
    split
    · rfl
    · rename_i assigned_resources hread
      cases e with
      | execjob_begin job hostresc found =>
        dsimp only
        unfold begin
        dsimp only
        split
        · rfl
        split
        · rfl
        · rename_i assigned_resources' hread'
          exact hconfigure hread' _ _ _ _ _
      | execjob_end job found => rfl
      | execjob_resize job hostresc found => exact hconfigure hread _ _ _ _ _
      | exechost_periodic job_list found => rfl
  induction es generalizing groups with
  | nil => rfl
  | cons e es ih =>
    rw [run, run, List.foldl_cons, List.foldl_cons, hhandle]
    exact ih _

/-! ## When a job is started -/

/-- The cgroup has the CPU, and its job is not suspended. -/
def occupies (suspended : List Char → Bool) (g : Cgroup) (c : Nat) : Bool :=
  c ∈ cpusOf g && (systemd_subdir_to_jobid g.subdir).map suspended = some false

/-- The CPUs of the node that a job may get. -/
def freeCpus (cfg : Config) (node : Node) (groups : List Cgroup) (jobid : List Char) (suspended : List Char → Bool) :
    List Nat :=
  (node.numa_nodes.flatMap fun n => n.2.cpus).filter fun c =>
    (cfg.use_hyperthreads ∨ c ∉ node.cpuinfo.hyperthreads) ∧
      ∀ g ∈ groups, g.subdir ≠ jobid_to_systemd_subdir jobid → occupies suspended g c = false

section Begin
variable {cfg : Config} {node : Node} {steady : List Char → Prop} {groups : List Cgroup}

theorem Inv.read_of_jobs (h : Inv cfg node steady groups)
    (hjobs : ∀ g ∈ groups, ∃ job : JobId, g.subdir = jobid_to_systemd_subdir job.text) :
    ∃ assigned_resources, get_assigned_cgroup_resources groups = some assigned_resources := by
  unfold get_assigned_cgroup_resources
  rw [h.filter_wildcard]
  apply Lib.Objects.mapM_of_forall
  intro g hg
  obtain ⟨job, hjob⟩ := hjobs g hg
  exact ⟨_, h.read_job hg hjob⟩

theorem jobs_of_no_orphan (h : Inv cfg node steady groups) (horphan : ∀ g ∈ groups, ¬orphan <:+ g.subdir) :
    ∀ g ∈ groups, ∃ job : JobId, g.subdir = jobid_to_systemd_subdir job.text := by
  intro g hg
  obtain ⟨job, n, hn⟩ := h.owner g hg
  cases n with
  | zero => exact ⟨job, by simpa [orphans] using hn⟩
  | succ n => exact absurd ⟨_, (hn.trans (by rw [orphans, List.append_assoc])).symm⟩ (horphan g hg)

/-- A job's old cgroup that can be removed is deleted. -/
theorem mem_delete (h : Inv cfg node steady groups) {job : JobId} {removal : List Char → Removal}
    (hremoved : removal (jobid_to_systemd_subdir job.text) = .removed) {g : Cgroup} :
    g ∈ CgroupHook.delete groups job.text removal ↔ g ∈ groups ∧ g.subdir ≠ jobid_to_systemd_subdir job.text := by
  unfold CgroupHook.delete
  split_ifs with hany
  · rw [List.mem_filter, decide_eq_true_eq]
    refine and_congr_right fun _ => not_congr ⟨fun hg => hg.1, fun hg => ⟨hg, hg ▸ hremoved⟩⟩
  · refine ⟨fun hg => ⟨hg, fun hsubdir => hany ?_⟩, fun hg => hg.1⟩
    have hwildcard : wildcard g.subdir = true := by
      obtain ⟨k, hk⟩ := h.owner g hg
      exact hk.wildcard
    exact List.any_eq_true.2 ⟨g, hg, decide_eq_true ⟨hwildcard, by rw [hsubdir, jobid_of_subdir job.bytes]⟩⟩

/-- What is available to the job is what no other cgroup occupies. -/
theorem mem_available_iff (h : Inv cfg node steady groups)
    (hjobs : ∀ g ∈ groups, ∃ k : JobId, g.subdir = jobid_to_systemd_subdir k.text) {job : JobId} {removal : List Char → Removal}
    (hremoved : removal (jobid_to_systemd_subdir job.text) = .removed) {assigned_resources : List (List Char × JobResources)}
    (hread : get_assigned_cgroup_resources (CgroupHook.delete groups job.text removal) = some assigned_resources)
    (suspended : List Char → Bool) (c : Nat) :
    (∃ s ∈ available_node_resources node assigned_resources suspended none, c ∈ s.2.cpus) ↔
      (∃ n ∈ node.numa_nodes, c ∈ n.2.cpus) ∧
        ∀ g ∈ groups, g.subdir ≠ jobid_to_systemd_subdir job.text → occupies suspended g c = false := by
  have hinv := h.delete job.text removal
  constructor
  · rintro ⟨e, he, hc⟩
    obtain ⟨⟨n, hn, hcn⟩, hothers⟩ := mem_available he hc
    refine ⟨⟨_, hn, hcn⟩, fun g hg hne => ?_⟩
    obtain ⟨k, hk⟩ := hjobs g hg
    have hg' := (mem_delete h hremoved).2 ⟨hg, hne⟩
    obtain ⟨k', hk', hentry⟩ := (hinv.of_read hread).1 g hg'
    cases hoccupies : occupies suspended g c with
    | false => rfl
    | true =>
      simp only [occupies, hk', jobid_of_subdir k'.bytes, Option.map_some, Bool.and_eq_true, decide_eq_true_eq,
        Option.some.injEq] at hoccupies
      have hholding : (k'.text, resources g) ∈ holding assigned_resources suspended none := by
        rw [holding, List.mem_filter]
        exact ⟨hentry, by simp [hoccupies.2]⟩
      obtain ⟨⟨m, hm, hmems, hcm⟩, -⟩ := (hinv.tidy g hg').held c hoccupies.1
      have hsocket : e.1 = m.1 := congrArg Prod.fst (socket_unique hn hm hcn hcm)
      have hhas : (resources g).has e.1 c = true := by
        simp [JobResources.has, resources, hsocket, hmems, hoccupies.1]
      exact absurd hhas (by simp [hothers _ hholding])
  · rintro ⟨⟨n, hn, hcn⟩, hothers⟩
    have hview : (n.1, n.2.cpus.filter fun c => !((holding assigned_resources suspended none).any fun j => j.2.has n.1 c)) ∈
        cpus_by_socket (available_node_resources node assigned_resources suspended none) := by
      rw [available_node_resources_spec]
      exact List.mem_map_of_mem (f := fun n : Nat × NumaNode => (n.1, n.2.cpus.filter fun c =>
        !((holding assigned_resources suspended none).any fun j => j.2.has n.1 c))) hn
    obtain ⟨e, he, heq⟩ := List.mem_map.1 hview
    refine ⟨e, he, ?_⟩
    rw [(Prod.mk.inj heq).2, List.mem_filter]
    refine ⟨hcn, ?_⟩
    rw [Bool.not_eq_true', List.any_eq_false]
    intro r hr hhas
    rw [holding, List.mem_filter, decide_eq_true_eq] at hr
    obtain ⟨g, hg, k, hk, rfl⟩ := (hinv.of_read hread).2 r hr.1
    obtain ⟨hg, hne⟩ := (mem_delete h hremoved).1 hg
    have hnot := hothers g hg hne
    have hc : c ∈ cpusOf g := of_decide_eq_true (Bool.and_eq_true_iff.1 hhas).2
    simp [occupies, hk, jobid_of_subdir k.bytes, hr.2.2, hc] at hnot

/-- The job has none of the other cgroups' CPUs to wait for. -/
theorem length_free (h : Inv cfg node steady groups) (hjobs : ∀ g ∈ groups, ∃ k : JobId, g.subdir = jobid_to_systemd_subdir k.text)
    {job : JobId} {removal : List Char → Removal}
    (hremoved : removal (jobid_to_systemd_subdir job.text) = .removed)
    {assigned_resources : List (List Char × JobResources)}
    (hread : get_assigned_cgroup_resources (CgroupHook.delete groups job.text removal) = some assigned_resources)
    (suspended : List Char → Bool) :
    (cores_of cfg node.cpuinfo (combine_available (available_node_resources node assigned_resources suspended none)).cpus).length =
      (freeCpus cfg node groups job.text suspended).length := by
  apply List.Perm.length_eq
  rw [freeCpus, List.perm_ext_iff_of_nodup (nodup_cores_of _ _ _) (node.cpus.filter _)]
  intro c
  rw [mem_cores_of, mem_combine_available, List.mem_filter, decide_eq_true_eq, List.mem_flatMap,
    mem_available_iff h hjobs hremoved hread suspended c]
  cases cfg.use_hyperthreads with
  | true => simp
  | false =>
    simp only [forall_const, Bool.false_eq_true, false_or]
    tauto

theorem not_delete_ends {jobid : List Char} {removal : List Char → Removal} {r : Removal}
    (hremoved : removal (jobid_to_systemd_subdir jobid) ≠ r) : delete_ends groups jobid removal r = false := by
  refine Bool.and_eq_false_imp.2 fun _ => List.any_eq_false.2 fun g _ hends => hremoved ?_
  obtain ⟨hname, hr⟩ := of_decide_eq_true hends
  exact hname ▸ hr

/-- A job's cgroup is made after the others'. -/
theorem create_deleted (h : Inv cfg node steady groups) {job : JobId} {removal : List Char → Removal}
    (hremoved : removal (jobid_to_systemd_subdir job.text) = .removed) :
    CgroupHook.create_job (CgroupHook.delete groups job.text removal) job.text =
      CgroupHook.delete groups job.text removal ++ [⟨jobid_to_systemd_subdir job.text, [], []⟩] := by
  rw [CgroupHook.create_job, if_neg]
  rw [List.any_eq_true]
  rintro ⟨g, hg, hsubdir⟩
  exact ((mem_delete h hremoved).1 hg).2 (by simpa using hsubdir)

theorem limited_cpusOnly {hostresc : Hostresc} {n : Nat} (hn : 0 < n) (hreq : hostresc.request = cpusOnly n) :
    (limited hostresc).request = cpusOnly n := by
  have hmax : max 1 n = n := Nat.max_eq_right hn
  simp [limited, hreq, cpusOnly, hmax]

/-- An attempt succeeds exactly if enough CPUs are free. -/
theorem attempt_isSome_iff (h : Inv cfg node steady groups)
    (hjobs : ∀ g ∈ groups, ∃ k : JobId, g.subdir = jobid_to_systemd_subdir k.text) {job : JobId} {removal : List Char → Removal}
    (hremoved : removal (jobid_to_systemd_subdir job.text) = .removed) {assigned_resources : List (List Char × JobResources)}
    (hread : get_assigned_cgroup_resources (CgroupHook.delete groups job.text removal) = some assigned_resources)
    {hostresc : Hostresc} (hvnodes : hostresc.vnodes = []) {n : Nat} (hn : 0 < n) (hreq : hostresc.request = cpusOnly n)
    (suspended : List Char → Bool) :
    (attempt cfg node assigned_resources hostresc suspended none).isSome = true ↔
      needed_of cfg node.cpuinfo n ≤ (freeCpus cfg node groups job.text suspended).length := by
  have hkeys : ((available_node_resources node assigned_resources suspended none).map Prod.fst).Nodup := by
    have hview := congrArg (List.map Prod.fst) (available_node_resources_spec node assigned_resources suspended none)
    have hfst : ∀ available : List (Nat × Resources), (cpus_by_socket available).map Prod.fst = available.map Prod.fst := by
      intro available
      simp [cpus_by_socket]
    rw [hfst] at hview
    rw [hview, free, List.map_map]
    exact node.keys
  rw [← length_free h hjobs hremoved hread]
  exact assign_job_isSome_iff assigned_resources hkeys (show (limited hostresc).vnodes = [] from hvnodes) hn
    (limited_cpusOnly hn hreq)

/-- The CPUs of an attempt are as many as the job needs. -/
theorem cpus_of_attempt {assigned_resources : List (List Char × JobResources)} {hostresc : Hostresc}
    (hvnodes : hostresc.vnodes = []) {n : Nat} (hn : 0 < n) (hreq : hostresc.request = cpusOnly n)
    {suspended : List Char → Bool} {a : Assigned} (ha : attempt cfg node assigned_resources hostresc suspended none = some a) :
    a.cpus.Nodup ∧ a.cpus.length = needed_of cfg node.cpuinfo n ∧ a.cpus ≠ [] := by
  have hlength : a.cpus.length = needed_of cfg node.cpuinfo n :=
    length_of_assign_job (show (limited hostresc).vnodes = [] from hvnodes) hn (limited_cpusOnly hn hreq) ha
  refine ⟨(assign_job_spec (apart_available node assigned_resources _ _) ha).1, hlength, fun hnil => ?_⟩
  rw [hnil] at hlength
  exact (needed_pos node.counted hn).ne hlength

/-- The cgroup of a job that got its CPUs. -/
theorem cpusOf_assigned {job : JobId} {a : Assigned} (hnodup : a.cpus.Nodup) {g : Cgroup}
    (hsubdir : g.subdir = jobid_to_systemd_subdir job.text) :
    (cpusOf (set_limit cfg node job.text a g)).Nodup ∧ (cpusOf (set_limit cfg node job.text a g)).length = a.cpus.length := by
  rw [cpusOf_set_limit hsubdir, List.dedup_eq_self.2 hnodup, (perm_sorted _).nodup_iff, (perm_sorted _).length_eq]
  exact ⟨hnodup, rfl⟩

end Begin

/-- On a node without orphans a job that asks for CPUs, and whose old cgroup can
be removed, is started exactly if enough are free, and then it has as many as it
needs. The cleaning up between the two attempts makes no difference to that. -/
theorem begin_iff (cfg : Config) (node : Node) (es : List Event) (horphan : ∀ g ∈ run cfg node [] es, ¬orphan <:+ g.subdir)
    (job : JobId) {found : Found} (hremoved : found.removal 0 (jobid_to_systemd_subdir job.text) = .removed)
    (hsuspended : found.suspended 1 = found.suspended 0) {hostresc : Hostresc} (hvnodes : hostresc.vnodes = []) {n : Nat}
    (hn : 0 < n) (hreq : hostresc.request = cpusOnly n) :
    (∃ g ∈ handle cfg node (run cfg node [] es) (.execjob_begin job hostresc found),
      g.subdir = jobid_to_systemd_subdir job.text ∧ (cpusOf g).Nodup ∧
        (cpusOf g).length = needed_of cfg node.cpuinfo n) ↔
    needed_of cfg node.cpuinfo n ≤ (freeCpus cfg node (run cfg node [] es) job.text (found.suspended 0)).length := by
  have h := inv_run cfg node es
  generalize run cfg node [] es = groups at h horphan
  have hjobs := jobs_of_no_orphan h horphan
  obtain ⟨read, hread⟩ := h.read_of_jobs hjobs
  have hinv := h.delete job.text (found.removal 0)
  obtain ⟨assigned_resources, hread'⟩ := hinv.read_of_jobs fun g hg => hjobs g ((mem_delete h hremoved).1 hg).1
  have hneeded : 0 < needed_of cfg node.cpuinfo n := needed_pos node.counted hn
  rw [← attempt_isSome_iff h hjobs hremoved hread' hvnodes hn hreq (found.suspended 0)]
  -- the cgroup made for the job is the only one of its name
  have hnew := create_deleted h hremoved
  have hempty : ∀ g ∈ CgroupHook.create_job (CgroupHook.delete groups job.text (found.removal 0)) job.text,
      g.subdir = jobid_to_systemd_subdir job.text → g = ⟨jobid_to_systemd_subdir job.text, [], []⟩ := by
    intro g hg hsubdir
    rw [hnew] at hg
    rcases List.mem_append.1 hg with hg | hg
    · exact absurd hsubdir ((mem_delete h hremoved).1 hg).2
    · exact List.mem_singleton.1 hg
  have hbegin : handle cfg node groups (.execjob_begin job hostresc found) =
      configured cfg node job.text (configure_job cfg node
        (CgroupHook.create_job (CgroupHook.delete groups job.text (found.removal 0)) job.text) assigned_resources job.text
        hostresc none found) := by
    have hends : delete_ends groups job.text (found.removal 0) .raises = false := not_delete_ends (by simp [hremoved])
    simp only [handle, hread, begin, hread', hends, Bool.false_eq_true, if_false]
  rw [hbegin, configure_job, hsuspended]
  cases hfirst : attempt cfg node assigned_resources hostresc (found.suspended 0) none with
  | some a =>
    obtain ⟨hnodup, hlength, hcpus⟩ := cpus_of_attempt hvnodes hn hreq hfirst
    refine ⟨fun _ => rfl, fun _ => ?_⟩
    refine ⟨set_limit cfg node job.text a ⟨jobid_to_systemd_subdir job.text, [], []⟩, ?_, subdir_set_limit _ _ _, ?_⟩
    · rw [configured, set_limits, if_neg hcpus, hnew]
      exact List.mem_map_of_mem (by simp)
    · exact hlength ▸ cpusOf_assigned hnodup rfl
  | none =>
    refine iff_of_false ?_ (by simp)
    rintro ⟨g, hg, hsubdir, -, hlength⟩
    -- every cgroup of that name is the one made for the job, still empty
    have hkept : ∀ (groups' : List Cgroup) n, (∀ g ∈ groups', g.subdir = jobid_to_systemd_subdir job.text → cpusOf g = []) →
        ∀ g ∈ resync groups' job.text found n, g.subdir = jobid_to_systemd_subdir job.text → cpusOf g = [] := by
      intro groups' n hgroups' g hg hsubdir
      obtain ⟨f, p, hf, hresync⟩ := resync_eq groups' job.text found n
      rw [hresync] at hg
      obtain ⟨g₀, hg₀, rfl⟩ := List.mem_map.1 (List.mem_of_mem_filter hg)
      rw [cpusOf_rename hf]
      rcases hf.subdir g₀ hg₀ with hkeep | horphan
      · exact hgroups' g₀ hg₀ (hkeep.symm.trans hsubdir)
      · exact absurd (horphan.symm.trans hsubdir) (orphan_ne_subdir _ _)
    have hcleaned := hkept _ 0 fun g hg hsubdir => by
      rw [hempty g hg hsubdir]
      rfl
    have hnil : cpusOf g = [] := by
      dsimp only at hg
      split_ifs at hg
      · exact hcleaned g hg hsubdir
      · exact hkept _ 1 hcleaned g hg hsubdir
    rw [hnil] at hlength
    exact hneeded.ne hlength

/-- The second job finds a core that the first has left. -/
theorem begin_iff_viz :
    ∃ g ∈ handle wholeCores vizNode (run wholeCores vizNode [] [.execjob_begin job1 (cpusRequest 1) (nothingElse .removed)])
        (.execjob_begin job2 (cpusRequest 1) (nothingElse .removed)),
      g.subdir = jobid_to_systemd_subdir job2.text ∧ (cpusOf g).Nodup ∧ (cpusOf g).length = 1 := by
  have hremoved : (nothingElse .removed).removal 0 (jobid_to_systemd_subdir job2.text) = .removed := rfl
  have hvnodes : (cpusRequest 1).vnodes = [] := rfl
  have horphan : ∀ g ∈ run wholeCores vizNode [] [.execjob_begin job1 (cpusRequest 1) (nothingElse .removed)],
      ¬orphan <:+ g.subdir := by decide
  exact (begin_iff wholeCores vizNode [.execjob_begin job1 (cpusRequest 1) (nothingElse .removed)] horphan job2 hremoved rfl
    hvnodes (by decide : 0 < 1) rfl).2 (by decide)

end AzHop.CgroupHook
