import AzHop.Lib.Objects
import Mathlib.Data.List.Basic
import Mathlib.Data.Char
import Mathlib.Data.List.Dedup
import Mathlib.Data.List.Infix
import Mathlib.Data.List.Lex
import Mathlib.Data.List.Pairwise
import Mathlib.Data.List.Perm.Subperm
import Mathlib.Data.List.Sort
import Mathlib.Tactic.SplitIfs
/-!
# The CPUs the PBS cgroups hook gives to a job

`pbs_cgroups.PY` reads the processors of a node, takes away what other jobs
have, and looks for a NUMA node the job fits on, then for all of them together.
`assign_resources` is the function that was replaced for hyperthreaded nodes.

A dictionary is a list of its entries. What the hook looks up by a number is
there: the processors of the NUMA nodes are in `/proc/cpuinfo`, and the jobs'
memory nodes are the node's.

`assign_cpus_spec` says what is taken of the free CPUs, `assign_job_spec` where
it comes from.
-/
namespace AzHop.CgroupCpus

/-! ## The node -/

/-- A processor of `/proc/cpuinfo`. -/
structure Processor where
  processor : Nat
  physical_id : Nat
  core_id : Nat
  deriving DecidableEq

/-- `/proc/cpuinfo`; the vendor, the flags and the counts are those of processor 0. -/
structure ProcCpuinfo where
  processors : List Processor
  vendor_id : List Char
  flags : List (List Char)
  siblings : Nat
  cpu_cores : Nat

/-- `cpuinfo` of the hook. -/
structure Cpuinfo where
  /-- The `threads` of each processor. -/
  cpu : List (Nat × List Nat)
  hyperthreads : List Nat
  hyperthreads_per_core : Nat

/-- Two processors are threads of one core. -/
def shares_core (x y : Processor) : Prop := x.physical_id = y.physical_id ∧ x.core_id = y.core_id

instance (x y : Processor) : Decidable (shares_core x y) := inferInstanceAs (Decidable (_ ∧ _))

/-- A processor is a thread of each processor with a lower number on its core,
and not of itself. -/
def threads_of (processors : List Processor) (x : Processor) : List Nat :=
  (processors.filter fun y => x.processor < y.processor ∧ shares_core x y).map Processor.processor

/-- The processors of a core, where the hook looks for hyperthreads at all. -/
def ProcCpuinfo.hyperthreads_per_core (p : ProcCpuinfo) : Nat :=
  if "Intel".toList <:+: p.vendor_id ∧ p.flags.contains "ht".toList ∧ p.cpu_cores ≠ 0 then p.siblings / p.cpu_cores else 1

/-- `_discover_cpuinfo`. -/
def discover_cpuinfo (p : ProcCpuinfo) : Cpuinfo :=
  if 1 < p.hyperthreads_per_core then
    { cpu := p.processors.map fun x => (x.processor, threads_of p.processors x)
      hyperthreads := p.processors.flatMap (threads_of p.processors)
      hyperthreads_per_core := p.hyperthreads_per_core }
  else
    { cpu := p.processors.map fun x => (x.processor, [])
      hyperthreads := []
      hyperthreads_per_core := p.hyperthreads_per_core }

/-- `cpu[corenum]['threads']`. -/
def Cpuinfo.threads (info : Cpuinfo) (corenum : Nat) : List Nat := (info.cpu.lookup corenum).getD []

/-- A device with its name and the NUMA node it is attached to. -/
structure Device where
  name : List Char
  type : List Char
  major : Nat
  minor : Nat
  numa_node : Nat
  deriving DecidableEq

/-- The processors and the memory of a socket. -/
structure NumaNode where
  cpus : List Nat
  /-- `mem` or `MemTotal`, in bytes. -/
  memory : Nat

/-- The node, as far as `NodeConfig` finds it out. -/
structure Node where
  cpuinfo : Cpuinfo
  numa_nodes : List (Nat × NumaNode)
  /-- The devices of the classes `mic` and `gpu`. -/
  devices : List Device
  keys : (numa_nodes.map Prod.fst).Nodup
  /-- Every CPU is on one NUMA node. -/
  cpus : (numa_nodes.flatMap fun n => n.2.cpus).Nodup
  counted : 0 < cpuinfo.hyperthreads_per_core

/-- What the hook reads of its configuration. -/
structure Config where
  use_hyperthreads : Bool
  ncpus_are_cores : Bool
  /-- `placement_type` is `load_balanced`. -/
  load_balanced : Bool
  mem_fences : Bool

/-! ## One socket -/

/-- What a job asks for on the host. -/
structure Request where
  ncpus : Option Nat
  nmics : Option Nat
  ngpus : Option Nat
  /-- In bytes. -/
  mem : Option Nat

/-- What is free on a socket. -/
structure Resources where
  cpus : List Nat
  devices : List Device
  memory : Nat

/-- What a job is given. -/
structure Assigned where
  cpus : List Nat
  mems : List Nat
  device_names : List (List Char)
  devices : List (List Char)
  mem : Option Nat
  deriving DecidableEq

/-- `sorted` of a set. -/
def sorted (l : List Nat) : List Nat := l.insertionSort (· ≤ ·)

/-- Where the loops over the empty cores are: the CPUs assigned, how many are
still needed, and the cores left. -/
structure Progress where
  assigned : List Nat
  needed : Nat
  cores : List Nat

/-- The loop over the threads of a core. -/
def take_threads : List Nat → Progress → Progress
  | [], p => p
  | thread :: threads, p =>
    if thread ∈ p.assigned then take_threads threads p
    else
      let p' : Progress := ⟨p.assigned ++ [thread], p.needed - 1, p.cores.erase thread⟩
      if p'.needed = 0 then p' else take_threads threads p'

/-- The loop over the empty cores. -/
def take_cores (threads : Nat → List Nat) : List Nat → Progress → Progress
  | [], p => p
  | corenum :: cores, p =>
    let p' := take_threads (threads corenum) p
    if p'.needed = 0 then p' else take_cores threads cores p'

/-- The cores all hyperthreads of which are available, in order. -/
def empty_cores (info : Cpuinfo) (available : List Nat) : List Nat :=
  (sorted available.dedup).filter fun corenum => corenum ∉ info.hyperthreads ∧ info.threads corenum ⊆ available

/-- `cores`, at the beginning. -/
def cores_of (cfg : Config) (info : Cpuinfo) (available : List Nat) : List Nat :=
  if cfg.use_hyperthreads then available.dedup else available.dedup.filter (· ∉ info.hyperthreads)

/-- `needed`, at the beginning. -/
def needed_of (cfg : Config) (info : Cpuinfo) (ncpus : Nat) : Nat :=
  if cfg.use_hyperthreads ∧ cfg.ncpus_are_cores then ncpus * info.hyperthreads_per_core else ncpus

def start (cfg : Config) (info : Cpuinfo) (available : List Nat) (ncpus : Nat) : Progress :=
  ⟨[], needed_of cfg info ncpus, cores_of cfg info available⟩

/-- `_assign_resources`, as far as the CPUs go; `none` is the empty dictionary. -/
def assign_cpus (cfg : Config) (info : Cpuinfo) (available : List Nat) (ncpus : Nat) : Option (List Nat) :=
  if (cores_of cfg info available).length < needed_of cfg info ncpus then none
  else
    let p := if cfg.use_hyperthreads then take_cores info.threads (empty_cores info available) (start cfg info available ncpus)
      else start cfg info available ncpus
    if p.needed = 0 then some p.assigned
    else if p.needed ≤ p.cores.length then some (p.assigned ++ (sorted p.cores).take p.needed)
    else none

def number (n : Nat) : List Char := Nat.toDigits 10 n

def dev_entry (dev : Device) (minor : Nat) : List Char :=
  dev.type ++ ' ' :: number dev.major ++ ':' :: number minor ++ " rwm".toList

inductive Kind
  | mic
  | gpu

/-- The minor numbers of the controllers a device needs. -/
def Kind.controllers : Kind → List Nat
  | .mic => [0, 1]
  | .gpu => [255]

/-- `if entry not in device_allowed: device_allowed.append(entry)`. -/
def allow (allowed : List (List Char)) (entry : List Char) : List (List Char) :=
  if allowed.contains entry then allowed else allowed ++ [entry]

/-- The body of the loop of `_assign_devices`. -/
def assign_device (kind : Kind) (s : List (List Char) × List (List Char)) (dev : Device) :
    List (List Char) × List (List Char) :=
  if s.1.contains dev.name ∨ s.2.contains (dev_entry dev dev.minor) then s
  else (s.1 ++ [dev.name], allow (kind.controllers.foldl (fun l m => allow l (dev_entry dev m)) s.2) (dev_entry dev dev.minor))

/-- `_assign_devices`. -/
def assign_devices (kind : Kind) (device_list : List Device) (device_count : Nat) :
    List (List Char) × List (List Char) :=
  (device_list.take device_count).foldl (assign_device kind) ([], [])

/-- The devices whose name has the pattern in it. -/
def named (pattern : String) (devices : List Device) : List Device :=
  devices.filter fun d => pattern.toList <:+: d.name

/-- The part of `_assign_resources` about the devices of a kind. -/
def with_devices (kind : Kind) (pattern : String) (count : Option Nat) (available : Resources) (a : Assigned) :
    Option Assigned :=
  match count with
  | none | some 0 => some a
  | some n =>
    if (named pattern available.devices).length < n then none
    else
      let (names, devices) := assign_devices kind (named pattern available.devices) n
      some { a with device_names := a.device_names ++ names, devices := a.devices ++ devices }

/-- The part of `_assign_resources` about memory. -/
def with_memory (mem : Option Nat) (available : Resources) (a : Assigned) : Option Assigned :=
  match mem with
  | none => some a
  | some req_mem => if available.memory < req_mem then none else some { a with mem := some (a.mem.getD 0 + req_mem) }

/-- The part of `_assign_resources` about CPUs. -/
def with_cpus (cfg : Config) (info : Cpuinfo) (ncpus : Option Nat) (available : Resources) (socketlist : List Nat) :
    Option Assigned :=
  match ncpus with
  | none | some 0 => some ⟨[], [], [], [], none⟩
  | some n => (assign_cpus cfg info available.cpus n).map fun cpus => ⟨cpus, socketlist, [], [], none⟩

/-- Memory, GPUs and MICs need the sockets as well. -/
def with_mems (requested : Request) (socketlist : List Nat) (a : Assigned) : Assigned :=
  if requested.mem.isSome ∨ requested.ngpus.isSome ∨ requested.nmics.isSome then { a with mems := socketlist } else a

/-- `_assign_resources`. -/
def assign_resources (cfg : Config) (info : Cpuinfo) (requested : Request) (available : Resources)
    (socketlist : List Nat) : Option Assigned := do
  let a ← with_cpus cfg info requested.ncpus available socketlist
  let a := with_mems requested socketlist a
  let a ← with_devices .mic "mic" requested.nmics available a
  let a ← with_devices .gpu "nvidia" requested.ngpus available a
  with_memory requested.mem available a

/-! ## The node's sockets -/

/-- What a job has, read from its cgroups. -/
structure JobResources where
  /-- `cpuset`, with `cpus` and `mems`. -/
  cpus : List Nat
  mems : List Nat
  /-- `memory`, with `limit_in_bytes`. -/
  limit_in_bytes : Option Nat
  /-- The key `cpuset.mems`, which is not one of those read from the cgroups. -/
  cpuset_mems : Option (List Nat)

/-- `available` before other jobs' resources are removed. -/
def node_resources (node : Node) : List (Nat × Resources) :=
  node.numa_nodes.map fun n => (n.1, ⟨n.2.cpus, node.devices.filter (·.numa_node = n.1), n.2.memory⟩)

/-- `available[socket]` changed. -/
def update (available : List (Nat × Resources)) (socket : Nat) (f : Resources → Resources) : List (Nat × Resources) :=
  available.map fun e => if e.1 = socket then (e.1, f e.2) else e

def remove_cpu (available : List (Nat × Resources)) (socket cpu : Nat) : List (Nat × Resources) :=
  update available socket fun r => { r with cpus := r.cpus.erase cpu }

/-- The processors are no longer free on these sockets. -/
def remove_cpus (available : List (Nat × Resources)) (sockets cpus : List Nat) : List (Nat × Resources) :=
  sockets.foldl (fun available socket => cpus.foldl (fun available cpu => remove_cpu available socket cpu) available) available

def remove_memory (available : List (Nat × Resources)) (sockets : List Nat) (memory : Nat) : List (Nat × Resources) :=
  match sockets with
  | [socket] => update available socket fun r => if memory ≤ r.memory then { r with memory := r.memory - memory } else r
  | _ => available

/-- What a job has is not available to another. -/
def remove_job (available : List (Nat × Resources)) (jra : JobResources) : List (Nat × Resources) :=
  remove_memory (remove_cpus available jra.mems jra.cpus) jra.mems (jra.limit_in_bytes.getD 0)

/-- `available_node_resources`. -/
def available_node_resources (node : Node) (assigned_resources : List (List Char × JobResources))
    (suspended : List Char → Bool) (exclude_jobid : Option (List Char)) : List (Nat × Resources) :=
  (assigned_resources.filter fun j => some j.1 ≠ exclude_jobid ∧ suspended j.1 = false).foldl
    (fun available j => remove_job available j.2) (node_resources node)

/-- What a job asks of the host, and of each vnode when the scheduler has
chosen them; a vnode is its number. -/
structure Hostresc where
  request : Request
  vnodes : List (Nat × Request)
  sockets : (vnodes.map Prod.fst).Nodup

/-- The NUMA nodes with neither CPUs nor devices. -/
def memory_only_nodes (node : Node) : List Nat := (node.numa_nodes.filter fun n => n.2.cpus = []).map Prod.fst

/-- Resources on one socket; its number and the memory-only nodes are appended to `cpuset.mems`. -/
def assign_socket (cfg : Config) (node : Node) (available : List (Nat × Resources)) (socket : Nat) (req : Request) :
    Option Assigned := do
  let resources ← available.lookup socket
  let new ← assign_resources cfg node.cpuinfo req resources [socket]
  let mems := new.mems ++ [socket]
  return { new with mems := mems ++ (memory_only_nodes node).filter (· ∉ mems) }

/-- `jobcount` of a socket. -/
def jobcount (assigned_resources : List (List Char × JobResources)) (socket : Nat) : Nat :=
  (assigned_resources.flatMap fun j => j.2.cpuset_mems.getD []).count socket

/-- The sockets in the order they are tried. -/
def socket_order (cfg : Config) (assigned_resources : List (List Char × JobResources)) (sockets : List Nat) : List Nat :=
  if cfg.load_balanced then
    sockets.insertionSort fun s t => jobcount assigned_resources s ≤ jobcount assigned_resources t
  else sockets

/-- `_combine_resources` over the sockets. -/
def combine_available (available : List (Nat × Resources)) : Resources where
  cpus := available.flatMap (·.2.cpus)
  devices := available.flatMap (·.2.devices)
  memory := (available.map (·.2.memory)).foldl (· + ·) 0

/-- `_combine_resources` over the vnodes, with the lists sorted. -/
def combine_assigned (l : List Assigned) : Assigned where
  cpus := sorted (l.flatMap (·.cpus))
  mems := sorted (l.flatMap (·.mems))
  device_names := (l.flatMap (·.device_names)).insertionSort (· ≤ ·)
  devices := (l.flatMap (·.devices)).insertionSort (· ≤ ·)
  mem := if l.any (·.mem.isSome) then some ((l.map (·.mem.getD 0)).foldl (· + ·) 0) else none

/-- `assign_job`. -/
def assign_job (cfg : Config) (node : Node) (assigned_resources : List (List Char × JobResources)) (requested : Hostresc)
    (available : List (Nat × Resources)) : Option Assigned :=
  if requested.vnodes ≠ [] then
    (requested.vnodes.mapM fun v => assign_socket cfg node available v.1 v.2).map combine_assigned
  else
    let sockets := socket_order cfg assigned_resources (available.map Prod.fst)
    match sockets.findSome? fun socket => assign_socket cfg node available socket requested.request with
    | some new => some new
    | none => assign_resources cfg node.cpuinfo requested.request
        (combine_available (sockets.filterMap fun s => (available.lookup s).map (s, ·))) sockets

/-! ## The loops over the threads -/

theorem perm_sorted (l : List Nat) : (sorted l).Perm l := List.perm_insertionSort _ l

theorem mem_sorted {l : List Nat} {n : Nat} : n ∈ sorted l ↔ n ∈ l := (perm_sorted l).mem_iff

/-- The CPUs assigned and the cores left are the cores at the beginning, and
as many are assigned as are no longer needed. -/
structure Progress.Splits (p : Progress) (cores : List Nat) (needed : Nat) : Prop where
  perm : (p.assigned ++ p.cores).Perm cores
  count : p.assigned.length + p.needed = needed

theorem splits_take_threads {cores : List Nat} {needed : Nat} {threads : List Nat} (hthreads : threads ⊆ cores) :
    ∀ {p : Progress}, p.Splits cores needed → 0 < p.needed → (take_threads threads p).Splits cores needed := by
  induction threads with
  | nil => exact fun h _ => h
  | cons thread threads ih =>
    intro p h hneeded
    obtain ⟨hthread, hrest⟩ := List.cons_subset.1 hthreads
    rw [take_threads]
    split_ifs with hmem
    · exact ih hrest h hneeded
    · -- a thread that is not assigned yet is still a core
      have hcore : thread ∈ p.cores := (List.mem_append.1 (h.perm.mem_iff.2 hthread)).resolve_left hmem
      have hsplits : (⟨p.assigned ++ [thread], p.needed - 1, p.cores.erase thread⟩ : Progress).Splits cores needed := by
        refine ⟨?_, ?_⟩
        · rw [List.append_assoc, List.singleton_append]
          exact ((List.perm_cons_erase hcore).symm.append_left p.assigned).trans h.perm
        · have hcount := h.count
          simp only [List.length_append, List.length_singleton]
          omega
      dsimp only
      split_ifs with hdone
      · exact hsplits
      · exact ih hrest hsplits (Nat.pos_of_ne_zero hdone)

theorem splits_take_cores {cores : List Nat} {needed : Nat} {threads : Nat → List Nat} {l : List Nat}
    (hthreads : ∀ c ∈ l, threads c ⊆ cores) :
    ∀ {p : Progress}, p.Splits cores needed → 0 < p.needed → (take_cores threads l p).Splits cores needed := by
  induction l with
  | nil => exact fun h _ => h
  | cons corenum l ih =>
    intro p h hneeded
    have hstep := splits_take_threads (hthreads corenum List.mem_cons_self) h hneeded
    rw [take_cores]
    split_ifs with hdone
    · exact hstep
    · exact ih (fun c hc => hthreads c (List.mem_cons_of_mem _ hc)) hstep (Nat.pos_of_ne_zero hdone)

/-! ## The CPUs assigned -/

theorem mem_cores_of {cfg : Config} {info : Cpuinfo} {available : List Nat} {c : Nat} :
    c ∈ cores_of cfg info available ↔ c ∈ available ∧ (cfg.use_hyperthreads = false → c ∉ info.hyperthreads) := by
  unfold cores_of
  cases cfg.use_hyperthreads <;> simp

theorem nodup_cores_of (cfg : Config) (info : Cpuinfo) (available : List Nat) : (cores_of cfg info available).Nodup := by
  unfold cores_of
  split_ifs
  · exact List.nodup_dedup _
  · exact (List.nodup_dedup _).filter _

theorem threads_of_empty_core {info : Cpuinfo} {available : List Nat} {c : Nat} (h : c ∈ empty_cores info available) :
    c ∈ available ∧ c ∉ info.hyperthreads ∧ info.threads c ⊆ available := by
  rw [empty_cores, List.mem_filter, mem_sorted, List.mem_dedup] at h
  simpa using h

theorem splits_start (cfg : Config) (info : Cpuinfo) (available : List Nat) (ncpus : Nat) :
    (start cfg info available ncpus).Splits (cores_of cfg info available) (needed_of cfg info ncpus) :=
  ⟨.refl _, Nat.zero_add _⟩

/-- Where the loops over the empty cores stop. -/
def progress (cfg : Config) (info : Cpuinfo) (available : List Nat) (ncpus : Nat) : Progress :=
  if cfg.use_hyperthreads then take_cores info.threads (empty_cores info available) (start cfg info available ncpus)
  else start cfg info available ncpus

theorem splits_progress (cfg : Config) (info : Cpuinfo) (available : List Nat) {ncpus : Nat}
    (h : 0 < needed_of cfg info ncpus) :
    (progress cfg info available ncpus).Splits (cores_of cfg info available) (needed_of cfg info ncpus) := by
  unfold progress
  split_ifs with hhyper
  · apply splits_take_cores _ (splits_start cfg info available ncpus) h
    intro c hc t ht
    exact mem_cores_of.2 ⟨(threads_of_empty_core hc).2.2 ht, fun hno => by simp [hhyper] at hno⟩
  · exact splits_start cfg info available ncpus

/-- What the job gets is part of the free cores, as many as it needs; it gets
them exactly if there are that many. -/
theorem assign_cpus_spec (cfg : Config) (info : Cpuinfo) (available : List Nat) {ncpus : Nat}
    (h : 0 < needed_of cfg info ncpus) :
    (∀ cpus, assign_cpus cfg info available ncpus = some cpus →
      cpus.length = needed_of cfg info ncpus ∧ ∃ rest, (cpus ++ rest).Perm (cores_of cfg info available)) ∧
    ((assign_cpus cfg info available ncpus).isSome = true ↔
      needed_of cfg info ncpus ≤ (cores_of cfg info available).length) := by
  have hsplits := splits_progress cfg info available h
  have hlength := hsplits.perm.length_eq
  have hcount := hsplits.count
  rw [List.length_append] at hlength
  have hassign : assign_cpus cfg info available ncpus =
      if (cores_of cfg info available).length < needed_of cfg info ncpus then none
      else if (progress cfg info available ncpus).needed = 0 then some (progress cfg info available ncpus).assigned
      else if (progress cfg info available ncpus).needed ≤ (progress cfg info available ncpus).cores.length then
        some ((progress cfg info available ncpus).assigned ++
          (sorted (progress cfg info available ncpus).cores).take (progress cfg info available ncpus).needed)
      else none := rfl
  generalize progress cfg info available ncpus = p at hsplits hlength hcount hassign
  rw [hassign]
  by_cases hfew : (cores_of cfg info available).length < needed_of cfg info ncpus
  · rw [if_pos hfew]
    refine ⟨?_, by simpa using hfew⟩
    rintro cpus ⟨⟩
  · rw [if_neg hfew]
    by_cases hdone : p.needed = 0
    · rw [if_pos hdone]
      refine ⟨?_, by simpa using hfew⟩
      rintro cpus ⟨⟩
      exact ⟨by omega, p.cores, hsplits.perm⟩
    · -- what is still needed is left: the last refusal of the code is never reached
      have henough : p.needed ≤ p.cores.length := by omega
      rw [if_neg hdone, if_pos henough]
      refine ⟨?_, by simpa using hfew⟩
      rintro cpus ⟨⟩
      refine ⟨?_, (sorted p.cores).drop p.needed, ?_⟩
      · rw [List.length_append, List.length_take, (perm_sorted p.cores).length_eq]
        omega
      · rw [List.append_assoc, List.take_append_drop]
        exact ((perm_sorted p.cores).append_left p.assigned).trans hsplits.perm

/-! ## One socket -/

theorem cpus_of_with_devices {kind : Kind} {pattern : String} {count : Option Nat} {available : Resources} {a a' : Assigned}
    (h : with_devices kind pattern count available a = some a') : a'.cpus = a.cpus ∧ a'.mems = a.mems := by
  unfold with_devices at h
  split at h
  · cases h
    exact ⟨rfl, rfl⟩
  · cases h
    exact ⟨rfl, rfl⟩
  · split_ifs at h
    cases h
    exact ⟨rfl, rfl⟩

theorem cpus_of_with_memory {mem : Option Nat} {available : Resources} {a a' : Assigned}
    (h : with_memory mem available a = some a') : a'.cpus = a.cpus ∧ a'.mems = a.mems := by
  unfold with_memory at h
  split at h
  · cases h
    exact ⟨rfl, rfl⟩
  · split_ifs at h
    cases h
    exact ⟨rfl, rfl⟩

theorem cpus_of_with_mems (requested : Request) (socketlist : List Nat) (a : Assigned) :
    (with_mems requested socketlist a).cpus = a.cpus ∧
      (a.mems = socketlist → (with_mems requested socketlist a).mems = socketlist) := by
  unfold with_mems
  split_ifs
  · exact ⟨rfl, fun _ => rfl⟩
  · exact ⟨rfl, id⟩

/-- The CPUs are those of `assign_cpus`, with the sockets in `cpuset.mems`. -/
theorem cpus_of_assign_resources {cfg : Config} {info : Cpuinfo} {requested : Request} {available : Resources}
    {socketlist : List Nat} {a : Assigned} (h : assign_resources cfg info requested available socketlist = some a) :
    a.cpus = [] ∨ ∃ n, requested.ncpus = some n ∧ 0 < n ∧ assign_cpus cfg info available.cpus n = some a.cpus ∧
      a.mems = socketlist := by
  unfold assign_resources at h
  obtain ⟨a₀, hstart, h⟩ := Option.bind_eq_some_iff.1 h
  obtain ⟨a₁, hmic, h⟩ := Option.bind_eq_some_iff.1 h
  obtain ⟨a₂, hgpu, hmem⟩ := Option.bind_eq_some_iff.1 h
  obtain ⟨hcpus₀, hmems₀⟩ := cpus_of_with_mems requested socketlist a₀
  obtain ⟨hcpus₁, hmems₁⟩ := cpus_of_with_devices hmic
  obtain ⟨hcpus₂, hmems₂⟩ := cpus_of_with_devices hgpu
  obtain ⟨hcpus₃, hmems₃⟩ := cpus_of_with_memory hmem
  have hcpus : a.cpus = a₀.cpus := hcpus₃.trans (hcpus₂.trans (hcpus₁.trans hcpus₀))
  unfold with_cpus at hstart
  split at hstart
  · cases hstart
    exact .inl hcpus
  · cases hstart
    exact .inl hcpus
  · rename_i n hzero hn
    obtain ⟨got, hgot, rfl⟩ := Option.map_eq_some_iff.1 hstart
    refine .inr ⟨n, hn, Nat.pos_of_ne_zero fun h0 => hzero (h0 ▸ rfl), hcpus ▸ hgot, ?_⟩
    exact hmems₃.trans (hmems₂.trans (hmems₁.trans (hmems₀ rfl)))

theorem needed_pos {cfg : Config} {info : Cpuinfo} (hinfo : 0 < info.hyperthreads_per_core) {n : Nat} (h : 0 < n) : 0 < needed_of cfg info n := by
  unfold needed_of
  split_ifs
  · exact Nat.mul_pos h hinfo
  · exact h

/-- On sockets with the free CPUs `available.cpus`. -/
theorem assign_resources_spec {cfg : Config} {info : Cpuinfo} (hinfo : 0 < info.hyperthreads_per_core) {requested : Request}
    {available : Resources} {socketlist : List Nat} {a : Assigned}
    (h : assign_resources cfg info requested available socketlist = some a) :
    a.cpus.Nodup ∧ ∀ c ∈ a.cpus, c ∈ cores_of cfg info available.cpus ∧ a.mems = socketlist := by
  rcases cpus_of_assign_resources h with hnil | ⟨n, -, hn, hcpus, hmems⟩
  · simp [hnil]
  · obtain ⟨-, rest, hperm⟩ := (assign_cpus_spec cfg info available.cpus (needed_pos hinfo hn)).1 a.cpus hcpus
    have hnodup : (a.cpus ++ rest).Nodup := hperm.nodup_iff.2 (nodup_cores_of cfg info available.cpus)
    exact ⟨hnodup.of_append_left, fun c hc => ⟨hperm.mem_iff.1 (List.mem_append_left rest hc), hmems⟩⟩

/-! ## The sockets of a node -/

/-- No CPU is on two sockets. -/
def Apart (available : List (Nat × Resources)) : Prop :=
  ∀ s ∈ available, ∀ t ∈ available, ∀ c ∈ s.2.cpus, c ∈ t.2.cpus → s.1 = t.1

theorem mem_of_lookup {available : List (Nat × Resources)} {s : Nat} {r : Resources} (h : available.lookup s = some r) :
    (s, r) ∈ available := by
  rw [List.lookup_eq_some_iff] at h
  obtain ⟨l, l', rfl, -⟩ := h
  simp

theorem mem_combine_available {available : List (Nat × Resources)} {c : Nat} :
    c ∈ (combine_available available).cpus ↔ ∃ s ∈ available, c ∈ s.2.cpus := by
  simp [combine_available]

/-- A CPU of the assignment is free on a socket in `cpuset.mems`, and no
hyperthread if these are not used. -/
def Assigned.Fits (a : Assigned) (cfg : Config) (info : Cpuinfo) (available : List (Nat × Resources)) : Prop :=
  ∀ c ∈ a.cpus, (∃ s ∈ available, s.1 ∈ a.mems ∧ c ∈ s.2.cpus) ∧ (cfg.use_hyperthreads = false → c ∉ info.hyperthreads)

theorem assign_socket_spec {cfg : Config} {node : Node} {available : List (Nat × Resources)}
    {socket : Nat} {req : Request} {a : Assigned} (h : assign_socket cfg node available socket req = some a) :
    a.cpus.Nodup ∧ a.Fits cfg node.cpuinfo available ∧ ∀ c ∈ a.cpus, ∃ r, (socket, r) ∈ available ∧ c ∈ r.cpus := by
  unfold assign_socket at h
  obtain ⟨resources, hlookup, h⟩ := Option.bind_eq_some_iff.1 h
  obtain ⟨new, hnew, h⟩ := Option.bind_eq_some_iff.1 h
  cases h
  have hmem := mem_of_lookup hlookup
  obtain ⟨hnodup, hcpus⟩ := assign_resources_spec node.counted hnew
  refine ⟨hnodup, fun c hc => ?_, fun c hc => ⟨resources, hmem, (mem_cores_of.1 (hcpus c hc).1).1⟩⟩
  obtain ⟨hfree, hhyper⟩ := mem_cores_of.1 (hcpus c hc).1
  exact ⟨⟨(socket, resources), hmem, by simp, hfree⟩, hhyper⟩

theorem perm_socket_order (cfg : Config) (assigned_resources : List (List Char × JobResources)) (sockets : List Nat) :
    (socket_order cfg assigned_resources sockets).Perm sockets := by
  unfold socket_order
  split_ifs
  · exact List.perm_insertionSort _ _
  · exact .refl _

theorem nodup_combine_assigned {available : List (Nat × Resources)} (hapart : Apart available) {cfg : Config} {node : Node} :
    ∀ {vnodes : List (Nat × Request)} {l : List Assigned}, (vnodes.map Prod.fst).Nodup →
    vnodes.mapM (fun v => assign_socket cfg node available v.1 v.2) = some l →
    (l.flatMap (·.cpus)).Nodup ∧ ∀ c ∈ l.flatMap (·.cpus), ∃ v ∈ vnodes, ∃ r, (v.1, r) ∈ available ∧ c ∈ r.cpus := by
  intro vnodes
  induction vnodes with
  | nil =>
    intro l _ h
    cases h
    simp
  | cons v vnodes ih =>
    intro l hnodup h
    rw [List.mapM_cons] at h
    obtain ⟨a, ha, h⟩ := Option.bind_eq_some_iff.1 h
    obtain ⟨l', hl', h⟩ := Option.bind_eq_some_iff.1 h
    cases h
    obtain ⟨hv, hnodup'⟩ := List.nodup_cons.1 hnodup
    obtain ⟨hcpus, -, hsocket⟩ := assign_socket_spec ha
    obtain ⟨hrest, hsockets⟩ := ih hnodup' hl'
    rw [List.flatMap_cons]
    refine ⟨hcpus.append hrest ?_, ?_⟩
    · -- a CPU of two vnodes would be on two sockets
      intro c hc hc'
      obtain ⟨r, hr, hcr⟩ := hsocket c hc
      obtain ⟨w, hw, r', hr', hcr'⟩ := hsockets c hc'
      have hsame : v.1 = w.1 := hapart _ hr _ hr' c hcr hcr'
      exact hv (hsame ▸ List.mem_map_of_mem hw)
    · intro c hc
      rcases List.mem_append.1 hc with hc | hc
      · exact ⟨v, List.mem_cons_self, hsocket c hc⟩
      · obtain ⟨w, hw, hr⟩ := hsockets c hc
        exact ⟨w, List.mem_cons_of_mem v hw, hr⟩

theorem fits_combine_assigned {cfg : Config} {info : Cpuinfo} {available : List (Nat × Resources)} {l : List Assigned}
    (h : ∀ a ∈ l, a.Fits cfg info available) : (combine_assigned l).Fits cfg info available := by
  intro c hc
  rw [combine_assigned, mem_sorted, List.mem_flatMap] at hc
  obtain ⟨a, ha, hc⟩ := hc
  obtain ⟨⟨s, hs, hmems, hcpus⟩, hhyper⟩ := h a ha c hc
  exact ⟨⟨s, hs, mem_sorted.2 (List.mem_flatMap.2 ⟨a, ha, hmems⟩), hcpus⟩, hhyper⟩

/-- Whatever way the job is placed, its CPUs are free ones of its sockets, no
CPU twice. -/
theorem assign_job_spec {cfg : Config} {node : Node}
    {assigned_resources : List (List Char × JobResources)} {requested : Hostresc} {available : List (Nat × Resources)}
    (hapart : Apart available) {a : Assigned}
    (h : assign_job cfg node assigned_resources requested available = some a) :
    a.cpus.Nodup ∧ a.Fits cfg node.cpuinfo available := by
  unfold assign_job at h
  split_ifs at h with hvnodes
  · obtain ⟨l, hl, rfl⟩ := Option.map_eq_some_iff.1 h
    refine ⟨(perm_sorted _).nodup_iff.2 (nodup_combine_assigned hapart requested.sockets hl).1, ?_⟩
    apply fits_combine_assigned
    intro b hb
    obtain ⟨v, -, hv⟩ := (Lib.Objects.mem_mapM_iff hl b).1 hb
    exact (assign_socket_spec hv).2.1
  · dsimp only at h
    split at h
    · rename_i new hnew
      cases h
      obtain ⟨socket, -, hsocket⟩ := List.exists_of_findSome?_eq_some hnew
      obtain ⟨hnodup, hfits, -⟩ := assign_socket_spec hsocket
      exact ⟨hnodup, hfits⟩
    · obtain ⟨hnodup, hcpus⟩ := assign_resources_spec node.counted h
      refine ⟨hnodup, fun c hc => ?_⟩
      obtain ⟨hcore, hmems⟩ := hcpus c hc
      obtain ⟨hfree, hhyper⟩ := mem_cores_of.1 hcore
      obtain ⟨e, he, hce⟩ := mem_combine_available.1 hfree
      obtain ⟨s, hs, hlookup⟩ := List.mem_filterMap.1 he
      obtain ⟨r, hr, rfl⟩ := Option.map_eq_some_iff.1 hlookup
      exact ⟨⟨(s, r), mem_of_lookup hr, hmems ▸ hs, hce⟩, hhyper⟩

/-! ## What other jobs leave -/

def cpus_by_socket (available : List (Nat × Resources)) : List (Nat × List Nat) := available.map fun e => (e.1, e.2.cpus)

/-- The CPUs of the node without those that are taken. -/
def free (node : Node) (taken : Nat → Nat → Bool) : List (Nat × List Nat) :=
  node.numa_nodes.map fun n => (n.1, n.2.cpus.filter fun c => !taken n.1 c)

/-- The job has the CPU, as far as the hook looks for it on the socket. -/
def JobResources.has (jra : JobResources) (socket cpu : Nat) : Bool := socket ∈ jra.mems && cpu ∈ jra.cpus

theorem cpus_nodup {node : Node} {n : Nat × NumaNode} (h : n ∈ node.numa_nodes) : n.2.cpus.Nodup :=
  (List.nodup_flatMap.1 node.cpus).1 n h

theorem cpus_by_socket_update (available : List (Nat × Resources)) (socket : Nat) (f : Resources → Resources) (g : List Nat → List Nat)
    (h : ∀ r, (f r).cpus = g r.cpus) :
    cpus_by_socket (update available socket f) =
      (cpus_by_socket available).map fun e => if e.1 = socket then (e.1, g e.2) else e := by
  simp only [cpus_by_socket, update, List.map_map]
  apply List.map_congr_left
  intro e _
  by_cases he : e.1 = socket <;> simp [he, h]

theorem free_remove_cpu {node : Node} {taken : Nat → Nat → Bool} {available : List (Nat × Resources)}
    (h : cpus_by_socket available = free node taken) (socket cpu : Nat) :
    cpus_by_socket (remove_cpu available socket cpu) = free node fun s c => taken s c || (s = socket && c = cpu) := by
  rw [remove_cpu, cpus_by_socket_update available socket _ (·.erase cpu) fun _ => rfl, h, free, free, List.map_map]
  apply List.map_congr_left
  intro n hn
  by_cases hsocket : n.1 = socket
  · have hnodup : (n.2.cpus.filter fun c => !taken n.1 c).Nodup := (cpus_nodup hn).filter _
    simp only [Function.comp_apply, hsocket, if_true, decide_true, Bool.true_and]
    rw [hsocket] at hnodup
    rw [hnodup.erase_eq_filter, List.filter_filter]
    congr 2
    funext c
    cases taken socket c <;> simp [bne, beq_eq_decide]
  · simp [hsocket]

theorem free_remove_cpus {node : Node} (sockets cpus : List Nat) : ∀ {taken : Nat → Nat → Bool}
    {available : List (Nat × Resources)}, cpus_by_socket available = free node taken →
    cpus_by_socket (remove_cpus available sockets cpus) = free node fun s c => taken s c || (s ∈ sockets && c ∈ cpus) := by
  have hcpus : ∀ (socket : Nat) (cpus : List Nat) {taken : Nat → Nat → Bool} {available : List (Nat × Resources)},
      cpus_by_socket available = free node taken →
      cpus_by_socket (cpus.foldl (fun available cpu => remove_cpu available socket cpu) available) =
        free node fun s c => taken s c || (s = socket && c ∈ cpus) := by
    intro socket cpus
    induction cpus with
    | nil =>
      intro taken available h
      simpa using h
    | cons cpu cpus ih =>
      intro taken available h
      rw [List.foldl_cons, ih (free_remove_cpu h socket cpu)]
      congr 1
      funext s c
      cases taken s c <;> cases decide (s = socket) <;> simp
  induction sockets with
  | nil =>
    intro taken available h
    simpa [remove_cpus] using h
  | cons socket sockets ih =>
    intro taken available h
    rw [remove_cpus, List.foldl_cons]
    refine (ih (hcpus socket cpus h)).trans ?_
    congr 1
    funext s c
    cases taken s c <;> cases decide (c ∈ cpus) <;> simp

theorem free_remove_memory {node : Node} {taken : Nat → Nat → Bool} {available : List (Nat × Resources)}
    (h : cpus_by_socket available = free node taken) (sockets : List Nat) (memory : Nat) :
    cpus_by_socket (remove_memory available sockets memory) = free node taken := by
  unfold remove_memory
  split
  · rename_i socket
    rw [cpus_by_socket_update available socket _ id fun r => by split_ifs <;> rfl, h]
    simp
  · exact h

theorem free_remove_jobs {node : Node} (jobs : List (List Char × JobResources)) : ∀ {taken : Nat → Nat → Bool}
    {available : List (Nat × Resources)}, cpus_by_socket available = free node taken →
    cpus_by_socket (jobs.foldl (fun available j => remove_job available j.2) available) =
      free node fun s c => taken s c || jobs.any fun j => j.2.has s c := by
  induction jobs with
  | nil =>
    intro taken available h
    simpa using h
  | cons j jobs ih =>
    intro taken available h
    rw [List.foldl_cons]
    refine (ih (free_remove_memory (free_remove_cpus j.2.mems j.2.cpus h) _ _)).trans ?_
    congr 1
    funext s c
    simp [JobResources.has, Bool.or_assoc]

/-- The jobs whose resources are not available. -/
def holding (assigned_resources : List (List Char × JobResources)) (suspended : List Char → Bool)
    (exclude_jobid : Option (List Char)) : List (List Char × JobResources) :=
  assigned_resources.filter fun j => some j.1 ≠ exclude_jobid ∧ suspended j.1 = false

/-- What is available on the sockets are the CPUs no other job has. -/
theorem available_node_resources_spec (node : Node) (assigned_resources : List (List Char × JobResources))
    (suspended : List Char → Bool) (exclude_jobid : Option (List Char)) :
    cpus_by_socket (available_node_resources node assigned_resources suspended exclude_jobid) =
      free node fun s c => (holding assigned_resources suspended exclude_jobid).any fun j => j.2.has s c := by
  have hstart : cpus_by_socket (node_resources node) = free node fun _ _ => false := by
    simp [cpus_by_socket, node_resources, free]
  rw [available_node_resources, free_remove_jobs _ hstart]
  simp [holding]

/-- A free CPU is one of the node's, and no other job has it. -/
theorem mem_available {node : Node} {assigned_resources : List (List Char × JobResources)} {suspended : List Char → Bool}
    {exclude_jobid : Option (List Char)} {e : Nat × Resources}
    (he : e ∈ available_node_resources node assigned_resources suspended exclude_jobid) {c : Nat} (hc : c ∈ e.2.cpus) :
    (∃ n, (e.1, n) ∈ node.numa_nodes ∧ c ∈ n.cpus) ∧
      ∀ j ∈ holding assigned_resources suspended exclude_jobid, j.2.has e.1 c = false := by
  have hview : (e.1, e.2.cpus) ∈ cpus_by_socket (available_node_resources node assigned_resources suspended exclude_jobid) :=
    List.mem_map_of_mem he
  rw [available_node_resources_spec, free, List.mem_map] at hview
  obtain ⟨n, hn, heq⟩ := hview
  obtain ⟨hsocket, hcpus⟩ := Prod.mk.inj heq
  rw [← hcpus, List.mem_filter] at hc
  obtain ⟨hcpu, hfree⟩ := hc
  refine ⟨⟨n.2, hsocket ▸ hn, hcpu⟩, fun j hj => ?_⟩
  rw [← hsocket]
  simp only [Bool.not_eq_true', List.any_eq_false] at hfree
  simpa using hfree j hj

theorem socket_unique {node : Node} {s t : Nat × NumaNode} (hs : s ∈ node.numa_nodes) (ht : t ∈ node.numa_nodes) {c : Nat}
    (hcs : c ∈ s.2.cpus) (hct : c ∈ t.2.cpus) : s = t := by
  by_contra hne
  have hsymm : Std.Symm (Function.onFun List.Disjoint fun n : Nat × NumaNode => n.2.cpus) := ⟨fun _ _ h => h.symm⟩
  exact (List.nodup_flatMap.1 node.cpus).2.forall hs ht hne hcs hct

theorem apart_available (node : Node) (assigned_resources : List (List Char × JobResources)) (suspended : List Char → Bool)
    (exclude_jobid : Option (List Char)) :
    Apart (available_node_resources node assigned_resources suspended exclude_jobid) := by
  intro s hs t ht c hcs hct
  obtain ⟨⟨n, hn, hcn⟩, -⟩ := mem_available hs hcs
  obtain ⟨⟨m, hm, hcm⟩, -⟩ := mem_available ht hct
  exact (Prod.mk.inj (socket_unique hn hm hcn hcm)).1

/-! ## When a job fits -/

theorem lookup_keys {available : List (Nat × Resources)} (h : (available.map Prod.fst).Nodup) :
    ((available.map Prod.fst).filterMap fun s => (available.lookup s).map (s, ·)) = available := by
  induction available with
  | nil => rfl
  | cons e available ih =>
    obtain ⟨he, hrest⟩ := List.nodup_cons.1 h
    have htail : ((available.map Prod.fst).filterMap fun s => ((e :: available).lookup s).map (s, ·)) =
        (available.map Prod.fst).filterMap fun s => (available.lookup s).map (s, ·) := by
      apply List.filterMap_congr
      intro s hs
      have hne : (s == e.1) = false := beq_eq_false_iff_ne.2 (ne_of_mem_of_not_mem hs he)
      rw [List.lookup_cons, hne]
    rw [List.map_cons, List.filterMap_cons, htail, ih hrest, List.lookup_cons_self]
    rfl

/-- The sockets together have the CPUs of all sockets. -/
theorem perm_combine (cfg : Config) (assigned_resources : List (List Char × JobResources))
    {available : List (Nat × Resources)} (h : (available.map Prod.fst).Nodup) :
    ((socket_order cfg assigned_resources (available.map Prod.fst)).filterMap
      fun s => (available.lookup s).map (s, ·)).Perm available := by
  have hperm := (perm_socket_order cfg assigned_resources (available.map Prod.fst)).filterMap
    fun s => (available.lookup s).map (s, ·)
  rwa [lookup_keys h] at hperm

/-- A request for CPUs and nothing else. -/
def cpusOnly (n : Nat) : Request := ⟨some n, none, none, none⟩

theorem assign_resources_cpusOnly (cfg : Config) (info : Cpuinfo) {n : Nat} (hn : 0 < n) (available : Resources)
    (socketlist : List Nat) : assign_resources cfg info (cpusOnly n) available socketlist =
      (assign_cpus cfg info available.cpus n).map fun cpus => ⟨cpus, socketlist, [], [], none⟩ := by
  obtain ⟨m, rfl⟩ := Nat.exists_eq_succ_of_ne_zero hn.ne'
  cases hcpus : assign_cpus cfg info available.cpus (m + 1) <;>
    simp [assign_resources, with_cpus, cpusOnly, hcpus, with_mems, with_devices, with_memory]

theorem length_cores_of_le {cfg : Config} {info : Cpuinfo} {l l' : List Nat} (h : ∀ c ∈ l, c ∈ l') :
    (cores_of cfg info l).length ≤ (cores_of cfg info l').length := by
  apply List.Subperm.length_le
  apply (nodup_cores_of cfg info l).subperm
  intro c hc
  obtain ⟨hmem, hhyper⟩ := mem_cores_of.1 hc
  exact mem_cores_of.2 ⟨h c hmem, hhyper⟩

/-- A job that asks for CPUs on any socket gets them exactly if the sockets
together have that many: it is not refused for being spread. -/
theorem assign_job_isSome_iff {cfg : Config} {node : Node}
    (assigned_resources : List (List Char × JobResources)) {available : List (Nat × Resources)}
    (hkeys : (available.map Prod.fst).Nodup) {requested : Hostresc} (hvnodes : requested.vnodes = []) {n : Nat}
    (hn : 0 < n) (hreq : requested.request = cpusOnly n) :
    (assign_job cfg node assigned_resources requested available).isSome = true ↔
      needed_of cfg node.cpuinfo n ≤ (cores_of cfg node.cpuinfo (combine_available available).cpus).length := by
  have hneeded : 0 < needed_of cfg node.cpuinfo n := needed_pos node.counted hn
  have hperm := perm_combine cfg assigned_resources hkeys
  have hcpus : (cores_of cfg node.cpuinfo (combine_available ((socket_order cfg assigned_resources
      (available.map Prod.fst)).filterMap fun s => (available.lookup s).map (s, ·))).cpus).length =
      (cores_of cfg node.cpuinfo (combine_available available).cpus).length := by
    apply Nat.le_antisymm <;> apply length_cores_of_le <;> intro c hc <;>
      rw [mem_combine_available] at hc ⊢ <;> obtain ⟨s, hs, hcs⟩ := hc
    · exact ⟨s, hperm.mem_iff.1 hs, hcs⟩
    · exact ⟨s, hperm.mem_iff.2 hs, hcs⟩
  unfold assign_job
  rw [if_neg (not_not.2 hvnodes), hreq]
  dsimp only
  split
  · rename_i new hnew
    obtain ⟨socket, -, hsocket⟩ := List.exists_of_findSome?_eq_some hnew
    -- what fits on one socket fits on all of them
    obtain ⟨resources, hlookup, hrest⟩ := Option.bind_eq_some_iff.1 hsocket
    obtain ⟨a, ha, -⟩ := Option.bind_eq_some_iff.1 hrest
    rw [assign_resources_cpusOnly cfg node.cpuinfo hn] at ha
    obtain ⟨cpus, hassign, -⟩ := Option.map_eq_some_iff.1 ha
    have hfits := ((assign_cpus_spec cfg node.cpuinfo resources.cpus hneeded).2.1 (by rw [hassign]; rfl)).trans
      (length_cores_of_le fun c hc => mem_combine_available.2 ⟨_, mem_of_lookup hlookup, hc⟩)
    exact ⟨fun _ => hfits, fun _ => rfl⟩
  · rw [assign_resources_cpusOnly cfg node.cpuinfo hn, Option.isSome_map, (assign_cpus_spec cfg node.cpuinfo _ hneeded).2,
      hcpus]

theorem length_of_assign_resources {cfg : Config} {node : Node} {n : Nat} (hn : 0 < n) {available : Resources}
    {socketlist : List Nat} {a : Assigned}
    (h : assign_resources cfg node.cpuinfo (cpusOnly n) available socketlist = some a) :
    a.cpus.length = needed_of cfg node.cpuinfo n := by
  rw [assign_resources_cpusOnly cfg node.cpuinfo hn] at h
  obtain ⟨cpus, hcpus, rfl⟩ := Option.map_eq_some_iff.1 h
  exact ((assign_cpus_spec cfg node.cpuinfo available.cpus (needed_pos node.counted hn)).1 cpus hcpus).1

theorem length_of_assign_job {cfg : Config} {node : Node} {assigned_resources : List (List Char × JobResources)}
    {available : List (Nat × Resources)} {requested : Hostresc} (hvnodes : requested.vnodes = []) {n : Nat} (hn : 0 < n)
    (hreq : requested.request = cpusOnly n) {a : Assigned}
    (h : assign_job cfg node assigned_resources requested available = some a) :
    a.cpus.length = needed_of cfg node.cpuinfo n := by
  unfold assign_job at h
  rw [if_neg (not_not.2 hvnodes), hreq] at h
  dsimp only at h
  split at h
  · rename_i new hnew
    cases h
    obtain ⟨socket, -, hsocket⟩ := List.exists_of_findSome?_eq_some hnew
    obtain ⟨resources, -, hrest⟩ := Option.bind_eq_some_iff.1 hsocket
    obtain ⟨b, hb, hrest⟩ := Option.bind_eq_some_iff.1 hrest
    cases hrest
    have hlength : b.cpus.length = needed_of cfg node.cpuinfo n := length_of_assign_resources hn hb
    exact hlength
  · exact length_of_assign_resources hn h

/-! ## Load balancing -/

/-- The key the jobs are counted by is never there, so the order of the sockets
stays as it is. -/
theorem socket_order_eq {cfg : Config} {assigned_resources : List (List Char × JobResources)}
    (h : ∀ j ∈ assigned_resources, j.2.cpuset_mems = none) (sockets : List Nat) :
    socket_order cfg assigned_resources sockets = sockets := by
  have hcount : ∀ s, jobcount assigned_resources s = 0 := by
    intro s
    have hnil : (assigned_resources.flatMap fun j => j.2.cpuset_mems.getD []) = [] := by
      rw [List.flatMap_eq_nil_iff]
      intro j hj
      rw [h j hj]
      rfl
    rw [jobcount, hnil, List.count_nil]
  unfold socket_order
  split_ifs
  · apply List.Pairwise.insertionSort_eq
    exact List.pairwise_iff_getElem.2 fun i j hi hj _ => by simp [hcount]
  · rfl

theorem assign_job_load_balanced (cfg : Config) (node : Node) {assigned_resources : List (List Char × JobResources)}
    (h : ∀ j ∈ assigned_resources, j.2.cpuset_mems = none) (requested : Hostresc) (available : List (Nat × Resources)) :
    assign_job cfg node assigned_resources requested available =
      assign_job { cfg with load_balanced := false } node assigned_resources requested available := by
  unfold assign_job
  rw [socket_order_eq h, socket_order_eq h]
  rfl

/-! ## Hyperthreads -/

theorem take_threads_spec (threads : List Nat) : ∀ p : Progress,
    p.assigned ⊆ (take_threads threads p).assigned ∧ (take_threads threads p).assigned ⊆ p.assigned ++ threads ∧
      ((take_threads threads p).needed = 0 ∨ threads ⊆ (take_threads threads p).assigned) := by
  induction threads with
  | nil => intro p; simp [take_threads]
  | cons thread threads ih =>
    intro p
    rw [take_threads]
    dsimp only
    split_ifs with hmem hdone
    · obtain ⟨hsub, hfrom, hall⟩ := ih p
      refine ⟨hsub, List.Subset.trans hfrom (by simp), hall.imp_right fun h => ?_⟩
      exact List.cons_subset.2 ⟨hsub hmem, h⟩
    · exact ⟨by simp, by simp, .inl hdone⟩
    · obtain ⟨hsub, hfrom, hall⟩ := ih ⟨p.assigned ++ [thread], p.needed - 1, p.cores.erase thread⟩
      refine ⟨List.Subset.trans (List.subset_append_left _ _) hsub, List.Subset.trans hfrom (by simp), hall.imp_right fun h => ?_⟩
      exact List.cons_subset.2 ⟨hsub (by simp), h⟩

theorem take_cores_spec (threads : Nat → List Nat) (l : List Nat) : ∀ p : Progress,
    p.assigned ⊆ (take_cores threads l p).assigned ∧ (take_cores threads l p).assigned ⊆ p.assigned ++ l.flatMap threads ∧
      ((take_cores threads l p).needed = 0 ∨ l.flatMap threads ⊆ (take_cores threads l p).assigned) := by
  induction l with
  | nil => intro p; simp [take_cores]
  | cons corenum l ih =>
    intro p
    obtain ⟨hsub, hfrom, hall⟩ := take_threads_spec (threads corenum) p
    rw [take_cores, List.flatMap_cons]
    split_ifs with hdone
    · exact ⟨hsub, List.Subset.trans hfrom (by simp), .inl hdone⟩
    · obtain ⟨hsub', hfrom', hall'⟩ := ih (take_threads (threads corenum) p)
      refine ⟨List.Subset.trans hsub hsub', ?_, hall'.imp_right fun h => ?_⟩
      · intro t ht
        rcases List.mem_append.1 (hfrom' ht) with ht | ht
        · rcases List.mem_append.1 (hfrom ht) with ht | ht <;> simp [ht]
        · simp [ht]
      · exact List.append_subset.2 ⟨List.Subset.trans (hall.resolve_left hdone) hsub', h⟩

/-- The threads of a processor are hyperthreads. -/
theorem threads_subset (p : ProcCpuinfo) (c : Nat) : (discover_cpuinfo p).threads c ⊆ (discover_cpuinfo p).hyperthreads := by
  unfold Cpuinfo.threads
  cases hlookup : (discover_cpuinfo p).cpu.lookup c with
  | none => simp
  | some threads =>
    obtain ⟨l, l', hsplit, -⟩ := List.lookup_eq_some_iff.1 hlookup
    have hmem : (c, threads) ∈ (discover_cpuinfo p).cpu := by rw [hsplit]; simp
    unfold discover_cpuinfo at hmem ⊢
    split_ifs at hmem ⊢ with hmapped
    · obtain ⟨x, hx, heq⟩ := List.mem_map.1 hmem
      cases heq
      exact fun t ht => List.mem_flatMap.2 ⟨x, hx, ht⟩
    · obtain ⟨x, hx, heq⟩ := List.mem_map.1 hmem
      cases heq
      simp

/-- Two cores with two threads each. -/
def vizCpuinfo : ProcCpuinfo where
  processors := [⟨0, 0, 0⟩, ⟨1, 0, 0⟩, ⟨2, 0, 1⟩, ⟨3, 0, 1⟩]
  vendor_id := ['G', 'e', 'n', 'u', 'i', 'n', 'e', 'I', 'n', 't', 'e', 'l']
  flags := [['h', 't']]
  siblings := 4
  cpu_cores := 2

/-- A processor's own thread is not in its `threads`, so a core whose threads
are all free gives its hyperthreads away first: a CPU that is no hyperthread is
assigned only with all the hyperthreads of all such cores. -/
theorem first_threads_last {cfg : Config} {p : ProcCpuinfo} (hhyper : cfg.use_hyperthreads = true) {available : List Nat}
    {n : Nat} {cpus : List Nat} (h : assign_cpus cfg (discover_cpuinfo p) available n = some cpus) {c : Nat}
    (hc : c ∈ cpus) (hfirst : c ∉ (discover_cpuinfo p).hyperthreads) :
    ∀ core ∈ empty_cores (discover_cpuinfo p) available, (discover_cpuinfo p).threads core ⊆ cpus := by
  obtain ⟨-, hfrom, hall⟩ := take_cores_spec (discover_cpuinfo p).threads (empty_cores (discover_cpuinfo p) available)
    (start cfg (discover_cpuinfo p) available n)
  unfold assign_cpus at h
  rw [if_pos hhyper] at h
  dsimp only at h
  split_ifs at h with hfew hdone henough
  · -- nothing but threads of the empty cores
    cases h
    have hmem := hfrom hc
    obtain ⟨core, -, ht⟩ := List.mem_flatMap.1 (show c ∈ (empty_cores _ _).flatMap _ from hmem)
    exact absurd (threads_subset p core ht) hfirst
  · cases h
    intro core hcore t ht
    exact List.mem_append_left _ (hall.resolve_left hdone (List.mem_flatMap.2 ⟨core, hcore, ht⟩))

theorem first_threads_last_viz :
    (discover_cpuinfo vizCpuinfo).threads 2 ⊆ [1, 3, 0] := by
  have hassign : assign_cpus ⟨true, false, true, true⟩ (discover_cpuinfo vizCpuinfo) [0, 1, 2, 3] 3 = some [1, 3, 0] := by
    decide
  exact first_threads_last rfl hassign (by decide : 0 ∈ [1, 3, 0]) (by decide) 2 (by decide)

end AzHop.CgroupCpus
