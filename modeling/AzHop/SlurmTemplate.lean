import AzHop.Config
import AzHop.Lib.Objects
import Mathlib.Data.List.Perm.Basic
/-!
# The Slurm cluster template

`azhop-slurm.txt.j2` writes a nodearray for each queue: a first loop over the
login queues, and a second one over all queues that skips them. The second loop
marks the partition of the default queue by the index of the loop, which counts
the queues it skips. `cluster_right_iff` says which lists of queues give the
cluster its default partition.

The templates print booleans as Python does. A template that prints an
undefined value fails, so a rendering is an `Option`.
-/
namespace AzHop.SlurmTemplate
open Lib.Objects (get? mapM_isSome_iff map_of_mapM filter_map_of_mapM mem_mapM_iff)

/-- The lines `name = value` of a section. -/
abbrev Lines := List (String × String)

/-- A `[[nodearray]]` and its `[[[configuration]]]`. -/
structure Nodearray where
  name : String
  attributes : Lines
  configuration : Lines

/-- The nodearray it inherits from. -/
def Nodearray.extends? (a : Nodearray) : Option String := get? a.attributes "Extends"

/-- Its partition. -/
def Nodearray.partition? (a : Nodearray) : Option String := get? a.configuration "slurm.partition"

/-- Its partition is the default one. -/
def Nodearray.isDefault (a : Nodearray) : Bool := get? a.configuration "slurm.default_partition" = some "true"

/-! ## Rendering -/

/-- How a boolean is printed. -/
def pyBool (b : Bool) : String := if b then "True" else "False"

/-- `{% if value is defined %} name = value {% endif %}`. -/
def line? (name : String) (value : Option String) : Lines := (value.map fun v => (name, v)).toList

/-- `cc_image_lookup[name]`, when there is a lookup and it has the name. -/
def imageName (cc_image_lookup : Option Lines) (q : Queue) : String :=
  ((cc_image_lookup.bind (get? · q.name))).getD q.image

/-- The three parts of `plan`. -/
def planLines (q : Queue) : Option Lines :=
  match q.plan with
  | some plan => do
    let publisher ← (plan.splitOn ":")[0]?
    let product ← (plan.splitOn ":")[1]?
    let name ← (plan.splitOn ":")[2]?
    return [("ImagePlan.Publisher", publisher), ("ImagePlan.Product", product), ("ImagePlan.Name", name)]
  | none => some []

/-- The subnet of a queue in another region. -/
def regionLines (q : Queue) : Option Lines :=
  match q.location with
  | some location => q.subnet.map fun subnet => [("SubnetId", subnet), ("Region", location)]
  | none => some []

/-- The lines both loops have, from the number of cores to the region. -/
def machineLines (cc_image_lookup : Option Lines) (q : Queue) : Option Lines := do
  let plan ← planLines q
  let region ← regionLines q
  return line? "MaxCoreCount" (q.max_core_count.map toString) ++ line? "MaxCount" (q.max_count.map toString) ++
    line? "EnableAcceleratedNetworking" (q.EnableAcceleratedNetworking.map pyBool) ++
    line? "Interruptible" (q.spot.map pyBool) ++
    [("Azure.MaxScaleSetSize", toString (q.MaxScaleSetSize.getD 100)),
     ("EphemeralOSDisk", pyBool (q.EphemeralOSDisk.getD false)),
     ("ImageName", imageName cc_image_lookup q)] ++ plan ++ region

/-- The body of the loop over the login queues: `initial_count` has no default. -/
def loginArray (cc_image_lookup : Option Lines) (login : Queue) : Option Nodearray := do
  let initial_count ← login.initial_count
  let machine ← machineLines cc_image_lookup login
  return {
    name := login.name
    attributes := [("InitialCount", toString initial_count), ("MachineType", login.vm_size)] ++ machine
    configuration := [("autoscale.enabled", "false"), ("slurm.use_nodename_as_hostname", "true"),
      ("slurm.node_prefix", "$\x7bStrJoin(\"-\", ClusterName, \"\")\x7d")] }

/-- The body of the loop over the other queues, with `loop.index == 1`. -/
def queueArray (cc_image_lookup : Option Lines) (queue : Queue) (first : Bool) : Option Nodearray := do
  let machine ← machineLines cc_image_lookup queue
  return {
    name := queue.name
    attributes := [("Extends", "nodearraybase"), ("MachineType", queue.vm_size)] ++ machine
    configuration :=
      [("healthchecks.enabled", pyBool (queue.healthchecks.getD true)), ("slurm.partition", queue.name)] ++
      (if first then [("slurm.default_partition", "true")] else []) ++
      [("slurm.hpc", (queue.ColocateNodes.map pyBool).getD "false")] ++
      line? "cyclecloud.cluster.autoscale.idle_time_after_jobs" (queue.idle_timeout.map toString) ++
      line? "cyclecloud.cluster.autoscale.idle_time_before_jobs" (queue.idle_timeout.map toString) }

/-- The type as the configuration has it. -/
def typeName : QueueType → String
  | .remoteviz => "remoteviz"
  | .compute => "compute"
  | .login => "login"

/-- `rejectattr('type', 'undefined') | selectattr('type', 'match', 'login')`. -/
def isLogin (q : Queue) : Bool :=
  match q.type with
  | some type => "login".toList.isPrefixOf (typeName type).toList
  | none => false

/-- `(queue.type is undefined) or (queue.type is defined and queue.type != 'login')`. -/
def isQueue (q : Queue) : Bool :=
  match q.type with
  | some type => typeName type ≠ "login"
  | none => true

/-- The nodearrays of the rendered template. -/
def render (cc_image_lookup : Option Lines) (cc_queues : List Queue) : Option (List Nodearray) := do
  let logins ← (cc_queues.filter isLogin).mapM (loginArray cc_image_lookup)
  -- `loop.index` counts from 1, and every queue
  let queues ← ((cc_queues.zipIdx 1).filter fun x => isQueue x.1).mapM fun x => queueArray cc_image_lookup x.1 (x.2 = 1)
  return logins ++ queues

/-! ## The cluster asked for -/

/-- There is a nodearray for each queue, and the first that is no login queue has
the default partition. -/
structure ClusterRight (queues : List Queue) (arrays : List Nodearray) : Prop where
  names : (arrays.map (·.name)).Perm (queues.map (·.name))
  queue : ∀ a ∈ arrays, ∀ q ∈ queues, a.name = q.name → q.type ≠ some .login →
    a.extends? = some "nodearraybase" ∧ a.partition? = some q.name
  login : ∀ a ∈ arrays, ∀ q ∈ queues, a.name = q.name → q.type = some .login → a.partition? = none
  «default» : (arrays.filter (·.isDefault)).map (·.partition?) =
    ((queues.find? fun q => q.type ≠ some .login).map fun q => some q.name).toList

/-- What the template prints without a default is there. -/
structure Renders (queues : List Queue) : Prop where
  initial_count : ∀ q ∈ queues, q.type = some .login → q.initial_count.isSome = true
  plan : ∀ q ∈ queues, ∀ plan, q.plan = some plan → 3 ≤ (plan.splitOn ":").length
  subnet : ∀ q ∈ queues, q.location.isSome = true → q.subnet.isSome = true

/-! ## One queue -/

theorem isLogin_iff {q : Queue} : isLogin q = true ↔ q.type = some .login := by
  unfold isLogin
  cases q.type with
  | none => simp
  | some type => cases type <;> decide

/-- The conditions of the two loops are complementary. -/
theorem isQueue_eq (q : Queue) : isQueue q = !isLogin q := by
  unfold isQueue isLogin
  cases q.type with
  | none => rfl
  | some type => cases type <;> decide

theorem planLines_isSome_iff {q : Queue} :
    (planLines q).isSome = true ↔ ∀ plan, q.plan = some plan → 3 ≤ (plan.splitOn ":").length := by
  unfold planLines
  cases q.plan with
  | none => simp
  | some plan =>
    match h : plan.splitOn ":" with
    | [] | [_] | [_, _] => simp [h]
    | _ :: _ :: _ :: _ => simp [h]

theorem regionLines_isSome_iff {q : Queue} :
    (regionLines q).isSome = true ↔ (q.location.isSome = true → q.subnet.isSome = true) := by
  unfold regionLines
  cases q.location <;> simp

theorem machineLines_isSome_iff {lookup : Option Lines} {q : Queue} : (machineLines lookup q).isSome = true ↔
    (∀ plan, q.plan = some plan → 3 ≤ (plan.splitOn ":").length) ∧
      (q.location.isSome = true → q.subnet.isSome = true) := by
  rw [← planLines_isSome_iff, ← regionLines_isSome_iff]
  unfold machineLines
  cases planLines q with
  | none => simp
  | some plan => cases regionLines q <;> simp

theorem loginArray_isSome_iff {lookup : Option Lines} {q : Queue} :
    (loginArray lookup q).isSome = true ↔ q.initial_count.isSome = true ∧ (machineLines lookup q).isSome = true := by
  unfold loginArray
  cases q.initial_count with
  | none => simp
  | some n => cases machineLines lookup q <;> simp

theorem queueArray_isSome_iff {lookup : Option Lines} {q : Queue} {first : Bool} :
    (queueArray lookup q first).isSome = true ↔ (machineLines lookup q).isSome = true := by
  unfold queueArray
  cases machineLines lookup q <;> simp

theorem loginArray_spec {lookup : Option Lines} {q : Queue} {a : Nodearray} (h : loginArray lookup q = some a) :
    a.name = q.name ∧ a.partition? = none ∧ a.isDefault = false := by
  simp only [loginArray, Option.bind_eq_bind, Option.bind_eq_some_iff, Option.pure_def, Option.some.injEq] at h
  obtain ⟨n, -, machine, -, rfl⟩ := h
  refine ⟨rfl, ?_, ?_⟩
  · simp [Nodearray.partition?, get?]
  · simp [Nodearray.isDefault, get?]

theorem queueArray_spec {lookup : Option Lines} {q : Queue} {first : Bool} {a : Nodearray}
    (h : queueArray lookup q first = some a) :
    a.name = q.name ∧ a.extends? = some "nodearraybase" ∧ a.partition? = some q.name ∧ a.isDefault = first := by
  simp only [queueArray, Option.bind_eq_bind, Option.bind_eq_some_iff, Option.pure_def, Option.some.injEq] at h
  obtain ⟨machine, -, rfl⟩ := h
  refine ⟨rfl, rfl, ?_, ?_⟩
  · simp [Nodearray.partition?, get?]
  · cases first with
    | true => simp [Nodearray.isDefault, get?]
    | false =>
      -- the lines after the partition have other names
      cases q.idle_timeout <;> simp [Nodearray.isDefault, get?, line?]

/-! ## All queues -/

theorem mem_queueLoop {queues : List Queue} {q : Queue} :
    (∃ i, (q, i) ∈ (queues.zipIdx 1).filter fun x => isQueue x.1) ↔ q ∈ queues ∧ isQueue q = true := by
  constructor
  · rintro ⟨i, hi⟩
    obtain ⟨hmem, hq⟩ := List.mem_filter.1 hi
    exact ⟨List.fst_mem_of_mem_zipIdx hmem, hq⟩
  · rintro ⟨hmem, hq⟩
    rw [← List.zipIdx_map_fst 1 queues] at hmem
    obtain ⟨⟨q', i⟩, hi, rfl⟩ := List.mem_map.1 hmem
    exact ⟨i, List.mem_filter.2 ⟨hi, hq⟩⟩

theorem renders_iff (lookup : Option Lines) {queues : List Queue} : Renders queues ↔
    (∀ q ∈ queues, isLogin q = true → q.initial_count.isSome = true) ∧
      ∀ q ∈ queues, (machineLines lookup q).isSome = true := by
  simp only [isLogin_iff, machineLines_isSome_iff]
  constructor
  · intro h
    exact ⟨h.initial_count, fun q hq => ⟨h.plan q hq, h.subnet q hq⟩⟩
  · rintro ⟨hcount, hmachine⟩
    exact ⟨hcount, fun q hq => (hmachine q hq).1, fun q hq => (hmachine q hq).2⟩

/-- The arrays of the first loop come first. -/
theorem render_eq_some_iff {lookup : Option Lines} {queues : List Queue} {arrays : List Nodearray} :
    render lookup queues = some arrays ↔ ∃ logins others,
      (queues.filter isLogin).mapM (loginArray lookup) = some logins ∧
      (((queues.zipIdx 1).filter fun x => isQueue x.1).mapM fun x => queueArray lookup x.1 (x.2 = 1)) = some others ∧
      logins ++ others = arrays := by
  simp only [render, Option.bind_eq_bind, Option.bind_eq_some_iff, Option.pure_def, Option.some.injEq]
  constructor
  · rintro ⟨logins, hlogins, others, hothers, heq⟩
    exact ⟨logins, others, hlogins, hothers, heq⟩
  · rintro ⟨logins, others, hlogins, hothers, heq⟩
    exact ⟨logins, hlogins, others, hothers, heq⟩

theorem render_isSome_iff (lookup : Option Lines) {queues : List Queue} :
    (render lookup queues).isSome = true ↔ Renders queues := by
  have hsplit : (render lookup queues).isSome = true ↔
      ((queues.filter isLogin).mapM (loginArray lookup)).isSome = true ∧
      (((queues.zipIdx 1).filter fun x => isQueue x.1).mapM fun x => queueArray lookup x.1 (x.2 = 1)).isSome = true := by
    simp only [Option.isSome_iff_exists, render_eq_some_iff]
    constructor
    · rintro ⟨-, logins, others, hlogins, hothers, -⟩
      exact ⟨⟨logins, hlogins⟩, others, hothers⟩
    · rintro ⟨⟨logins, hlogins⟩, others, hothers⟩
      exact ⟨_, logins, others, hlogins, hothers, rfl⟩
  rw [hsplit, mapM_isSome_iff, mapM_isSome_iff, renders_iff lookup]
  simp only [loginArray_isSome_iff, queueArray_isSome_iff]
  constructor
  · rintro ⟨hlogin, hqueue⟩
    refine ⟨fun q hq hl => (hlogin q (List.mem_filter.2 ⟨hq, hl⟩)).1, fun q hq => ?_⟩
    by_cases hl : isLogin q = true
    · exact (hlogin q (List.mem_filter.2 ⟨hq, hl⟩)).2
    · have hqueued : isQueue q = true := by simpa [isQueue_eq] using hl
      obtain ⟨i, hi⟩ := mem_queueLoop.2 ⟨hq, hqueued⟩
      exact hqueue _ hi
  · rintro ⟨hcount, hmachine⟩
    constructor
    · intro q hq
      obtain ⟨hq, hl⟩ := List.mem_filter.1 hq
      exact ⟨hcount q hq hl, hmachine q hq⟩
    · rintro ⟨q, i⟩ hx
      exact hmachine q (mem_queueLoop.1 ⟨i, hx⟩).1

/-- The queues of the second loop, with the index of the first one. -/
theorem queueLoop_names (queues : List Queue) :
    ((queues.zipIdx 1).filter fun x => isQueue x.1).map (·.1) = queues.filter isQueue := by
  have h := List.filter_map (p := isQueue) (f := Prod.fst) (l := queues.zipIdx 1)
  rw [List.zipIdx_map_fst] at h
  exact h.symm

/-- Index 1 is the first queue, which the loop may skip. -/
theorem queueLoop_first (queues : List Queue) :
    ((queues.zipIdx 1).filter fun x => isQueue x.1).filter (fun x => x.2 = 1) =
      ((queues.head?.filter isQueue).map fun q => (q, 1)).toList := by
  cases queues with
  | nil => rfl
  | cons q queues =>
    have hrest : ((queues.zipIdx 2).filter fun x => isQueue x.1).filter (fun x => x.2 = 1) = [] := by
      rw [List.filter_eq_nil_iff]
      rintro ⟨q', i⟩ hx
      have hle := List.le_snd_of_mem_zipIdx (List.mem_of_mem_filter hx)
      simp only [decide_eq_true_eq] at hle ⊢
      omega
    rw [List.zipIdx_cons, List.filter_cons]
    by_cases hq : isQueue q = true
    · simp only [hq, if_true, List.filter_cons, hrest]
      simp [Option.filter, hq]
    · simp [Option.filter, hq, hrest]

/-- The arrays come from the queues, each by its own loop. -/
theorem mem_render {lookup : Option Lines} {queues : List Queue} {arrays : List Nodearray}
    (h : render lookup queues = some arrays) {a : Nodearray} (ha : a ∈ arrays) :
    ∃ q ∈ queues, (isLogin q = true ∧ loginArray lookup q = some a) ∨
      (isQueue q = true ∧ ∃ first, queueArray lookup q first = some a) := by
  obtain ⟨logins, others, hlogins, hothers, rfl⟩ := render_eq_some_iff.1 h
  rcases List.mem_append.1 ha with ha | ha
  · obtain ⟨q, hq, hqa⟩ := (mem_mapM_iff hlogins a).1 ha
    obtain ⟨hq, hl⟩ := List.mem_filter.1 hq
    exact ⟨q, hq, .inl ⟨hl, hqa⟩⟩
  · obtain ⟨⟨q, i⟩, hx, hqa⟩ := (mem_mapM_iff hothers a).1 ha
    obtain ⟨hq, hqueue⟩ := mem_queueLoop.1 ⟨i, hx⟩
    exact ⟨q, hq, .inr ⟨hqueue, _, hqa⟩⟩

/-- One array a queue. -/
theorem names_of_render {lookup : Option Lines} {queues : List Queue} {arrays : List Nodearray}
    (h : render lookup queues = some arrays) : (arrays.map (·.name)).Perm (queues.map (·.name)) := by
  obtain ⟨logins, others, hlogins, hothers, rfl⟩ := render_eq_some_iff.1 h
  have hl : logins.map (·.name) = (queues.filter isLogin).map (·.name) :=
    map_of_mapM (fun q a h => (loginArray_spec h).1) hlogins
  have ho : others.map (·.name) = ((queues.zipIdx 1).filter fun x => isQueue x.1).map (·.1.name) :=
    map_of_mapM (fun x a h => (queueArray_spec h).1) hothers
  have ho' : others.map (·.name) = (queues.filter fun q => !isLogin q).map (·.name) := by
    rw [ho, ← funext isQueue_eq, ← queueLoop_names, List.map_map]
    rfl
  rw [List.map_append, hl, ho', ← List.map_append]
  exact (List.filter_append_perm isLogin queues).map _

/-- The default partition is the first queue's, when the second loop has it. -/
theorem defaults_of_render {lookup : Option Lines} {queues : List Queue} {arrays : List Nodearray}
    (h : render lookup queues = some arrays) : (arrays.filter (·.isDefault)).map (·.partition?) =
      ((queues.head?.filter isQueue).map fun q => some q.name).toList := by
  obtain ⟨logins, others, hlogins, hothers, rfl⟩ := render_eq_some_iff.1 h
  have hl : logins.filter (·.isDefault) = [] := by
    rw [List.filter_eq_nil_iff]
    intro a ha
    obtain ⟨q, -, hqa⟩ := (mem_mapM_iff hlogins a).1 ha
    simp [(loginArray_spec hqa).2.2]
  have ho : (others.filter (·.isDefault)).map (·.partition?) =
      (((queues.zipIdx 1).filter fun x => isQueue x.1).filter fun x => x.2 = 1).map fun x => some x.1.name :=
    filter_map_of_mapM (fun x a h => ⟨(queueArray_spec h).2.2.2, (queueArray_spec h).2.2.1⟩) hothers
  rw [List.filter_append, hl, List.nil_append, ho, queueLoop_first]
  cases queues.head?.filter isQueue <;> rfl

/-- The first queue that is not a login queue is the one the index finds only
when it is the first of all. -/
theorem default_iff {queues : List Queue} (hne : ∃ q ∈ queues, q.type ≠ some .login) :
    ((queues.head?.filter isQueue).map fun q => some q.name).toList =
      ((queues.find? fun q => q.type ≠ some .login).map fun q => some q.name).toList ↔
      ∃ q, queues.head? = some q ∧ q.type ≠ some .login := by
  cases queues with
  | nil =>
    obtain ⟨q, hq, -⟩ := hne
    cases hq
  | cons q queues =>
    by_cases hq : q.type = some .login
    · have hskip : isQueue q = false := by simp [isQueue_eq, isLogin_iff.2 hq]
      constructor
      · intro heq
        obtain ⟨q', hfind⟩ : ∃ q', (q :: queues).find? (fun q => q.type ≠ some .login) = some q' := by
          rw [← Option.isSome_iff_exists, List.find?_isSome]
          simpa using hne
        rw [hfind] at heq
        simp [Option.filter, hskip] at heq
      · rintro ⟨q', hhead, hq'⟩
        cases hhead
        exact absurd hq hq'
    · have hrun : isQueue q = true := by simpa [isQueue_eq, ← Bool.not_eq_true, isLogin_iff] using hq
      constructor
      · intro _
        exact ⟨q, rfl, hq⟩
      · intro _
        simp [Option.filter, hrun, hq]

/-- A template that renders gives each queue its nodearray and each partition
its queue, and marks the default partition when the first queue has one. -/
theorem clusterRight_iff {lookup : Option Lines} {queues : List Queue} {arrays : List Nodearray}
    (hnodup : (queues.map (·.name)).Nodup) (hne : ∃ q ∈ queues, q.type ≠ some .login)
    (h : render lookup queues = some arrays) :
    ClusterRight queues arrays ↔ ∃ q, queues.head? = some q ∧ q.type ≠ some .login := by
  have hdefaults := defaults_of_render h
  constructor
  · intro hright
    exact (default_iff hne).1 (hdefaults.symm.trans hright.default)
  · intro hhead
    have hname : ∀ q ∈ queues, ∀ q' ∈ queues, q.name = q'.name → q = q' := fun q hq q' hq' heq =>
      List.inj_on_of_nodup_map hnodup hq hq' heq
    refine {
      names := names_of_render h
      queue := ?_
      login := ?_
      default := hdefaults.trans ((default_iff hne).2 hhead) }
    · intro a ha q hq hqa htype
      obtain ⟨q', hq', ⟨hl, hrun⟩ | ⟨-, first, hrun⟩⟩ := mem_render h ha
      · cases hname q hq q' hq' (hqa.symm.trans (loginArray_spec hrun).1)
        exact absurd (isLogin_iff.1 hl) htype
      · obtain ⟨hn, hext, hpart, -⟩ := queueArray_spec hrun
        cases hname q hq q' hq' (hqa.symm.trans hn)
        exact ⟨hext, hpart⟩
    · intro a ha q hq hqa htype
      obtain ⟨q', hq', ⟨-, hrun⟩ | ⟨hl, first, hrun⟩⟩ := mem_render h ha
      · exact (loginArray_spec hrun).2.1
      · cases hname q hq q' hq' (hqa.symm.trans (queueArray_spec hrun).1)
        rw [isQueue_eq, isLogin_iff.2 htype] at hl
        cases hl

/-- The template gives the cluster asked for when the first queue of the list
is not a login queue. -/
theorem cluster_right_iff (lookup : Option Lines) (queues : List Queue) (hnodup : (queues.map (·.name)).Nodup)
    (hne : ∃ q ∈ queues, q.type ≠ some .login) :
    (∃ arrays, render lookup queues = some arrays ∧ ClusterRight queues arrays) ↔
      Renders queues ∧ ∃ q, queues.head? = some q ∧ q.type ≠ some .login := by
  rw [← render_isSome_iff lookup, Option.isSome_iff_exists]
  constructor
  · rintro ⟨arrays, hrender, hright⟩
    exact ⟨⟨arrays, hrender⟩, (clusterRight_iff hnodup hne hrender).1 hright⟩
  · rintro ⟨⟨arrays, hrender⟩, hhead⟩
    exact ⟨arrays, hrender, (clusterRight_iff hnodup hne hrender).2 hhead⟩

def htc : Queue := { name := "htc", vm_size := "Standard_F2s_v2", image := "azhop-compute" }

def login : Queue :=
  { name := "login", vm_size := "Standard_D2s_v3", image := "azhop-desktop", type := some .login, initial_count := some 1 }

theorem renders_login_htc : Renders [htc, login] := by
  refine { initial_count := ?_, plan := ?_, subnet := ?_ } <;> simp [htc, login]

/-- The compute queue first, then the login queue. -/
theorem cluster_right_htc_login :
    ∃ arrays, render none [htc, login] = some arrays ∧ ClusterRight [htc, login] arrays :=
  (cluster_right_iff none [htc, login] (by decide) ⟨htc, List.mem_cons_self, by decide⟩).2
    ⟨renders_login_htc, htc, rfl, by decide⟩

/-- The login queue first: no partition is the default one. -/
theorem login_first_no_default :
    ([login, htc].map (·.name)).Nodup ∧ (∃ q ∈ [login, htc], q.type ≠ some .login) ∧
      ∃ arrays, render none [login, htc] = some arrays ∧ arrays.filter (·.isDefault) = [] ∧
        ¬ ClusterRight [login, htc] arrays := by
  have hnodup : ([login, htc].map (·.name)).Nodup := by decide
  have hne : ∃ q ∈ [login, htc], q.type ≠ some .login := ⟨htc, by simp, by decide⟩
  have hrenders : Renders [login, htc] := by
    refine { initial_count := ?_, plan := ?_, subnet := ?_ } <;> simp [htc, login]
  obtain ⟨arrays, hrender⟩ := Option.isSome_iff_exists.1 ((render_isSome_iff none).2 hrenders)
  refine ⟨hnodup, hne, arrays, hrender, ?_, ?_⟩
  · exact List.map_eq_nil_iff.1 (defaults_of_render hrender)
  · intro hright
    obtain ⟨q, hq, htype⟩ := (clusterRight_iff hnodup hne hrender).1 hright
    cases hq
    exact htype rfl

end AzHop.SlurmTemplate
