import AzHop.SlurmTemplate
/-!
# The OpenPBS cluster template

`azhop-OpenPBS.txt.j2` has one loop over all queues. What a queue asks of its
machines is written as in the Slurm template, the rest is the scheduler's own.
-/
namespace AzHop.OpenpbsTemplate
open Lib.Objects SlurmTemplate

def queueArray (cc_image_lookup : Option Lines) (queue : Queue) : Option Nodearray := do
  let machine ← machineLines cc_image_lookup queue
  return {
    name := queue.name
    attributes := ("MachineType", queue.vm_size) :: machine
    configuration :=
      [("healthchecks.enabled", pyBool (queue.healthchecks.getD true)), ("pbspro.slot_type", queue.name)] ++
      line? "cyclecloud.cluster.autoscale.idle_time_after_jobs" (queue.idle_timeout.map toString) ++
      line? "cyclecloud.cluster.autoscale.idle_time_before_jobs" (queue.idle_timeout.map toString) }

/-- The nodearrays of the rendered template. -/
def render (cc_image_lookup : Option Lines) (cc_queues : List Queue) : Option (List Nodearray) :=
  cc_queues.mapM (queueArray cc_image_lookup)

theorem queueArray_eq_some {lookup : Option Lines} {q : Queue} {a : Nodearray} (h : queueArray lookup q = some a) :
    a.name = q.name ∧ ∃ machine, machineLines lookup q = some machine ∧ a.attributes = ("MachineType", q.vm_size) :: machine := by
  simp only [queueArray, Option.bind_eq_bind, Option.bind_eq_some_iff, Option.pure_def, Option.some.injEq] at h
  obtain ⟨machine, hmachine, rfl⟩ := h
  exact ⟨rfl, machine, hmachine, rfl⟩

theorem queueArray_isSome_iff {lookup : Option Lines} {q : Queue} :
    (queueArray lookup q).isSome = true ↔ (machineLines lookup q).isSome = true := by
  unfold queueArray
  cases machineLines lookup q <;> simp

theorem render_isSome_iff (lookup : Option Lines) {queues : List Queue} :
    (render lookup queues).isSome = true ↔ ∀ q ∈ queues, (machineLines lookup q).isSome = true := by
  rw [render, mapM_isSome_iff]
  simp only [queueArray_isSome_iff]

theorem mem_render {lookup : Option Lines} {queues : List Queue} {arrays : List Nodearray}
    (h : render lookup queues = some arrays) {a : Nodearray} (ha : a ∈ arrays) :
    ∃ q ∈ queues, queueArray lookup q = some a := (mem_mapM_iff h a).1 ha

end AzHop.OpenpbsTemplate
