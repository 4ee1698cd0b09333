import Mathlib.Data.List.Basic
import Mathlib.Data.List.Infix
import Mathlib.Data.List.Nodup
/-!
# Checkpointed task lists

A list of tasks is run in order, each task that succeeds leaves a marker, and
a task with a marker is passed over. A run ends at the first task that fails,
and can be repeated. A run may also be given tasks to skip, whose markers are
there from its start.

`run_spec` says what one run does to the tasks it needs; `markers_inv` and
`log_inv` say what any number of runs leaves behind, and `complete_iff` what
a successful run is worth when not every run skipped the same tasks.
-/
namespace Lib.Checkpoint

variable {T : Type}

/-- What happens when a task is attempted. A refused task ends the run before
it has started. -/
inductive Outcome
  | succeeds
  | fails
  | refused
  deriving DecidableEq

/-- What is seen of a task. -/
inductive Event (T : Type)
  | started (t : T)
  | succeeded (t : T)
  | failed (t : T)
  deriving DecidableEq

/-- The tasks that succeeded, in order. -/
def successes : List (Event T) → List T
  | [] => []
  | .succeeded t :: es => t :: successes es
  | _ :: es => successes es

@[simp] theorem successes_append (a b : List (Event T)) : successes (a ++ b) = successes a ++ successes b := by
  induction a with
  | nil => rfl
  | cons e es ih => cases e <;> simp [successes, ih]

/-- What a run leaves. -/
structure Result (T : Type) where
  markers : List T
  events : List (Event T)
  ok : Bool

variable [DecidableEq T]

/-- The tasks in turn: one with a marker is passed over, and the first that fails ends the run. -/
def run (o : T → Outcome) : List T → List T → Result T
  | [], m => ⟨m, [], true⟩
  | t :: ts, m =>
    if t ∈ m then run o ts m
    else match o t with
      | .succeeds =>
        let r := run o ts (t :: m)
        ⟨r.markers, .started t :: .succeeded t :: r.events, r.ok⟩
      | .fails => ⟨m, [.started t, .failed t], false⟩
      | .refused => ⟨m, [], false⟩

/-- The tasks a run with markers `m` still needs. -/
def needed (ts m : List T) : List T := ts.filter (fun t => t ∉ m)

theorem mem_needed {t : T} {ts m : List T} : t ∈ needed ts m ↔ t ∈ ts ∧ t ∉ m := by
  simp [needed]

theorem needed_nodup {ts : List T} (h : ts.Nodup) (m : List T) : (needed ts m).Nodup := h.filter _

theorem needed_cons_mem {t : T} {ts m : List T} (h : t ∈ m) : needed (t :: ts) m = needed ts m := by
  simp [needed, h]

theorem needed_cons {t : T} {ts m : List T} (h : t ∉ m) : needed (t :: ts) m = t :: needed ts m := by
  simp [needed, h]

/-- A marker for a task that is not in the list changes nothing. -/
theorem needed_marker {t : T} {ts m : List T} (h : t ∉ ts) : needed ts (t :: m) = needed ts m := by
  unfold needed
  apply List.filter_congr
  intro u hu
  have hne : u ≠ t := by
    rintro rfl
    exact h hu
  simp [hne]

/-! ## One run -/

/-- What one run does: of the tasks it needs a first part succeeds, in order,
and is marked, and the run is successful when nothing is left. -/
structure RunSpec (need m : List T) (r : Result T) : Prop where
  prefix_need : ∃ rest, need = successes r.events ++ rest ∧ (r.ok = true ↔ rest = [])
  markers : ∀ t, t ∈ r.markers ↔ t ∈ successes r.events ∨ t ∈ m
  started : ∀ pre t post, r.events = pre ++ .started t :: post →
    ∃ after, need = successes pre ++ t :: after

theorem run_spec (o : T → Outcome) (ts : List T) (hts : ts.Nodup) :
    ∀ m : List T, RunSpec (needed ts m) m (run o ts m) := by
  induction ts with
  | nil => exact fun m => ⟨⟨[], by simp [needed, run, successes]⟩, by simp [run, successes], by simp [run]⟩
  | cons t ts ih =>
    intro m
    obtain ⟨hnt, hts⟩ := List.nodup_cons.1 hts
    by_cases htm : t ∈ m
    · rw [needed_cons_mem htm]
      simpa only [run, htm, if_true] using ih hts m
    · rw [needed_cons htm]
      simp only [run, htm, if_false]
      cases ho : o t with
      | succeeds =>
        obtain ⟨⟨rest, hneed, hok⟩, hmark, hstart⟩ := ih hts (t :: m)
        rw [needed_marker hnt] at hneed hstart
        refine ⟨⟨rest, ?_, hok⟩, ?_, ?_⟩
        · simp only [successes, List.cons_append, ← hneed]
        · intro u
          rw [hmark u]
          simp only [successes, List.mem_cons]
          tauto
        · intro pre u post he
          rcases pre with _ | ⟨e, pre⟩
          · simp only [List.nil_append, List.cons.injEq, Event.started.injEq] at he
            exact ⟨needed ts m, by simp [successes, he.1]⟩
          · rcases pre with _ | ⟨e', pre⟩
            · simp at he
            · simp only [List.cons_append, List.cons.injEq] at he
              obtain ⟨rfl, rfl, he⟩ := he
              obtain ⟨after, ha⟩ := hstart pre u post he
              exact ⟨after, by simp [successes, ha]⟩
      | fails =>
        refine ⟨⟨t :: needed ts m, by simp [successes]⟩, by simp [successes], ?_⟩
        intro pre u post he
        rcases pre with _ | ⟨e, pre⟩
        · simp only [List.nil_append, List.cons.injEq, Event.started.injEq] at he
          exact ⟨needed ts m, by simp [successes, he.1]⟩
        · rcases pre with _ | ⟨e', pre⟩ <;> simp at he
      | refused => exact ⟨⟨t :: needed ts m, by simp [successes]⟩, by simp [successes], by simp⟩

/-! ## Any number of runs -/

/-- What a run is given: the tasks to skip, and how the others go. -/
structure Input (T : Type) where
  skip : List T
  outcome : T → Outcome

/-- What is there between two runs. -/
structure State (T : Type) where
  markers : List T
  log : List (Event T)

/-- A run from state `s`; the tasks to skip get their marker first. -/
def step (ts : List T) (i : Input T) (s : State T) : State T × Bool :=
  let r := run i.outcome ts (i.skip ++ s.markers)
  (⟨r.markers, s.log ++ r.events⟩, r.ok)

/-- Runs one after the other, from no markers. -/
def runs (ts : List T) (is : List (Input T)) : State T := is.foldl (fun s i => (step ts i s).1) ⟨[], []⟩

@[simp] theorem runs_append_one (ts : List T) (is : List (Input T)) (i : Input T) :
    runs ts (is ++ [i]) = (step ts i (runs ts is)).1 := by
  simp [runs, List.foldl_append]

section
variable {ts : List T} (hts : ts.Nodup)
include hts

/-- A marker is left by a success or by a run that skips the task. -/
theorem markers_inv (is : List (Input T)) (t : T) :
    t ∈ (runs ts is).markers ↔ t ∈ successes (runs ts is).log ∨ ∃ i ∈ is, t ∈ i.skip := by
  induction is using List.reverseRecOn with
  | nil => simp [runs, successes]
  | append_singleton is i ih =>
    have hspec := run_spec i.outcome ts hts (i.skip ++ (runs ts is).markers)
    rw [runs_append_one]
    simp only [step, hspec.markers t, List.mem_append, ih, successes_append, List.mem_singleton]
    constructor
    · rintro (h | h | h | ⟨j, hj, h⟩)
      · exact .inl (.inr h)
      · exact .inr ⟨i, .inr rfl, h⟩
      · exact .inl (.inl h)
      · exact .inr ⟨j, .inl hj, h⟩
    · rintro ((h | h) | ⟨j, hj | rfl, h⟩)
      · exact .inr (.inr (.inl h))
      · exact .inl h
      · exact .inr (.inr (.inr ⟨j, hj, h⟩))
      · exact .inr (.inl h)

/-- A run is successful exactly when in the end every task has succeeded or
was skipped, by it or by an earlier run. -/
theorem ok_iff (is : List (Input T)) (i : Input T) :
    (step ts i (runs ts is)).2 = true ↔
      ∀ t ∈ ts, t ∈ successes (runs ts (is ++ [i])).log ∨ ∃ j ∈ is ++ [i], t ∈ j.skip := by
  obtain ⟨⟨rest, hneed, hok⟩, -, -⟩ := run_spec i.outcome ts hts (i.skip ++ (runs ts is).markers)
  have hmark : ∀ t, t ∈ i.skip ++ (runs ts is).markers ↔
      t ∈ successes (runs ts is).log ∨ ∃ j ∈ is ++ [i], t ∈ j.skip := by
    intro t
    rw [List.mem_append, markers_inv hts]
    simp only [List.mem_append, List.mem_singleton]
    constructor
    · rintro (h | h | ⟨j, hj, h⟩)
      · exact .inr ⟨i, .inr rfl, h⟩
      · exact .inl h
      · exact .inr ⟨j, .inl hj, h⟩
    · rintro (h | ⟨j, hj | rfl, h⟩)
      · exact .inr (.inl h)
      · exact .inr (.inr ⟨j, hj, h⟩)
      · exact .inl h
  simp only [runs_append_one, step, successes_append, hok, List.mem_append]
  constructor
  · intro hrest t ht
    by_cases hm : t ∈ i.skip ++ (runs ts is).markers
    · rcases (hmark t).1 hm with h | h
      · exact .inl (.inl h)
      · exact .inr (by simpa using h)
    · have hin : t ∈ needed ts (i.skip ++ (runs ts is).markers) := mem_needed.2 ⟨ht, hm⟩
      rw [hneed, hrest, List.append_nil] at hin
      exact .inl (.inr hin)
  · intro hall
    apply List.eq_nil_iff_forall_not_mem.2
    intro t ht
    have hin : t ∈ needed ts (i.skip ++ (runs ts is).markers) := by
      rw [hneed]
      exact List.mem_append_right _ ht
    obtain ⟨htt, hm'⟩ := mem_needed.1 hin
    rcases hall t htt with (h | h) | h
    · exact hm' ((hmark t).2 (.inl h))
    · have hnd : (needed ts (i.skip ++ (runs ts is).markers)).Nodup := needed_nodup hts _
      rw [hneed, List.nodup_append] at hnd
      exact hnd.2.2 t h t ht rfl
    · exact hm' ((hmark t).2 (.inr (by simpa using h)))

/-- A task with a marker is not run again. -/
theorem success_of_marked {is : List (Input T)} {i : Input T} {t : T} (hm : t ∈ (runs ts is).markers)
    (ht : t ∈ successes (runs ts (is ++ [i])).log) : t ∈ successes (runs ts is).log := by
  obtain ⟨⟨rest, hneed, -⟩, -, -⟩ := run_spec i.outcome ts hts (i.skip ++ (runs ts is).markers)
  simp only [runs_append_one, step, successes_append, List.mem_append] at ht
  rcases ht with h | h
  · exact h
  · have hin : t ∈ needed ts (i.skip ++ (runs ts is).markers) := by
      rw [hneed]
      exact List.mem_append_left _ h
    exact absurd (List.mem_append_right _ hm) (mem_needed.1 hin).2

/-- After a successful run all the tasks it did not skip have succeeded,
exactly when those of them that an earlier run skipped had succeeded before. -/
theorem complete_iff {is : List (Input T)} {i : Input T} (hok : (step ts i (runs ts is)).2 = true) :
    (∀ t ∈ needed ts i.skip, t ∈ successes (runs ts (is ++ [i])).log) ↔
      ∀ t ∈ needed ts i.skip, (∃ j ∈ is, t ∈ j.skip) → t ∈ successes (runs ts is).log := by
  constructor
  · intro h t ht hj
    exact success_of_marked hts ((markers_inv hts is t).2 (.inr hj)) (h t ht)
  · intro h t ht
    obtain ⟨htt, hskip⟩ := mem_needed.1 ht
    rcases (ok_iff hts is i).1 hok t htt with hs | ⟨j, hj, hjt⟩
    · exact hs
    · rcases List.mem_append.1 hj with hj | hj
      · have hbefore := h t ht ⟨j, hj, hjt⟩
        rw [runs_append_one, step]
        simp only [successes_append, List.mem_append]
        exact .inl hbefore
      · rw [List.mem_singleton.1 hj] at hjt
        exact absurd hjt hskip

/-! ## The same tasks skipped in every run -/

/-- The log of runs that all skip `skip`: the tasks succeed in order, and none
is started before those listed earlier have succeeded. -/
structure LogInv (need : List T) (log : List (Event T)) : Prop where
  prefix_need : ∃ rest, need = successes log ++ rest
  started : ∀ pre t post, log = pre ++ .started t :: post → ∃ after, need = successes pre ++ t :: after

theorem needed_rest {skip m : List T} {done rest : List T} (hneed : needed ts skip = done ++ rest)
    (hm : ∀ t ∈ needed ts skip, t ∈ m ↔ t ∈ done) : needed ts (skip ++ m) = rest := by
  have hnd : (needed ts skip).Nodup := needed_nodup hts _
  have hfilter : needed ts (skip ++ m) = (needed ts skip).filter (fun t => t ∉ m) := by
    simp only [needed, List.filter_filter]
    apply List.filter_congr
    intro t _
    simp [Bool.and_comm]
  rw [hfilter, List.filter_congr (q := fun t => decide (t ∉ done)) (fun t ht => by simp [hm t ht]), hneed,
    List.filter_append]
  rw [hneed, List.nodup_append] at hnd
  have hdone : done.filter (fun t => decide (t ∉ done)) = [] := by simp [List.filter_eq_nil_iff]
  have hrest : rest.filter (fun t => decide (t ∉ done)) = rest :=
    List.filter_eq_self.2 (fun t ht => decide_eq_true (fun hd => hnd.2.2 t hd t ht rfl))
  rw [hdone, hrest, List.nil_append]

theorem log_inv (skip : List T) (is : List (Input T)) (his : ∀ i ∈ is, i.skip = skip) :
    LogInv (needed ts skip) (runs ts is).log := by
  induction is using List.reverseRecOn with
  | nil => exact ⟨⟨needed ts skip, by simp [runs, successes]⟩, by simp [runs]⟩
  | append_singleton is i ih =>
    obtain ⟨⟨rest, hneed⟩, hstart⟩ := ih (fun j hj => his j (List.mem_append_left _ hj))
    have hskip : i.skip = skip := his i (by simp)
    -- the run needs what the runs before it have left
    have hrest : needed ts (i.skip ++ (runs ts is).markers) = rest := by
      rw [hskip]
      apply needed_rest hts hneed
      intro t ht
      rw [markers_inv hts]
      apply or_iff_left
      rintro ⟨j, hj, hjt⟩
      rw [his j (List.mem_append_left _ hj)] at hjt
      exact (mem_needed.1 ht).2 hjt
    obtain ⟨⟨rest', hneed', -⟩, -, hstart'⟩ := run_spec i.outcome ts hts (i.skip ++ (runs ts is).markers)
    rw [hrest] at hneed' hstart'
    rw [runs_append_one]
    refine ⟨⟨rest', by simp [step, hneed, hneed']⟩, ?_⟩
    intro pre t post he
    rcases List.append_eq_append_iff.1 he with ⟨es, hpre, hev⟩ | ⟨es, hlog, hpost⟩
    · obtain ⟨after, ha⟩ := hstart' es t post hev
      exact ⟨after, by rw [hpre, successes_append, List.append_assoc, ← ha, hneed]⟩
    · rcases es with _ | ⟨e, es⟩
      · simp only [List.append_nil, List.nil_append] at hlog hpost
        obtain ⟨after, ha⟩ := hstart' [] t post (by simpa using hpost.symm)
        exact ⟨after, by rw [← hlog, hneed, ha]; simp [successes]⟩
      · simp only [List.cons_append, List.cons.injEq] at hpost
        obtain ⟨rfl, rfl⟩ := hpost
        exact hstart pre t es hlog

end

end Lib.Checkpoint
