import Mathlib.Tactic.IntervalCases
import AzHop.AutostopCrash
/-!
# The keepalive file of autostop.rb

In `Autostop` an invocation is told what the keepalive file is. Here the file
is what earlier invocations have made of it: created when CycleCloud wants the
node kept, deleted when it is older than the throttle.

`throttled` is about how often CycleCloud is asked, `shutdown_after_release`
about how long a node is kept after the last time that the file was created.
-/
namespace AzHop.AutostopKeepalive
open Autostop

/-! ## The two files -/

/-- The files of the script. -/
structure Files where
  /-- autoscale.json. -/
  autoscale_data : Option (List Char)
  /-- The modification time of the keepalive file. -/
  keepalive_file : Option Int

/-- An invocation, and when it has created the keepalive file if it does. -/
structure Tick where
  /-- What it says of the keepalive file is not used. -/
  invocation : Invocation
  touched : Int
  now_le : invocation.now ≤ invocation.keepalive_now
  le_touched : invocation.keepalive_now ≤ touched

def Tick.on (t : Tick) (f : Files) : Invocation := { t.invocation with keepalive_file := f.keepalive_file }

/-- The throttle of a run. -/
def Tick.throttle (t : Tick) : Int := t.invocation.config.keepalive_throttle

def touch (effects : List Effect) (t : Tick) (file : Option Int) : Option Int :=
  if Effect.create_keepalive ∈ effects then some t.touched
  else if Effect.delete_keepalive ∈ effects then none
  else file

/-- What a run does. -/
def effects (f : Files) (t : Tick) : List Effect := (autostop f.autoscale_data (t.on f)).effects

/-- The files after a run. -/
def tick (f : Files) (t : Tick) : Files :=
  ⟨(autostop f.autoscale_data (t.on f)).file, touch (effects f t) t f.keepalive_file⟩

/-- The files after several. -/
def filesAfter (f : Files) (ts : List Tick) : Files := ts.foldl tick f

theorem filesAfter_append_one (f : Files) (ts : List Tick) (t : Tick) :
    filesAfter f (ts ++ [t]) = tick (filesAfter f ts) t := by
  simp [filesAfter, List.foldl_append]

theorem filesAfter_append (f : Files) (ts us : List Tick) : filesAfter f (ts ++ us) = filesAfter (filesAfter f ts) us :=
  List.foldl_append

/-- The invocation creates the keepalive file: CycleCloud wants the node kept,
or does not list it, and the invocation gets as far. -/
def Keeps (f : Files) (t : Tick) : Prop := Effect.create_keepalive ∈ effects f t

/-- The invocation gets to asking CycleCloud. -/
def Asks (f : Files) (t : Tick) : Prop :=
  t.invocation.config.autostop_enabled = true ∧ t.invocation.killed ≠ some .reading ∧
    (∀ lost, t.invocation.killed ≠ some (.writing lost)) ∧
    ((runtime_config f.autoscale_data).bind (check_idle · t.invocation)).map Prod.snd = some true ∧
    f.keepalive_file = none

/-! ## What an invocation does to the keepalive file -/

/-- The commands are some of those `stop` lists. -/
theorem effects_subset (file : Option (List Char)) (i : Invocation) :
    ∃ idle, (autostop file i).effects ⊆ (stop idle i).1 := by
  unfold autostop
  split
  · exact ⟨false, List.nil_subset _⟩
  · split
    · exact ⟨false, List.nil_subset _⟩
    · rename_i config idle hread
      refine ⟨idle, ?_⟩
      rcases i.killed with _ | _ | lost | done
      · exact List.Subset.refl _
      · exact List.nil_subset _
      · exact List.nil_subset _
      · exact List.take_subset _ _

theorem stop_of_file {i : Invocation} {mtime : Int} (h : i.keepalive_file = some mtime) (idle : Bool) :
    ∀ e ∈ (stop idle i).1, e = .delete_keepalive ∧ i.config.keepalive_throttle * second < i.keepalive_now - mtime := by
  intro e he
  cases idle with
  | false => cases he
  | true =>
    simp only [stop, is_keepalive?, h, truthy, if_true] at he
    split_ifs at he with hold
    · exact ⟨List.mem_singleton.1 he, hold⟩
    · cases he

theorem stop_of_no_file {i : Invocation} (h : i.keepalive_file = none) (idle : Bool) :
    Effect.delete_keepalive ∉ (stop idle i).1 := by
  intro hdelete
  cases idle with
  | false => cases hdelete
  | true =>
    unfold stop at hdelete
    cases hk : is_keepalive? i with
    | none => simp [hk] at hdelete
    | some r =>
      obtain ⟨am_i, done⟩ := r
      have hdone : Effect.delete_keepalive ∉ done := by
        unfold is_keepalive? at hk
        simp only [h, Option.bind_eq_bind, Option.bind_eq_some_iff] at hk
        obtain ⟨status, -, nodes, -, list, -, v, -, hv⟩ := hk
        cases hv
        split_ifs <;> simp
      simp only [hk, if_true] at hdelete
      split_ifs at hdelete <;> simp [hdone] at hdelete

/-- The file is kept, deleted for its age, or created for CycleCloud's answer. -/
theorem tick_cases (f : Files) (t : Tick) :
    (tick f t).keepalive_file = f.keepalive_file ∨
    (∃ mtime, f.keepalive_file = some mtime ∧ (tick f t).keepalive_file = none ∧
      t.throttle * second < t.invocation.keepalive_now - mtime) ∨
    (f.keepalive_file = none ∧ (tick f t).keepalive_file = some t.touched ∧ Keeps f t) := by
  obtain ⟨idle, hsub⟩ := effects_subset f.autoscale_data (t.on f)
  change effects f t ⊆ _ at hsub
  cases hfile : f.keepalive_file with
  | some mtime =>
    have hstop := stop_of_file (show (t.on f).keepalive_file = some mtime from hfile) idle
    have hcreate : Effect.create_keepalive ∉ effects f t := fun h => by
      have hne := (hstop _ (hsub h)).1
      cases hne
    by_cases hdelete : Effect.delete_keepalive ∈ effects f t
    · refine .inr (.inl ⟨mtime, rfl, ?_, (hstop _ (hsub hdelete)).2⟩)
      simp [tick, touch, hcreate, hdelete]
    · exact .inl (by simp [tick, touch, hcreate, hdelete, hfile])
  | none =>
    have hdelete : Effect.delete_keepalive ∉ effects f t := fun h =>
      stop_of_no_file (show (t.on f).keepalive_file = none from hfile) idle (hsub h)
    by_cases hcreate : Effect.create_keepalive ∈ effects f t
    · exact .inr (.inr ⟨rfl, by simp [tick, touch, hcreate], hcreate⟩)
    · exact .inl (by simp [tick, touch, hcreate, hdelete, hfile])

/-! ## How often CycleCloud is asked -/

/-- A keepalive file stays until an invocation finds it older than the throttle. -/
theorem kept_or_deleted {mtime : Int} (ts : List Tick) : ∀ {f : Files}, f.keepalive_file = some mtime →
    (filesAfter f ts).keepalive_file = some mtime ∨
      ∃ d ∈ ts, d.throttle * second < d.invocation.keepalive_now - mtime := by
  induction ts with
  | nil => exact fun hf => .inl hf
  | cons t ts ih =>
    intro f hf
    rcases tick_cases f t with hkept | ⟨m, hm, -, hold⟩ | ⟨hnone, -, -⟩
    · refine (ih (hkept.trans hf)).imp_right ?_
      rintro ⟨d, hd, hold⟩
      exact ⟨d, List.mem_cons_of_mem t hd, hold⟩
    · rw [hf] at hm
      cases hm
      exact .inr ⟨t, List.mem_cons_self, hold⟩
    · rw [hf] at hnone
      cases hnone

theorem keepalive_file_of_keeps {f : Files} {t : Tick} (h : Keeps f t) : (tick f t).keepalive_file = some t.touched :=
  if_pos h

/-- In every history CycleCloud is asked again only when the throttle has passed
since the keepalive file was last created. -/
theorem throttled (f : Files) (a : Tick) (mid : List Tick) (b : Tick)
    (hclock : (a :: mid ++ [b]).Pairwise fun s t => s.touched ≤ t.invocation.now) {throttle : Int}
    (hthrottle : ∀ t ∈ mid, t.throttle = throttle) (hkeeps : Keeps f a) (hasks : Asks (filesAfter f (a :: mid)) b) :
    throttle * second < b.invocation.now - a.touched := by
  have hnone : (filesAfter (tick f a) mid).keepalive_file = none := hasks.2.2.2.2
  rcases kept_or_deleted mid (keepalive_file_of_keeps hkeeps) with hkept | ⟨d, hd, hold⟩
  · rw [hnone] at hkept
    cases hkept
  · -- the invocation that deletes the file does not ask, so `b` is a later one
    have hlater : d.touched ≤ b.invocation.now :=
      (List.pairwise_append.1 hclock).2.2 d (List.mem_cons_of_mem a hd) b (List.mem_singleton_self b)
    have htouched := d.le_touched
    rw [hthrottle d hd] at hold
    omega

/-- CycleCloud wants the node kept, or not. -/
def tickAt (t : Int) (keep : Bool) : Tick where
  invocation := { idleAt t with
    reply := some (.object [("nodes".toList, .array [.object [("Name".toList, .string "execute-1".toList),
      ("KeepAlive".toList, .bool keep)]])]) }
  touched := t * second
  now_le := le_refl _
  le_touched := le_refl _

theorem throttled_node : 1800 * second < (tickAt 2400 false).invocation.now - (tickAt 420 true).touched := by
  have hkeeps : Keeps (filesAfter ⟨none, none⟩ [tickAt 60 true]) (tickAt 420 true) := by
    unfold Keeps
    decide
  refine throttled (filesAfter ⟨none, none⟩ [tickAt 60 true]) (tickAt 420 true) [tickAt 2300 true] (tickAt 2400 false) ?_
    (by simp [Tick.throttle, tickAt, idleAt, executeNode]) hkeeps ⟨rfl, by decide, ?_, by decide, by decide⟩
  · simp [tickAt, idleAt, second]
  · simp [tickAt, idleAt]

/-! ## How long a node is kept -/

theorem file_on (file : Option (List Char)) (f : Files) (t : Tick) :
    (autostop file (t.on f)).file = (autostop file t.invocation).file := by
  have hcheck : ∀ config, check_idle config (t.on f) = check_idle config t.invocation := fun _ => rfl
  have hconfig : (t.on f).config = t.invocation.config := rfl
  have hkilled : (t.on f).killed = t.invocation.killed := rfl
  simp only [autostop, hcheck, hconfig, hkilled]
  split_ifs
  · rfl
  · split
    · rfl
    · rcases t.invocation.killed with _ | _ | lost | done <;> rfl

/-- autoscale.json does not depend on the keepalive file. -/
theorem autoscale_data_eq (ts : List Tick) :
    (filesAfter ⟨none, none⟩ ts).autoscale_data = fileAfter (ts.map Tick.invocation) := by
  induction ts using List.reverseRecOn with
  | nil => rfl
  | append_singleton ts t ih =>
    rw [filesAfter_append_one, List.map_append, List.map_singleton, fileAfter_append_one, ← ih]
    exact file_on _ _ t

/-- The keepalive file is from one of the invocations, which has created it. -/
theorem touched_of_file (ts : List Tick) : ∀ mtime, (filesAfter ⟨none, none⟩ ts).keepalive_file = some mtime →
    ∃ pre t post, ts = pre ++ t :: post ∧ Keeps (filesAfter ⟨none, none⟩ pre) t ∧ mtime = t.touched := by
  induction ts using List.reverseRecOn with
  | nil => exact fun mtime h => by cases h
  | append_singleton ts t ih =>
    intro mtime h
    rw [filesAfter_append_one] at h
    rcases tick_cases (filesAfter ⟨none, none⟩ ts) t with hkept | ⟨m, -, hnone, -⟩ | ⟨-, hnew, hkeeps⟩
    · obtain ⟨pre, s, post, rfl, hs, hmtime⟩ := ih mtime (hkept.symm.trans h)
      exact ⟨pre, s, post ++ [t], by simp, hs, hmtime⟩
    · rw [hnone] at h
      cases h
    · rw [hnew] at h
      cases h
      exact ⟨ts, t, [], rfl, hkeeps, rfl⟩

/-- An invocation that finds the keepalive file does not create it. -/
theorem not_keeps_of_file {f : Files} {t : Tick} {mtime : Int} (hfile : f.keepalive_file = some mtime) :
    ¬ Keeps f t := by
  intro hkeeps
  obtain ⟨idle, hsub⟩ := effects_subset f.autoscale_data (t.on f)
  have hdelete := (stop_of_file (show (t.on f).keepalive_file = some mtime from hfile) idle _ (hsub hkeeps)).1
  cases hdelete

theorem not_keeps_of_reported {f : Files} {t : Tick} (hfile : f.keepalive_file = none) (h : Reported t.invocation) :
    ¬ Keeps f t := by
  intro hkeeps
  obtain ⟨idle, hsub⟩ := effects_subset f.autoscale_data (t.on f)
  have hstop : Effect.create_keepalive ∈ (stop idle (t.on f)).1 := hsub hkeeps
  have hreleased : is_keepalive? (t.on f) = some (.bool false, []) := is_keepalive_of_reported hfile h
  cases idle <;> simp [stop, hreleased, truthy] at hstop

/-- While CycleCloud does not want the node kept no keepalive file is created. -/
theorem no_file_of_reported {f : Files} (hfile : f.keepalive_file = none) {ts : List Tick}
    (h : ∀ t ∈ ts, Reported t.invocation) : (filesAfter f ts).keepalive_file = none := by
  induction ts using List.reverseRecOn with
  | nil => exact hfile
  | append_singleton ts t ih =>
    have ih := ih fun s hs => h s (List.mem_append_left _ hs)
    rw [filesAfter_append_one]
    rcases tick_cases (filesAfter f ts) t with hkept | ⟨m, hm, -, -⟩ | ⟨-, -, hkeeps⟩
    · exact hkept.trans ih
    · rw [ih] at hm
      cases hm
    · exact absurd hkeeps (not_keeps_of_reported ih (h t (by simp)))

theorem effects_of_idle {f : Files} {n : Int} (hstores : Stores f.autoscale_data (some n)) {t : Tick}
    (ht : Uninterrupted t.invocation) (hidle : t.invocation.active = false) {start : Int} (hn : n ≤ seconds start)
    (htime : timeout t.invocation * second < t.invocation.now - start) : effects f t = (stop true (t.on f)).1 := by
  have hlong : longEnough (some n) (t.on f) = true := by
    refine longEnough_iff.2 ⟨hidle, n, rfl, ?_⟩
    have hstart : n * second ≤ seconds start * second := Int.mul_le_mul_of_nonneg_right hn (by decide)
    have hround := seconds_mul_le start
    change timeout t.invocation * second < t.invocation.now - n * second
    omega
  have hkilled : (t.on f).killed = none := ht.2
  rw [effects, autostop_spec hstores (show (t.on f).config.autostop_enabled = true from ht.1), hkilled, hlong]

theorem shutdown_of_reported {f : Files} (hfile : f.keepalive_file = none) {t : Tick} (h : Reported t.invocation)
    (heffects : effects f t = (stop true (t.on f)).1) : Effect.shutdown ∈ effects f t := by
  have hreleased : is_keepalive? (t.on f) = some (.bool false, []) := is_keepalive_of_reported hfile h
  simp [heffects, stop, hreleased, truthy]

/-- In every history without a torn write, a node that has been idle for the
timeout, and for which the keepalive file was last created longer ago than the
throttle, is shut down by the first invocation that is not interrupted or, if
that one has to delete the keepalive file, by the second. -/
theorem shutdown_after_release (before rest : List Tick) (first d : Tick) (between : List Tick) (e : Tick)
    (ht : ∀ t ∈ before ++ first :: rest ++ d :: between, ¬ Torn t.invocation)
    (hclock : (before ++ [first]).Pairwise fun s t => s.invocation.now ≤ t.invocation.now)
    (hfirst : Uninterrupted first.invocation) (hd : Uninterrupted d.invocation) (he : Uninterrupted e.invocation)
    (hidle : ∀ t ∈ first :: rest ++ d :: between ++ [e], t.invocation.active = false)
    (hreported : ∀ t ∈ d :: between ++ [e], Reported t.invocation)
    (hold : ∀ pre t post, before ++ first :: rest = pre ++ t :: post → Keeps (filesAfter ⟨none, none⟩ pre) t →
      d.throttle * second < d.invocation.keepalive_now - t.touched)
    (htime : ∀ t ∈ [d, e], timeout t.invocation * second < t.invocation.now - first.invocation.now) :
    Effect.shutdown ∈ effects (filesAfter ⟨none, none⟩ (before ++ first :: rest)) d ∨
      Effect.shutdown ∈ effects (filesAfter ⟨none, none⟩ (before ++ first :: rest ++ d :: between)) e := by
  have hstores : ∀ more, (∀ t ∈ before ++ first :: more, ¬ Torn t.invocation) →
      (∀ t ∈ first :: more, t.invocation.active = false) →
      ∃ n, Stores (filesAfter ⟨none, none⟩ (before ++ first :: more)).autoscale_data (some n) ∧
        n ≤ seconds first.invocation.now := by
    intro more hnot hinactive
    rw [autoscale_data_eq, List.map_append, List.map_cons]
    have hclock' : (before.map Tick.invocation ++ [first.invocation]).Pairwise (·.now ≤ ·.now) := by
      rw [← List.map_singleton (f := Tick.invocation), ← List.map_append, List.pairwise_map]
      exact hclock
    refine stores_idle _ hfirst _ hclock' ?_ ?_
    · intro i hi
      rw [← List.map_cons, ← List.map_append] at hi
      obtain ⟨t, ht', rfl⟩ := List.mem_map.1 hi
      exact hnot t ht'
    · intro i hi
      rw [← List.map_cons] at hi
      obtain ⟨t, ht', rfl⟩ := List.mem_map.1 hi
      exact hinactive t ht'
  obtain ⟨n, hn, hle⟩ := hstores rest (fun t h => ht t (List.mem_append_left _ h)) (fun t h => hidle t (by simp at h ⊢; tauto))
  have hde := effects_of_idle hn hd (hidle d (by simp)) hle (htime d (by simp))
  cases hfile : (filesAfter ⟨none, none⟩ (before ++ first :: rest)).keepalive_file with
  | none => exact .inl (shutdown_of_reported hfile (hreported d (by simp)) hde)
  | some mtime =>
    -- `d` deletes the file, nothing creates it again, and `e` asks
    refine .inr ?_
    obtain ⟨pre, t, post, hsplit, hkeeps, rfl⟩ := touched_of_file _ mtime hfile
    have hon : (d.on (filesAfter ⟨none, none⟩ (before ++ first :: rest))).keepalive_file = some t.touched := hfile
    have hdelete : effects (filesAfter ⟨none, none⟩ (before ++ first :: rest)) d = [.delete_keepalive] := by
      have hage := hold pre t post hsplit hkeeps
      have hage' : (d.on (filesAfter ⟨none, none⟩ (before ++ first :: rest))).config.keepalive_throttle * second <
          (d.on (filesAfter ⟨none, none⟩ (before ++ first :: rest))).keepalive_now - t.touched := hage
      rw [hde]
      simp [stop, is_keepalive?, hon, truthy, hage']
    have hdeleted : (tick (filesAfter ⟨none, none⟩ (before ++ first :: rest)) d).keepalive_file = none := by
      simp [tick, touch, hdelete]
    have hnone : (filesAfter ⟨none, none⟩ (before ++ first :: rest ++ d :: between)).keepalive_file = none := by
      rw [filesAfter_append]
      exact no_file_of_reported hdeleted fun s hs => hreported s (by simp [hs])
    have hsplit : before ++ first :: rest ++ d :: between = before ++ first :: (rest ++ d :: between) := by simp
    obtain ⟨m, hm, hmle⟩ := hstores (rest ++ d :: between) (fun s hs => ht s (hsplit ▸ hs))
      (fun s hs => hidle s (by simp at hs ⊢; tauto))
    rw [← hsplit] at hm
    exact shutdown_of_reported hnone (hreported e (by simp))
      (effects_of_idle hm he (hidle e (by simp)) hmle (htime e (by simp)))

/-- The node is busy at second 0, and then idle; CycleCloud lets it go after
the keepalive file was created. The throttle and the timeout are two minutes. -/
def minuteAt (t : Int) : Tick where
  invocation := { (tickAt t (decide (t ≤ 240))).invocation with
    config := { executeNode with keepalive_throttle := 120, idle_time_after_jobs := 120 }
    active := decide (t = 0) }
  touched := t * second
  now_le := le_refl _
  le_touched := le_refl _

/-- An invocation a minute. -/
def minutes : List Tick :=
  [minuteAt 0, minuteAt 60, minuteAt 120, minuteAt 180, minuteAt 240, minuteAt 300, minuteAt 360]

/-- The keepalive file is created at second 240, and found by the two invocations after it. -/
theorem minutes_file : (filesAfter ⟨none, none⟩ (minutes.take 5)).keepalive_file = some (240 * second) ∧
    (filesAfter ⟨none, none⟩ (minutes.take 6)).keepalive_file = some (240 * second) := by
  decide

theorem shutdown_after_release_node :
    Effect.shutdown ∈ effects (filesAfter ⟨none, none⟩ minutes) (minuteAt 420) ∨
      Effect.shutdown ∈ effects (filesAfter ⟨none, none⟩ (minutes ++ [minuteAt 420])) (minuteAt 480) := by
  have huninterrupted : ∀ t, Uninterrupted (minuteAt t).invocation := fun t => ⟨rfl, rfl⟩
  have hreported : ∀ t, 240 < t → Reported (minuteAt t).invocation := fun t ht =>
    ⟨_, _, rfl, rfl, by simp, ⟨_, List.mem_singleton_self _, rfl⟩, by simp [minuteAt, tickAt, Lib.Json.fetch, ht]⟩
  refine shutdown_after_release [minuteAt 0] [minuteAt 120, minuteAt 180, minuteAt 240, minuteAt 300, minuteAt 360]
    (minuteAt 60) (minuteAt 420) [] (minuteAt 480) ?_ ?_
    (huninterrupted _) (huninterrupted _) (huninterrupted _) (by simp [minuteAt]) (by simp [hreported]) ?_ ?_
  · simp [not_torn_of_uninterrupted (huninterrupted _)]
  · simp [minuteAt, tickAt, idleAt, second]
  · intro pre t post hsplit hkeeps
    have hlen : pre.length < 7 := by
      have hlength := congrArg List.length hsplit
      simp at hlength
      omega
    have ht : minutes[pre.length]? = some t := by
      rw [show minutes = pre ++ t :: post from hsplit, List.getElem?_append_right le_rfl, Nat.sub_self]
      rfl
    have hpre : pre = minutes.take pre.length := by
      rw [show minutes = pre ++ t :: post from hsplit, List.take_left]
    rw [hpre] at hkeeps
    generalize pre.length = n at hlen ht hkeeps
    -- the fifth creates the file and the last two find it
    obtain hn | rfl | rfl : n < 5 ∨ n = 5 ∨ n = 6 := by omega
    · interval_cases n <;> cases ht <;> simp [Tick.throttle, minuteAt, tickAt, idleAt, executeNode, second]
    · exact absurd hkeeps (not_keeps_of_file minutes_file.1)
    · exact absurd hkeeps (not_keeps_of_file minutes_file.2)
  · simp [minuteAt, tickAt, idleAt, executeNode, timeout, second]

end AzHop.AutostopKeepalive
