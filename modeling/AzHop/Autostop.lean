import AzHop.Lib.Json
import Mathlib.Algebra.Group.Nat.Defs
import Mathlib.Data.List.Infix
import Mathlib.Data.Int.Order.Basic
import Mathlib.Tactic.SplitIfs
/-!
# autostop.rb

The script cron runs on an execute node. It keeps the time since when the node
has been idle in autoscale.json, and when that is long ago and CycleCloud does
not want the node kept it takes the node offline and shuts it down.

An invocation is given everything it reads (the clock, the job directory, the
mom logs, the keepalive file, CycleCloud's answer) and where it is killed, if
it is; `autostop` says what it leaves in the file and which commands it has
run. Times are in nanoseconds, and a difference of two times is exact where
Ruby rounds it to a Float.

`autostop_spec` reduces the file to the idle time in it; `shutdown_safe` is
about any history of invocations.
-/
namespace AzHop.Autostop

open Lib.Json

/-! ## The script -/

/-- The answers of `jetpack config`. -/
structure Jetpack where
  autostop_enabled : Bool
  keepalive_throttle : Int
  idle_time_after_jobs : Int
  idle_time_before_jobs : Int
  node_name : List Char

/-- Where an invocation is killed: before it truncates autoscale.json, with
the last `lost` characters still to be written, or `done` commands after the
file is closed. -/
inductive Kill
  | reading
  | writing (lost : Nat)
  | written (done : Nat)
  deriving DecidableEq

/-- What one run of the script finds. -/
structure Invocation where
  config : Jetpack
  now : Int
  active : Bool
  been_active : Bool
  /-- The modification time of the keepalive file, if it is there when it is looked for. -/
  keepalive_file : Option Int
  keepalive_now : Int
  /-- What `JSON.parse` makes of the answer, if it does not raise. -/
  reply : Option Value
  killed : Option Kill

/-- What the script does outside of its own file. -/
inductive Effect
  | delete_keepalive
  | create_keepalive
  | pbsnodes_offline
  | sleep
  | shutdown
  deriving DecidableEq

/-- How a run ends. -/
inductive Exit
  | finished
  | raised
  | killed
  deriving DecidableEq

/-- Nanoseconds in a second. -/
def second : Int := 1000000000

/-- `Time#to_i`. -/
def seconds (t : Int) : Int := t / second

/-- What an `if` takes for true. -/
def truthy : Value → Bool
  | .null | .bool false => false
  | _ => true

/-- `v[key]`: a hash is looked up, a string is searched, the rest raises. -/
def index : Value → List Char → Option Value
  | .object ms, key => some (fetch ms key)
  | .string s, key => some (if key <:+: s then .string key else .null)
  | _, _ => none

/-- What `v.each` yields. -/
def each : Value → Option (List Value)
  | .array vs => some vs
  | .object ms => some (ms.map (fun m => .array [.string m.1, m.2]))
  | _ => none

/-- The value is the string `t`. -/
def isText : Value → List Char → Bool
  | .string s, t => s = t
  | _, _ => false

/-- The body of the loop over the nodes. -/
def check_node (node_name : List Char) (am_i node : Value) : Option Value := do
  let name ← index node "Name".toList
  if isText name node_name then index node "KeepAlive".toList else some am_i

/-- The value of the last entry for this node, `true` without one. -/
def am_i_keepalive (node_name : List Char) (nodes : List Value) : Option Value :=
  nodes.foldlM (check_node node_name) (.bool true)

/-- `is_keepalive`: the answer, and what is done with the keepalive file. -/
def is_keepalive? (i : Invocation) : Option (Value × List Effect) :=
  match i.keepalive_file with
  | some mtime =>
    let old := i.config.keepalive_throttle * second < i.keepalive_now - mtime
    some (.bool true, if old then [.delete_keepalive] else [])
  | none => do
    let cluster_status ← i.reply
    let nodes ← index cluster_status "nodes".toList
    let list ← each nodes
    let am_i ← am_i_keepalive i.config.node_name list
    return (am_i, if truthy am_i then [.create_keepalive] else [])

/-- The key of the file. -/
def idle_start_time : List Char := "idle_start_time".toList

/-- Reading autoscale.json; what is not a hash raises. -/
def runtime_config (file : Option (List Char)) : Option Members :=
  match file with
  | none => some [(idle_start_time, .null)]
  | some text =>
    match parse 100 text with
    | some (.object ms) => some (merge [(idle_start_time, .null)] ms)
    | _ => none

/-- The digits a text starts with, possibly grouped by underscores, after `n`. -/
def leadingDigits : List Char → Nat → Nat
  | '_' :: c :: cs, n => if c.isDigit then leadingDigits (c :: cs) n else n
  | c :: cs, n => if c.isDigit then leadingDigits cs (10 * n + (c.toNat - '0'.toNat)) else n
  | [], n => n

/-- `to_i` of a string: the number it starts with, 0 where there is none. -/
def string_to_i (s : List Char) : Int :=
  let number := fun cs : List Char => if (cs.head?.map Char.isDigit).getD false then leadingDigits cs 0 else 0
  match s.dropWhile Char.isWhitespace with
  | '-' :: cs => -(number cs : Int)
  | '+' :: cs => number cs
  | cs => number cs

/-- The number a float's text stands for, without its fraction. -/
def float_to_i (lexeme : List Char) : Int :=
  let isE := fun c => c = 'e' || c = 'E'
  let mantissa := lexeme.takeWhile (fun c => !isE c)
  let exponent := string_to_i ((lexeme.dropWhile (fun c => !isE c)).drop 1)
  let sign : Int := if lexeme.head? = some '-' then -1 else 1
  let fraction := (mantissa.dropWhile (· ≠ '.')).drop 1
  let value := Nat.ofDigitChars 10 (mantissa.filter Char.isDigit) 0
  let shift := exponent - fraction.length
  sign * if 0 ≤ shift then value * 10 ^ shift.toNat else value / 10 ^ (-shift).toNat

/-- `to_i`, where the value has it. -/
def to_i : Value → Option Int
  | .null => some 0
  | .int n => some n
  | .float lexeme => some (float_to_i lexeme)
  | .string s => some (string_to_i s)
  | _ => none

/-- How long the node may be idle. -/
def timeout (i : Invocation) : Int :=
  if i.been_active then i.config.idle_time_after_jobs else i.config.idle_time_before_jobs

/-- The new `runtime_config`, and `idle_long_enough`. -/
def check_idle (config : Members) (i : Invocation) : Option (Members × Bool) :=
  if i.active then some (store config idle_start_time .null, false)
  else match fetch config idle_start_time with
    | .null => some (store config idle_start_time (.int (seconds i.now)), false)
    | v => do
      let start ← to_i v
      return (config, decide (timeout i * second < i.now - start * second))

/-- `file.puts JSON.pretty_generate(runtime_config)`. -/
def puts (config : Members) : List Char := pretty 0 (.object config) ++ ['\n']

/-- What follows the rewriting of the file. -/
def stop (idle_long_enough : Bool) (i : Invocation) : List Effect × Exit :=
  if idle_long_enough then
    match is_keepalive? i with
    | none => ([], .raised)
    | some (am_i, effects) =>
      if truthy am_i then (effects, .finished)
      else (effects ++ [.pbsnodes_offline, .sleep, .shutdown], .finished)
  else ([], .finished)

/-- What a run leaves. -/
structure Outcome where
  file : Option (List Char)
  effects : List Effect
  exit : Exit

/-- The script. -/
def autostop (file : Option (List Char)) (i : Invocation) : Outcome :=
  if !i.config.autostop_enabled then ⟨file, [], .finished⟩
  else match (runtime_config file).bind (check_idle · i) with
    -- neither reading nor parsing the file is rescued
    | none => ⟨file, [], .raised⟩
    | some (config, idle_long_enough) =>
      match i.killed with
      | some .reading => ⟨file, [], .killed⟩
      | some (.writing lost) => ⟨some ((puts config).take ((puts config).length - lost)), [], .killed⟩
      | some (.written done) => ⟨some (puts config), (stop idle_long_enough i).1.take done, .killed⟩
      | none => ⟨some (puts config), (stop idle_long_enough i).1, (stop idle_long_enough i).2⟩

/-- autoscale.json after the invocations, on a node that starts without one. -/
def fileAfter (h : List Invocation) : Option (List Char) := h.foldl (fun file i => (autostop file i).file) none

theorem fileAfter_append_one (h : List Invocation) (i : Invocation) :
    fileAfter (h ++ [i]) = (autostop (fileAfter h) i).file := by
  simp [fileAfter, List.foldl_append]

/-! ## The idle time in the file -/

/-- The time in the file, `null` where there is none. -/
def value : Option Int → Value
  | none => .null
  | some n => .int n

/-- The file with a time in it, before `puts`. -/
def document (s : Option Int) : List Char := pretty 0 (.object [(idle_start_time, value s)])

/-- The file the script writes. -/
def text (s : Option Int) : List Char := puts [(idle_start_time, value s)]

/-- The file says that the node has been idle since `s`; the last newline may be missing. -/
def Stores (file : Option (List Char)) (s : Option Int) : Prop :=
  (file = none ∧ s = none) ∨ ∃ tail, (tail = [] ∨ tail = ['\n']) ∧ file = some (document s ++ tail)

theorem stores_text (s : Option Int) : Stores (some (text s)) s := Or.inr ⟨['\n'], Or.inr rfl, rfl⟩

/-- The idle time after a sample. -/
def idleSince (s : Option Int) (i : Invocation) : Option Int :=
  if i.active then none else some (s.getD (seconds i.now))

/-- The node is idle, and has been for longer than the timeout. -/
def longEnough (s : Option Int) (i : Invocation) : Bool :=
  match i.active, s with
  | false, some start => decide (timeout i * second < i.now - start * second)
  | _, _ => false

theorem parse_document (s : Option Int) {tail : List Char} (h : tail = [] ∨ tail = ['\n']) :
    parse 100 (document s ++ tail) = some (.object [(idle_start_time, value s)]) := by
  have hread : Readable 100 (.object [(idle_start_time, value s)]) := by
    refine ⟨List.nodup_singleton _, ?_, trivial⟩
    cases s <;> trivial
  rcases h with rfl | rfl
  · exact parse_pretty hread rfl (fun _ _ h => by cases h)
  · exact parse_pretty hread rfl (delimited_cons rfl [])

theorem runtime_config_of_stores {file : Option (List Char)} {s : Option Int} (h : Stores file s) :
    runtime_config file = some [(idle_start_time, value s)] := by
  rcases h with ⟨rfl, rfl⟩ | ⟨tail, htail, rfl⟩
  · rfl
  · simp [runtime_config, parse_document s htail, merge, store]

theorem check_idle_value (s : Option Int) (i : Invocation) :
    check_idle [(idle_start_time, value s)] i = some ([(idle_start_time, value (idleSince s i))], longEnough s i) := by
  cases ha : i.active with
  | true => simp [check_idle, idleSince, longEnough, ha, store, value]
  | false => cases s <;> simp [check_idle, idleSince, longEnough, ha, store, fetch, value, to_i]

/-- What an invocation does when the file can be read. -/
theorem autostop_spec {file : Option (List Char)} {s : Option Int} (h : Stores file s) {i : Invocation}
    (hen : i.config.autostop_enabled = true) :
    autostop file i = match i.killed with
      | some .reading => ⟨file, [], .killed⟩
      | some (.writing lost) => ⟨some ((text (idleSince s i)).take ((text (idleSince s i)).length - lost)), [], .killed⟩
      | some (.written done) => ⟨some (text (idleSince s i)), (stop (longEnough s i) i).1.take done, .killed⟩
      | none => ⟨some (text (idleSince s i)), (stop (longEnough s i) i).1, (stop (longEnough s i) i).2⟩ := by
  have hread : (runtime_config file).bind (check_idle · i) =
      some ([(idle_start_time, value (idleSince s i))], longEnough s i) := by
    rw [runtime_config_of_stores h]
    exact check_idle_value s i
  unfold autostop
  simp only [hen, Bool.not_true, Bool.false_eq_true, if_false, hread]
  rfl

theorem autostop_disabled (file : Option (List Char)) {i : Invocation} (hen : i.config.autostop_enabled = false) :
    autostop file i = ⟨file, [], .finished⟩ := by
  simp [autostop, hen]

/-! ## The keepalive check -/

/-- CycleCloud's answer has this node, and not to be kept in its last entry; an
entry without the key `KeepAlive` reads as null. -/
def Released (i : Invocation) : Prop :=
  ∃ status nodes list before node after keep, i.reply = some status ∧ index status "nodes".toList = some nodes ∧
    each nodes = some list ∧ list = before ++ node :: after ∧
    index node "Name".toList = some (.string i.config.node_name) ∧
    (∀ n ∈ after, index n "Name".toList ≠ some (.string i.config.node_name)) ∧
    index node "KeepAlive".toList = some keep ∧ (keep = .null ∨ keep = .bool false)

theorem isText_iff {v : Value} {t : List Char} : isText v t = true ↔ v = .string t := by
  cases v <;> simp [isText]

theorem falsy_iff {v : Value} : truthy v = false ↔ v = .null ∨ v = .bool false := by
  cases v with
  | bool b => cases b <;> simp [truthy]
  | _ => simp [truthy]

/-- The loop ends with the last entry that has the name, or as it began. -/
theorem last_entry {name : List Char} {list : List Value} : ∀ {start am_i : Value},
    list.foldlM (check_node name) start = some am_i →
    ((∀ n ∈ list, index n "Name".toList ≠ some (.string name)) ∧ am_i = start) ∨
      ∃ before node after, list = before ++ node :: after ∧ index node "Name".toList = some (.string name) ∧
        (∀ n ∈ after, index n "Name".toList ≠ some (.string name)) ∧ index node "KeepAlive".toList = some am_i := by
  induction list with
  | nil =>
    intro start am_i h
    cases h
    exact Or.inl ⟨by simp, rfl⟩
  | cons node list ih =>
    intro start am_i h
    rw [List.foldlM_cons] at h
    obtain ⟨next, hnode, h⟩ := Option.bind_eq_some_iff.1 h
    obtain ⟨n, hn, hnext⟩ := Option.bind_eq_some_iff.1 hnode
    rcases ih h with ⟨hrest, rfl⟩ | ⟨before, node', after, rfl, hrest⟩
    · split_ifs at hnext with hname
      · have hname : n = .string name := isText_iff.1 hname
        subst hname
        exact Or.inr ⟨[], node, list, rfl, hn, hrest, hnext⟩
      · have hother : index node "Name".toList ≠ some (.string name) := by
          rw [hn]
          rintro ⟨⟩
          exact hname (isText_iff.2 rfl)
        cases hnext
        exact Or.inl ⟨List.forall_mem_cons.2 ⟨hother, hrest⟩, rfl⟩
    · exact Or.inr ⟨node :: before, node', after, rfl, hrest⟩

theorem is_keepalive_false {i : Invocation} {am_i : Value} {effects : List Effect}
    (h : is_keepalive? i = some (am_i, effects)) (hfalse : truthy am_i = false) :
    i.keepalive_file = none ∧ Released i := by
  unfold is_keepalive? at h
  cases hfile : i.keepalive_file with
  | some mtime =>
    simp only [hfile, Option.some.injEq, Prod.mk.injEq] at h
    rw [← h.1] at hfalse
    cases hfalse
  | none =>
    refine ⟨rfl, ?_⟩
    simp only [hfile, Option.bind_eq_bind, Option.bind_eq_some_iff] at h
    obtain ⟨status, hreply, nodes, hnodes, list, hlist, v, hloop, hv⟩ := h
    cases hv
    rcases last_entry hloop with ⟨-, rfl⟩ | ⟨before, node, after, hsplit, hname, hafter, hkeep⟩
    · cases hfalse
    · exact ⟨status, nodes, list, before, node, after, am_i, hreply, hnodes, hlist, hsplit, hname, hafter, hkeep,
        falsy_iff.1 hfalse⟩

theorem no_shutdown_in_check {i : Invocation} {r : Value × List Effect} (h : is_keepalive? i = some r) :
    Effect.shutdown ∉ r.2 := by
  unfold is_keepalive? at h
  cases hfile : i.keepalive_file with
  | some mtime =>
    simp only [hfile, Option.some.injEq] at h
    rw [← h]
    dsimp only
    split_ifs <;> simp
  | none =>
    simp only [hfile, Option.bind_eq_bind, Option.bind_eq_some_iff] at h
    obtain ⟨status, hreply, nodes, hnodes, list, hlist, v, hloop, hv⟩ := h
    cases hv
    dsimp only
    split_ifs <;> simp

theorem shutdown_of_stop {idle : Bool} {i : Invocation} (h : Effect.shutdown ∈ (stop idle i).1) :
    idle = true ∧ i.keepalive_file = none ∧ Released i := by
  unfold stop at h
  cases idle with
  | false => cases h
  | true =>
    refine ⟨rfl, ?_⟩
    cases hk : is_keepalive? i with
    | none =>
      rw [hk] at h
      cases h
    | some r =>
      cases ht : truthy r.1 with
      | false => exact is_keepalive_false hk ht
      | true =>
        -- the commands of the check itself only touch the keepalive file
        have hr : Effect.shutdown ∈ r.2 := by simpa [hk, ht] using h
        exact absurd hr (no_shutdown_in_check hk)

/-! ## Histories -/

/-- The invocation is not killed before autoscale.json is rewritten. -/
def Rewrites (i : Invocation) : Prop := i.killed ≠ some .reading ∧ ∀ lost, i.killed = some (.writing lost) → lost = 0

/-- An invocation of the history found the node idle at second `n`, and so has
every one after it. -/
def Since (h : List Invocation) (n : Int) : Prop :=
  ∃ before j since, h = before ++ j :: since ∧ j.config.autostop_enabled = true ∧ seconds j.now = n ∧
    ∀ k ∈ j :: since, k.config.autostop_enabled = true → k.active = false

/-- The idle start time an invocation reads. -/
def recorded (file : Option (List Char)) : Option Int :=
  match (runtime_config file).map (fetch · idle_start_time) with
  | some (.int n) => some n
  | _ => none

theorem recorded_of_stores {file : Option (List Char)} {s : Option Int} (h : Stores file s) : recorded file = s := by
  unfold recorded
  rw [runtime_config_of_stores h]
  cases s <;> simp [fetch, value]

theorem file_of_rewrites {file : Option (List Char)} {s : Option Int} (h : Stores file s) {i : Invocation}
    (hen : i.config.autostop_enabled = true) (hw : Rewrites i) :
    (autostop file i).file = some (text (idleSince s i)) := by
  rw [autostop_spec h hen]
  rcases hk : i.killed with _ | _ | lost | done
  · rfl
  · exact absurd hk hw.1
  · simp [hw.2 lost hk]
  · rfl

theorem shutdown_effects {file : Option (List Char)} {s : Option Int} (h : Stores file s) {i : Invocation}
    (hs : Effect.shutdown ∈ (autostop file i).effects) :
    i.config.autostop_enabled = true ∧ Effect.shutdown ∈ (stop (longEnough s i) i).1 := by
  cases hen : i.config.autostop_enabled with
  | false =>
    rw [autostop_disabled file hen] at hs
    cases hs
  | true =>
    refine ⟨rfl, ?_⟩
    rw [autostop_spec h hen] at hs
    rcases hk : i.killed with _ | _ | lost | done <;> simp only [hk] at hs
    · exact hs
    · cases hs
    · cases hs
    · exact List.mem_of_mem_take hs

theorem Since.append {h : List Invocation} {n : Int} (hs : Since h n) {i : Invocation}
    (hi : i.config.autostop_enabled = true → i.active = false) : Since (h ++ [i]) n := by
  obtain ⟨before, j, since, rfl, hen, hn, hidle⟩ := hs
  refine ⟨before, j, since ++ [i], by simp, hen, hn, ?_⟩
  intro k hk
  rw [← List.cons_append, List.mem_append, List.mem_singleton] at hk
  rcases hk with hk | rfl
  · exact hidle k hk
  · exact hi

theorem since_one (h : List Invocation) {i : Invocation} (hen : i.config.autostop_enabled = true)
    (hi : i.active = false) : Since (h ++ [i]) (seconds i.now) := by
  refine ⟨h, i, [], rfl, hen, rfl, ?_⟩
  simp [hi]

/-- Whatever the history, the file is readable and honest. -/
theorem history_inv (h : List Invocation) (hw : ∀ i ∈ h, Rewrites i) :
    ∃ s, Stores (fileAfter h) s ∧ ∀ n, s = some n → Since h n := by
  induction h using List.reverseRecOn with
  | nil => exact ⟨none, Or.inl ⟨rfl, rfl⟩, by simp⟩
  | append_singleton h i ih =>
    obtain ⟨s, hs, hsince⟩ := ih (fun j hj => hw j (by simp [hj]))
    rw [fileAfter_append_one]
    cases hen : i.config.autostop_enabled with
    | false =>
      rw [autostop_disabled _ hen]
      exact ⟨s, hs, fun n hn => (hsince n hn).append (by simp [hen])⟩
    | true =>
      rw [file_of_rewrites hs hen (hw i (by simp))]
      refine ⟨idleSince s i, stores_text _, ?_⟩
      intro n hn
      -- an active sample clears the time, an idle one keeps it or sets it
      cases hi : i.active with
      | true => simp [idleSince, hi] at hn
      | false =>
        cases s with
        | none =>
          have hn : seconds i.now = n := by simpa [idleSince, hi] using hn
          exact hn ▸ since_one h hen hi
        | some m =>
          have hn : m = n := by simpa [idleSince, hi] using hn
          exact hn ▸ (hsince m rfl).append (fun _ => hi)

theorem seconds_mono {a b : Int} (h : a ≤ b) : seconds a ≤ seconds b := Int.ediv_le_ediv (by decide) h

/-- No invocation before the recording one is later than the recorded second. -/
theorem Since.idle_after {h : List Invocation} {n : Int} (hs : Since h n) (hclock : h.Pairwise (·.now ≤ ·.now)) :
    ∀ k ∈ h, k.config.autostop_enabled = true → n < seconds k.now → k.active = false := by
  obtain ⟨before, j, since, rfl, -, rfl, hidle⟩ := hs
  intro k hk hen hlater
  rcases List.mem_append.1 hk with hk | hk
  · have hle : k.now ≤ j.now := (List.pairwise_append.1 hclock).2.2 k hk j List.mem_cons_self
    have := seconds_mono hle
    omega
  · exact hidle k hk hen

theorem longEnough_iff {s : Option Int} {i : Invocation} : longEnough s i = true ↔
    i.active = false ∧ ∃ start, s = some start ∧ timeout i * second < i.now - start * second := by
  unfold longEnough
  cases i.active <;> cases s <;> simp

/-- A shutdown is issued only by an invocation that found the node idle, as
did all since the recorded idle start time, longer than the timeout after it,
without a keepalive file, and released by CycleCloud. -/
theorem shutdown_safe (pre : List Invocation) (i : Invocation) (hclock : (pre ++ [i]).Pairwise (·.now ≤ ·.now))
    (hw : ∀ j ∈ pre ++ [i], Rewrites j) (hs : Effect.shutdown ∈ (autostop (fileAfter pre) i).effects) :
    ∃ start, recorded (fileAfter pre) = some start ∧
      i.active = false ∧ Since pre start ∧
      (∀ k ∈ pre, k.config.autostop_enabled = true → start < seconds k.now → k.active = false) ∧
      timeout i * second < i.now - start * second ∧ i.keepalive_file = none ∧ Released i := by
  obtain ⟨s, hstores, hsince⟩ := history_inv pre (fun j hj => hw j (by simp [hj]))
  obtain ⟨-, hstop⟩ := shutdown_effects hstores hs
  obtain ⟨hlong, hfile, hreleased⟩ := shutdown_of_stop hstop
  obtain ⟨hidle, start, rfl, htime⟩ := longEnough_iff.1 hlong
  have hpre : pre.Pairwise (·.now ≤ ·.now) := (List.pairwise_append.1 hclock).1
  exact ⟨start, recorded_of_stores hstores, hidle, hsince start rfl, (hsince start rfl).idle_after hpre, htime, hfile,
    hreleased⟩

/-- A node named `execute-1` with an idle timeout of half an hour, of five minutes after a job. -/
def executeNode : Jetpack := ⟨true, 1800, 300, 1800, "execute-1".toList⟩

/-- An idle sample at second `t`, on a node CycleCloud does not keep. -/
def idleAt (t : Int) : Invocation where
  config := executeNode
  now := t * second
  active := false
  been_active := true
  keepalive_file := none
  keepalive_now := t * second
  reply := some (.object [("nodes".toList, .array [.object [("Name".toList, .string "execute-1".toList),
    ("KeepAlive".toList, .bool false)]])])
  killed := none

theorem shutdown_safe_node : Effect.shutdown ∈ (autostop (fileAfter [idleAt 60]) (idleAt 420)).effects ∧
    ∃ start, recorded (fileAfter [idleAt 60]) = some start ∧
      (idleAt 420).active = false ∧ Since [idleAt 60] start ∧
      (∀ k ∈ [idleAt 60], k.config.autostop_enabled = true → start < seconds k.now → k.active = false) ∧
      timeout (idleAt 420) * second < (idleAt 420).now - start * second ∧ (idleAt 420).keepalive_file = none ∧
      Released (idleAt 420) := by
  have hs : Effect.shutdown ∈ (autostop (fileAfter [idleAt 60]) (idleAt 420)).effects := by decide
  exact ⟨hs, shutdown_safe [idleAt 60] (idleAt 420) (by simp [idleAt, second]) (by simp [Rewrites, idleAt]) hs⟩

end AzHop.Autostop
