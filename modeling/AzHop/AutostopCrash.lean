import AzHop.Autostop
/-!
# autostop.rb and kills

autostop.rb truncates autoscale.json and writes it again, so a kill can leave
any beginning of the new content. Only a file whose closing brace is there can
be read. `torn_forever` says what any other leaves behind: an exception in
every later invocation, before anything is written.

`crash_recovery_iff` says which histories a node recovers from.
-/
namespace AzHop.Autostop

open Lib.Json

/-- The invocation is killed with the closing brace not yet on the disk. -/
def Torn (i : Invocation) : Prop := i.config.autostop_enabled = true ∧ ∃ lost, 2 ≤ lost ∧ i.killed = some (.writing lost)

def TornFile (file : Option (List Char)) : Prop := ∃ t, file = some t ∧ '}' ∉ t

/-- The text up to the closing brace. -/
def body (s : Option Int) : List Char :=
  ['{', '\n'] ++ indent 1 ++ quote idle_start_time ++ [':', ' '] ++ pretty 1 (value s) ++ ['\n']

theorem document_eq (s : Option Int) : document s = body s ++ ['}'] := by
  simp [document, body, pretty, prettyMembers, indent]

theorem text_eq (s : Option Int) : text s = body s ++ ['}', '\n'] := by
  have h : text s = document s ++ ['\n'] := rfl
  rw [h, document_eq, List.append_assoc]
  rfl

theorem rbrace_not_mem_body (s : Option Int) : '}' ∉ body s := by
  have hvalue : '}' ∉ pretty 1 (value s) := by
    cases s with
    | none => decide
    | some n =>
      intro h
      cases isWord_digits n '}' h
  have hhead : '}' ∉ ['{', '\n'] ++ indent 1 ++ quote idle_start_time ++ [':', ' '] := by decide
  simp [body] at hhead ⊢
  simp [hhead, hvalue]

/-- Reading a file without a closing brace raises. -/
theorem runtime_config_torn {file : Option (List Char)} (h : TornFile file) : runtime_config file = none := by
  obtain ⟨t, rfl, hbrace⟩ := h
  unfold runtime_config
  split
  · cases ‹some t = none›
  · split
    · cases ‹some t = some _›
      exact absurd (rbrace_mem_of_parse ‹_›) hbrace
    · rfl

theorem autostop_torn {file : Option (List Char)} (h : TornFile file) (i : Invocation) :
    (autostop file i).file = file ∧ (autostop file i).effects = [] := by
  unfold autostop
  rw [runtime_config_torn h]
  split <;> exact ⟨rfl, rfl⟩

theorem file_of_torn {file : Option (List Char)} {s : Option Int} (h : Stores file s) {i : Invocation} (ht : Torn i) :
    TornFile (autostop file i).file := by
  obtain ⟨hen, lost, hlost, hk⟩ := ht
  rw [autostop_spec h hen, hk]
  refine ⟨_, rfl, ?_⟩
  have hlen : (text (idleSince s i)).length - lost ≤ (body (idleSince s i)).length := by
    rw [text_eq, List.length_append, List.length_cons, List.length_cons, List.length_nil]
    omega
  have htake : (text (idleSince s i)).take ((text (idleSince s i)).length - lost) =
      (body (idleSince s i)).take ((text (idleSince s i)).length - lost) := by
    rw [text_eq] at hlen ⊢
    exact List.take_append_of_le_length hlen
  rw [htake]
  exact fun hbrace => rbrace_not_mem_body _ (List.mem_of_mem_take hbrace)

/-- An invocation that is not torn leaves the file as it was or up to date. -/
theorem file_of_not_torn {file : Option (List Char)} {s : Option Int} (h : Stores file s) {i : Invocation}
    (ht : ¬ Torn i) : (autostop file i).file = file ∨ Stores (autostop file i).file (idleSince s i) := by
  cases hen : i.config.autostop_enabled with
  | false => exact Or.inl (by rw [autostop_disabled file hen])
  | true =>
    rw [autostop_spec h hen]
    rcases hk : i.killed with _ | _ | lost | done
    · exact Or.inr (stores_text _)
    · exact Or.inl rfl
    · -- of the content at most the last newline is missing
      have hlost : lost = 0 ∨ lost = 1 := by
        by_contra hne
        exact ht ⟨hen, lost, by omega, hk⟩
      apply Or.inr
      rcases hlost with rfl | rfl
      · simpa using stores_text (idleSince s i)
      · refine Or.inr ⟨[], Or.inl rfl, ?_⟩
        have htext : text (idleSince s i) = document (idleSince s i) ++ ['\n'] := rfl
        simp [htext]
    · exact Or.inr (stores_text _)

/-! ## Histories with kills -/

/-- The stored time is the clock of an invocation of the history. -/
def Clocked (h : List Invocation) (s : Option Int) : Prop := ∀ n, s = some n → ∃ k ∈ h, n = seconds k.now

theorem Clocked.append {h : List Invocation} {s : Option Int} (hs : Clocked h s) (i : Invocation) :
    Clocked (h ++ [i]) s := by
  intro n hn
  obtain ⟨k, hk, rfl⟩ := hs n hn
  exact ⟨k, List.mem_append_left _ hk, rfl⟩

theorem Clocked.idleSince {h : List Invocation} {s : Option Int} (hs : Clocked h s) (i : Invocation) :
    Clocked (h ++ [i]) (idleSince s i) := by
  intro n hn
  unfold Autostop.idleSince at hn
  cases hi : i.active with
  | true => simp [hi] at hn
  | false =>
    cases s with
    | none => exact ⟨i, by simp, by simpa [hi, eq_comm] using hn⟩
    | some m => exact hs.append i n (by simpa [hi] using hn)

theorem stores_of_not_torn (h : List Invocation) (ht : ∀ i ∈ h, ¬ Torn i) :
    ∃ s, Stores (fileAfter h) s ∧ Clocked h s := by
  induction h using List.reverseRecOn with
  | nil => exact ⟨none, Or.inl ⟨rfl, rfl⟩, fun n hn => by cases hn⟩
  | append_singleton h i ih =>
    obtain ⟨s, hs, hclock⟩ := ih (fun j hj => ht j (List.mem_append_left _ hj))
    rw [fileAfter_append_one]
    rcases file_of_not_torn hs (ht i (by simp)) with hfile | hfile
    · rw [hfile]
      exact ⟨s, hs, hclock.append i⟩
    · exact ⟨idleSince s i, hfile, hclock.idleSince i⟩

/-- A torn file stays, whatever is run. -/
theorem torn_forever (h : List Invocation) (ht : ∃ i ∈ h, Torn i) : TornFile (fileAfter h) := by
  induction h using List.reverseRecOn with
  | nil => simp at ht
  | append_singleton h i ih =>
    rw [fileAfter_append_one]
    by_cases hh : ∃ j ∈ h, Torn j
    · rw [(autostop_torn (ih hh) i).1]
      exact ih hh
    · have hnot : ∀ j ∈ h, ¬ Torn j := fun j hj htj => hh ⟨j, hj, htj⟩
      obtain ⟨s, hs, -⟩ := stores_of_not_torn h hnot
      obtain ⟨j, hj, htj⟩ := ht
      rcases List.mem_append.1 hj with hj | hj
      · exact absurd htj (hnot j hj)
      · rw [List.mem_singleton.1 hj] at htj
        exact file_of_torn hs htj

/-- The invocation gets past reading its state. -/
def PastReading (file : Option (List Char)) (i : Invocation) : Prop :=
  ((runtime_config file).bind (check_idle · i)).isSome = true

theorem pastReading_of_stores {file : Option (List Char)} {s : Option Int} (h : Stores file s) (i : Invocation) :
    PastReading file i := by
  unfold PastReading
  rw [runtime_config_of_stores h, Option.bind_some, check_idle_value]
  rfl

theorem not_pastReading_torn {file : Option (List Char)} (h : TornFile file) (i : Invocation) :
    ¬ PastReading file i := by
  unfold PastReading
  rw [runtime_config_torn h]
  simp

/-! ## Shutting down an idle node -/

/-- CycleCloud lists the nodes as objects, this one among them and with `KeepAlive` false. -/
def Reported (i : Invocation) : Prop :=
  ∃ ms list, i.reply = some (.object ms) ∧ fetch ms "nodes".toList = .array list ∧
    (∀ n ∈ list, ∃ fields, n = .object fields) ∧
    (∃ fields, .object fields ∈ list ∧ fetch fields "Name".toList = .string i.config.node_name) ∧
    ∀ fields, .object fields ∈ list → fetch fields "Name".toList = .string i.config.node_name →
      fetch fields "KeepAlive".toList = .bool false

/-- The loop over such a list ends with `false`, or as it began where the node is not in it. -/
theorem check_nodes {name : List Char} {list : List Value} (hobject : ∀ n ∈ list, ∃ fields, n = .object fields)
    (hkeep : ∀ fields, .object fields ∈ list → fetch fields "Name".toList = .string name →
      fetch fields "KeepAlive".toList = .bool false) :
    ∀ start, ∃ am_i, list.foldlM (check_node name) start = some am_i ∧ (am_i = .bool false ∨
      am_i = start ∧ ∀ fields, .object fields ∈ list → fetch fields "Name".toList ≠ .string name) := by
  induction list with
  | nil => exact fun start => ⟨start, rfl, Or.inr ⟨rfl, by simp⟩⟩
  | cons node list ih =>
    intro start
    obtain ⟨fields, rfl⟩ := hobject node List.mem_cons_self
    have ih := ih (fun n hn => hobject n (List.mem_cons_of_mem _ hn))
      (fun f hf => hkeep f (List.mem_cons_of_mem _ hf))
    simp only [List.foldlM_cons, Option.bind_eq_bind]
    by_cases hname : fetch fields "Name".toList = .string name
    · have hnode : check_node name start (.object fields) = some (.bool false) := by
        have htext : isText (fetch fields "Name".toList) name = true := isText_iff.2 hname
        simp only [check_node, index, Option.bind_eq_bind, Option.bind_some, htext, if_true]
        rw [hkeep fields List.mem_cons_self hname]
      obtain ⟨am_i, hloop, ham⟩ := ih (.bool false)
      refine ⟨am_i, by rw [hnode, Option.bind_some, hloop], Or.inl ?_⟩
      exact ham.elim id And.left
    · have hnode : check_node name start (.object fields) = some start := by
        have htext : isText (fetch fields "Name".toList) name = false := by
          rw [Bool.eq_false_iff]
          exact fun h => hname (isText_iff.1 h)
        simp only [check_node, index, Option.bind_eq_bind, Option.bind_some, htext, Bool.false_eq_true, if_false]
      obtain ⟨am_i, hloop, ham⟩ := ih start
      refine ⟨am_i, by rw [hnode, Option.bind_some, hloop], ham.imp_right ?_⟩
      rintro ⟨rfl, hrest⟩
      refine ⟨rfl, fun f hf => ?_⟩
      rcases List.mem_cons.1 hf with hf | hf
      · cases hf
        exact hname
      · exact hrest f hf

theorem is_keepalive_of_reported {i : Invocation} (hfile : i.keepalive_file = none) (h : Reported i) :
    is_keepalive? i = some (.bool false, []) := by
  obtain ⟨ms, list, hreply, hnodes, hobject, ⟨fields, hmem, hname⟩, hkeep⟩ := h
  have hloop : am_i_keepalive i.config.node_name list = some (.bool false) := by
    obtain ⟨am_i, hloop, rfl | ⟨-, hnone⟩⟩ := check_nodes hobject hkeep (.bool true)
    · exact hloop
    · exact absurd hname (hnone fields hmem)
  unfold is_keepalive?
  simp only [hfile, hreply, index, hnodes, each, hloop, Option.bind_eq_bind, Option.bind_some]
  rfl

/-- autostop.rb is enabled and the invocation is not killed. -/
def Uninterrupted (i : Invocation) : Prop := i.config.autostop_enabled = true ∧ i.killed = none

theorem not_torn_of_uninterrupted {i : Invocation} (h : Uninterrupted i) : ¬ Torn i := by
  rintro ⟨-, lost, -, hk⟩
  rw [h.2] at hk
  cases hk

theorem seconds_mul_le (t : Int) : seconds t * second ≤ t := by
  unfold seconds second
  omega

/-- While the node stays inactive, the stored time is not after the first such invocation. -/
theorem stores_idle (before : List Invocation) {first : Invocation} (hfirst : Uninterrupted first) (rest : List Invocation)
    (hclock : (before ++ [first]).Pairwise (·.now ≤ ·.now)) (ht : ∀ i ∈ before ++ first :: rest, ¬ Torn i)
    (hidle : ∀ i ∈ first :: rest, i.active = false) :
    ∃ n, Stores (fileAfter (before ++ first :: rest)) (some n) ∧ n ≤ seconds first.now := by
  induction rest using List.reverseRecOn with
  | nil =>
    obtain ⟨s, hs, hclocked⟩ := stores_of_not_torn before (fun i hi => ht i (by simp [hi]))
    have hw : Rewrites first := by simp [Rewrites, hfirst.2]
    rw [fileAfter_append_one, file_of_rewrites hs hfirst.1 hw]
    have hsince : idleSince s first = some (s.getD (seconds first.now)) := by
      simp [idleSince, hidle first List.mem_cons_self]
    rw [hsince]
    refine ⟨_, stores_text _, ?_⟩
    cases s with
    | none => exact le_refl _
    | some m =>
      obtain ⟨k, hk, rfl⟩ := hclocked m rfl
      exact seconds_mono ((List.pairwise_append.1 hclock).2.2 k hk first (by simp))
  | append_singleton rest i ih =>
    obtain ⟨n, hn, hle⟩ := ih (fun j hj => ht j (by simp at hj ⊢; tauto)) (fun j hj => hidle j (by simp at hj ⊢; tauto))
    have hsnoc : before ++ first :: (rest ++ [i]) = (before ++ first :: rest) ++ [i] := by simp
    rw [hsnoc, fileAfter_append_one]
    have hi : idleSince (some n) i = some n := by simp [idleSince, hidle i (by simp)]
    rcases file_of_not_torn hn (ht i (by simp)) with hfile | hfile
    · rw [hfile]
      exact ⟨n, hn, hle⟩
    · exact ⟨n, hi ▸ hfile, hle⟩

/-- A history ends in a state that the next uninterrupted invocation can read
exactly when none of its invocations was torn. Then an inactive node is shut
down by any invocation later than the timeout after its first inactive one. -/
theorem crash_recovery_iff (h : List Invocation) :
    ((∀ i, Uninterrupted i → PastReading (fileAfter h) i) ↔ ∀ i ∈ h, ¬ Torn i) ∧
      ∀ before first rest last, h = before ++ first :: rest → (∀ i ∈ h, ¬ Torn i) →
        (before ++ [first]).Pairwise (·.now ≤ ·.now) → Uninterrupted first → Uninterrupted last →
        (∀ i ∈ first :: rest ++ [last], i.active = false) → last.keepalive_file = none → Reported last →
        timeout last * second < last.now - first.now → Effect.shutdown ∈ (autostop (fileAfter h) last).effects := by
  refine ⟨⟨?_, ?_⟩, ?_⟩
  · intro hread i hi ht
    exact not_pastReading_torn (torn_forever h ⟨i, hi, ht⟩) (idleAt 0) (hread (idleAt 0) ⟨rfl, rfl⟩)
  · intro ht i _
    obtain ⟨s, hs, -⟩ := stores_of_not_torn h ht
    exact pastReading_of_stores hs i
  · rintro before first rest last rfl ht hclock hfirst hlast hidle hfile hreported htime
    obtain ⟨n, hn, hle⟩ := stores_idle before hfirst rest hclock ht (fun i hi => hidle i (by simp at hi ⊢; tauto))
    have hlong : longEnough (some n) last = true := by
      refine longEnough_iff.2 ⟨hidle last (by simp), n, rfl, ?_⟩
      have hstart : n * second ≤ seconds first.now * second := Int.mul_le_mul_of_nonneg_right hle (by decide)
      have := seconds_mul_le first.now
      omega
    rw [autostop_spec hn hlast.1, hlast.2]
    simp [stop, hlong, is_keepalive_of_reported hfile hreported, truthy]

def killedAt (t : Int) (k : Kill) : Invocation := { idleAt t with killed := some k }

/-- An invocation killed right after the truncation. -/
def tornAt (t : Int) : Invocation := killedAt t (.writing 100)

/-- One invocation is killed before the truncation, one with the last newline
still to be written, and one after it has written the file. -/
theorem crash_recovery_node : Effect.shutdown ∈ (autostop (fileAfter [killedAt 0 .reading, idleAt 60,
    killedAt 120 (.writing 1), killedAt 180 .reading, killedAt 240 (.written 0)]) (idleAt 420)).effects := by
  have hreported : Reported (idleAt 420) :=
    ⟨_, _, rfl, rfl, by simp, ⟨_, List.mem_singleton_self _, rfl⟩, by simp [fetch]⟩
  have huninterrupted : ¬ Torn (idleAt 60) := not_torn_of_uninterrupted ⟨rfl, rfl⟩
  have hkilled : ∀ t k, (∀ lost, 2 ≤ lost → k ≠ .writing lost) → ¬ Torn (killedAt t k) := by
    rintro t k hk ⟨-, lost, hlost, hkill⟩
    exact hk lost hlost (Option.some.inj hkill)
  refine (crash_recovery_iff _).2 [killedAt 0 .reading] (idleAt 60)
    [killedAt 120 (.writing 1), killedAt 180 .reading, killedAt 240 (.written 0)] (idleAt 420) rfl ?_
    (by simp [killedAt, idleAt, second]) ⟨rfl, rfl⟩ ⟨rfl, rfl⟩ ?_ rfl hreported (by decide)
  · have hnewline : ¬ Torn (killedAt 120 (.writing 1)) := hkilled _ _ (by simp; omega)
    simp [huninterrupted, hkilled, hnewline]
  · simp [killedAt, idleAt]

/-- After such a kill the next invocation, and every later one, raises. -/
theorem torn_not_recovered : Uninterrupted (idleAt 420) ∧ ¬ PastReading (fileAfter [tornAt 60]) (idleAt 420) ∧
    autostop (fileAfter [tornAt 60]) (idleAt 420) = ⟨some [], [], .raised⟩ := by
  have htorn : TornFile (fileAfter [tornAt 60]) := ⟨[], rfl, by simp⟩
  exact ⟨⟨rfl, rfl⟩, not_pastReading_torn htorn _, rfl⟩

end AzHop.Autostop
