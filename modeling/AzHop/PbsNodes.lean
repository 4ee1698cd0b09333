import AzHop.Lib.Json
import AzHop.Lib.LineProtocol
import AzHop.Lib.Tally
import Mathlib.Tactic.ByContra
/-!
# PBS node metrics

`read_pbsnodes` of `collect_pbs_stats.py` in `playbooks/telegraf.yml`. Nodes are
counted under the key `state:slot_type`, the key is split again, and both parts
are printed into line protocol as they are.

`reports_iff` says for which replies the printed lines are the metrics of the
nodes. A node without a slot type stops the count, a colon stops the printing,
and a name with a comma, an equals sign or a blank is not read back. That no
other name is read back in its place is an argument on weights: a name with
special characters would have to come from a line with a heavier one.
-/
namespace AzHop.PbsNodes
open Lib.Json (Value Members)
open Lib.Objects (get?)
open Lib.LineProtocol Lib.Split Lib.Tally

/-! ## The script -/

/-- `v[key]`; `none` is an exception. -/
def item? (v : Value) (key : String) : Option Value :=
  match v with
  | .object ms => get? ms key.toList
  | _ => none

/-- The text of a string. -/
def string? : Value → Option (List Char)
  | .string s => some s
  | _ => none

/-- `replace("-", "_")`. -/
def label (state : List Char) : List Char := state.map fun c => if c = '-' then '_' else c

/-- `details['resources_available']['slot_type']`. -/
def slot_type? (details : Value) : Option (List Char) := do
  string? (← item? (← item? details "resources_available") "slot_type")

/-- `details['state'].replace("-", "_")`. -/
def state? (details : Value) : Option (List Char) := do
  return label (← string? (← item? details "state"))

/-- The key of a count: `state:slot_type`. -/
def key (state slot_type : List Char) : List Char := state ++ ':' :: slot_type

/-- A node counts one for its key. -/
def keyed? (node : List Char × Value) : Option (List Char × Nat) := do
  let slot_type ← slot_type? node.2
  let state ← state? node.2
  return (key state slot_type, 1)

/-- `res.get("nodes", {})`, of which the code takes the keys. -/
def nodes? (res : Value) : Option Members :=
  match res with
  | .object ms =>
    match get? ms "nodes".toList with
    | none => some []
    | some (.object nodes) => some nodes
    | some _ => none
  | _ => none

/-- The counts by key, in the order the keys first occur. -/
def data? (nodes : Members) : Option (List (List Char × Nat)) :=
  nodes.foldlM (fun data node => (keyed? node).map fun e => add data e.1 e.2) []

/-- `state, slot_type = key.split(":")`. -/
def split? (key : List Char) : Option (List Char × List Char) :=
  match key.splitOn ':' with
  | [state, slot_type] => some (state, slot_type)
  | _ => none

/-- The measurement. -/
def pbsnodes : List Char := "pbsnodes".toList

/-- The first tag. -/
def slotTypeTag : List Char := "slot_type".toList

/-- The second tag. -/
def stateTag : List Char := "state".toList

/-- The field. -/
def nodesField : List Char := "nodes".toList

/-- The tags of a point. -/
def tags (slot_type state : List Char) : List (List Char × List Char) := [(slotTypeTag, slot_type), (stateTag, state)]

/-- The point printed for one key. -/
def point (slot_type state : List Char) (n : Nat) : Point := ⟨pbsnodes, tags slot_type state, [(nodesField, n)]⟩

/-- The lines before the first key that does not split in two. -/
def printKeys : List (List Char × Nat) → List Char
  | [] => []
  | e :: data =>
    match split? e.1 with
    | some (state, slot_type) => write (point slot_type state e.2) ++ '\n' :: printKeys data
    | none => []

/-- What the script prints: nothing where it raises an exception before its loop. -/
def read_pbsnodes (res : Value) : List Char :=
  match (nodes? res).bind data? with
  | some data => printKeys data
  | none => []

/-! ## What the lines should say -/

/-- The nodes of a reply, none where it has no list of them. -/
def nodesOf (res : Value) : Members := (nodes? res).getD []

/-- The slot type and the state of a node. -/
def pair? (node : List Char × Value) : Option (List Char × List Char) := do
  let slot_type ← slot_type? node.2
  let state ← state? node.2
  return (slot_type, state)

/-- The number of nodes a point reports. -/
def value (p : Point) : Int := ((p.fields.filter fun f => f.1 = nodesField).map Prod.snd).sum

/-- The values of the points with these tags. -/
def total (ps : List Point) (slot_type state : List Char) : Int :=
  ((ps.filter fun p => p.measurement = pbsnodes ∧ p.tags = tags slot_type state).map value).sum

/-- The lines are read, give the number of nodes of every slot type and state,
and add up to the number of nodes. -/
def Reports (res : Value) : Prop := ∃ ps, decodeAll (read_pbsnodes res) = some ps ∧
  (∀ slot_type state, total ps slot_type state =
    ((nodesOf res).filter fun node => pair? node = some (slot_type, state)).length) ∧
  (ps.map value).sum = (nodesOf res).length

/-- A name that the key and the line keep whole. -/
structure Clean (cs : List Char) : Prop extends Name cs where
  no_colon : ':' ∉ cs
  no_newline : '\n' ∉ cs

/-- Slot type and state of a node are there, and plain text. -/
def NodeOk (node : List Char × Value) : Prop :=
  ∃ slot_type state, pair? node = some (slot_type, state) ∧ Clean slot_type ∧ Clean state

/-! ## Keys -/

theorem split?_eq_some {k state slot_type : List Char} :
    split? k = some (state, slot_type) ↔ k = key state slot_type ∧ ':' ∉ state ∧ ':' ∉ slot_type := by
  unfold split?
  constructor
  · intro h
    split at h
    · rename_i a b hsplit
      obtain ⟨rfl, rfl⟩ := Prod.mk.inj (Option.some.inj h)
      exact splitOn_eq_pair_iff.1 hsplit
    · cases h
  · intro h
    rw [splitOn_eq_pair_iff.2 h]

theorem keyed?_eq_some {node : List Char × Value} {e : List Char × Nat} :
    keyed? node = some e ↔ ∃ slot_type state, pair? node = some (slot_type, state) ∧ e = (key state slot_type, 1) := by
  simp only [keyed?, pair?, Option.bind_eq_bind, Option.bind_eq_some_iff, Option.pure_def, Option.some.injEq,
    Prod.mk.injEq]
  constructor
  · rintro ⟨slot_type, hslot, state, hstate, rfl⟩
    exact ⟨slot_type, state, ⟨slot_type, hslot, state, hstate, rfl, rfl⟩, rfl⟩
  · rintro ⟨_, _, ⟨slot_type, hslot, state, hstate, rfl, rfl⟩, rfl⟩
    exact ⟨slot_type, hslot, state, hstate, rfl⟩

/-- The count goes through when every node has its pair, and tallies them. -/
theorem data?_eq_some {nodes : Members} {data : List (List Char × Nat)} :
    data? nodes = some data ↔ ∃ es, nodes.mapM keyed? = some es ∧ data = tally Prod.fst Prod.snd [] es := by
  rw [data?, foldlM_add, Option.map_eq_some_iff]
  simp only [eq_comm]

/-! ## Printing -/

/-- The point a key is printed as. -/
def pointOf (e : List Char × Nat) : Point :=
  match split? e.1 with
  | some (state, slot_type) => point slot_type state e.2
  | none => point [] [] e.2

theorem value_pointOf (e : List Char × Nat) : value (pointOf e) = e.2 := by
  unfold pointOf
  split <;> simp [value, point]

theorem printKeys_eq {data : List (List Char × Nat)} (h : ∀ e ∈ data, (split? e.1).isSome = true) :
    printKeys data = print (data.map pointOf) := by
  induction data with
  | nil => rfl
  | cons e data ih =>
    have hrest := ih fun e' he' => h e' (List.mem_cons_of_mem e he')
    obtain ⟨⟨state, slot_type⟩, hsplit⟩ := Option.isSome_iff_exists.1 (h e List.mem_cons_self)
    simp [printKeys, hsplit, hrest, print, pointOf]

theorem write_point (slot_type state : List Char) (n : Nat) : write (point slot_type state n) =
    pbsnodes ++ ',' :: slotTypeTag ++ '=' :: slot_type ++ ',' :: stateTag ++ '=' :: state ++
      ' ' :: nodesField ++ '=' :: writeInt n := by
  simp [write, point, tags, writeTag, writeField, List.intercalate]

/-- A printed number has only digits before its suffix. -/
theorem of_mem_writeInt {n : Nat} {c : Char} (h : c ∈ writeInt n) : c.isDigit = true ∨ c = 'i' := by
  rcases List.mem_append.1 h with h | h
  · exact .inl (Nat.isDigit_of_mem_toDigits (by decide) (by decide) h)
  · exact .inr (List.mem_singleton.1 h)

theorem not_mem_write_point {slot_type state : List Char} {c : Char} (hslot : c ∉ slot_type) (hstate : c ∉ state)
    (hc : c = ':' ∨ c = '\n') (n : Nat) : c ∉ write (point slot_type state n) := by
  have hvalue : c ∉ writeInt n := by
    intro h
    rcases of_mem_writeInt h with h | h <;> rcases hc with rfl | rfl <;> revert h <;> decide
  have hwords : c ∉ pbsnodes ∧ c ∉ slotTypeTag ∧ c ∉ stateTag ∧ c ∉ nodesField ∧ c ≠ ',' ∧ c ≠ '=' ∧ c ≠ ' ' := by
    rcases hc with rfl | rfl <;> decide
  obtain ⟨h1, h2, h3, h4, hcomma, hequals, hblank⟩ := hwords
  rw [write_point]
  simp [h1, h2, h3, h4, hcomma, hequals, hblank, hslot, hstate, hvalue]

theorem no_colon_printKeys (data : List (List Char × Nat)) : ':' ∉ printKeys data := by
  induction data with
  | nil => exact List.not_mem_nil
  | cons e data ih =>
    unfold printKeys
    split
    · rename_i state slot_type hsplit
      obtain ⟨-, hstate, hslot⟩ := split?_eq_some.1 hsplit
      have hline := not_mem_write_point hslot hstate (.inl rfl) e.2
      simp [hline, ih]
    · exact List.not_mem_nil

/-- Every point that is read has its line. -/
theorem exists_line {output : List Char} {ps : List Point} (h : decodeAll output = some ps) {p : Point} (hp : p ∈ ps) :
    ∃ line ∈ output.splitOn '\n', decode line = some p := by
  obtain ⟨line, hline, hdecode⟩ := (Lib.Objects.mem_mapM_iff h p).1 hp
  exact ⟨line, (List.mem_filter.1 hline).1, hdecode⟩

/-! ## Clean names are counted -/

theorem name_pbsnodes : Name pbsnodes := by decide

theorem name_slotTypeTag : Name slotTypeTag := by decide

theorem name_stateTag : Name stateTag := by decide

theorem name_nodesField : Name nodesField := by decide

theorem writable_point {slot_type state : List Char} (hslot : Name slot_type) (hstate : Name state) (n : Nat) :
    Writable (point slot_type state n) := by
  refine ⟨name_pbsnodes, ?_, ?_, by simp [point]⟩
  · intro t ht
    simp only [point, tags, List.mem_cons, List.not_mem_nil, or_false] at ht
    rcases ht with rfl | rfl
    · exact ⟨name_slotTypeTag, hslot⟩
    · exact ⟨name_stateTag, hstate⟩
  · intro f hf
    rw [List.mem_singleton.1 hf]
    exact name_nodesField

theorem total_eq_sumWhere {data : List (List Char × Nat)} (h : ∀ e ∈ data, (split? e.1).isSome = true)
    (slot_type state : List Char) : total (data.map pointOf) slot_type state =
      (sumWhere (fun k => decide (split? k = some (state, slot_type))) data : Nat) := by
  induction data with
  | nil => rfl
  | cons e data ih =>
    obtain ⟨⟨state', slot_type'⟩, hsplit⟩ := Option.isSome_iff_exists.1 (h e List.mem_cons_self)
    have hrest := ih fun e' he' => h e' (List.mem_cons_of_mem e he')
    have hpoint : pointOf e = point slot_type' state' e.2 := by
      simp [pointOf, hsplit]
    have htags : tags slot_type' state' = tags slot_type state ↔ split? e.1 = some (state, slot_type) := by
      simp [tags, hsplit, and_comm]
    rw [sumWhere_cons, Int.natCast_add, ← hrest]
    unfold total
    rw [List.map_cons, List.filter_cons]
    by_cases heq : split? e.1 = some (state, slot_type)
    · simp [hpoint, point, htags, heq, value]
    · simp [hpoint, point, htags, heq]

/-! ## The data -/

theorem exists_node {nodes : Members} {data : List (List Char × Nat)} (h : data? nodes = some data)
    {e : List Char × Nat} (he : e ∈ data) :
    ∃ node ∈ nodes, ∃ slot_type state, pair? node = some (slot_type, state) ∧ e.1 = key state slot_type := by
  obtain ⟨es, hes, rfl⟩ := data?_eq_some.1 h
  obtain ⟨⟨x, hx, hkey⟩, -⟩ := (mem_tally_iff _ _).1 he
  obtain ⟨node, hnode, hentry⟩ := (Lib.Objects.mem_mapM_iff hes x).1 hx
  obtain ⟨slot_type, state, hpair, rfl⟩ := keyed?_eq_some.1 hentry
  exact ⟨node, hnode, slot_type, state, hpair, hkey.symm⟩

theorem exists_pair {nodes : Members} {data : List (List Char × Nat)} (h : data? nodes = some data)
    {node : List Char × Value} (hnode : node ∈ nodes) : ∃ slot_type state, pair? node = some (slot_type, state) := by
  obtain ⟨es, hes, -⟩ := data?_eq_some.1 h
  obtain ⟨e, hentry⟩ := Lib.Objects.exists_of_mapM hes node hnode
  obtain ⟨slot_type, state, hpair, -⟩ := keyed?_eq_some.1 hentry
  exact ⟨slot_type, state, hpair⟩

theorem sumWhere_data {nodes : Members} {data : List (List Char × Nat)} (h : data? nodes = some data)
    (p : List Char → Bool) :
    sumWhere p data = (nodes.filter fun node => (keyed? node).any fun e => p e.1).length := by
  obtain ⟨es, hes, rfl⟩ := data?_eq_some.1 h
  have hones : (es.filter fun e => p e.1).map Prod.snd =
      (nodes.filter fun node => (keyed? node).any fun e => p e.1).map fun _ => 1 := by
    refine Lib.Objects.filter_map_of_mapM (fun node e hentry => ⟨?_, ?_⟩) hes
    · rw [hentry]
      rfl
    · obtain ⟨_, _, -, rfl⟩ := keyed?_eq_some.1 hentry
      rfl
  rw [sumWhere_tally, hones]
  simp [sumWhere]

theorem sum_data {nodes : Members} {data : List (List Char × Nat)} (h : data? nodes = some data) :
    (data.map Prod.snd).sum = nodes.length := by
  have hall : (nodes.filter fun node => (keyed? node).any fun _ => true) = nodes := by
    refine List.filter_eq_self.2 fun node hnode => ?_
    obtain ⟨slot_type, state, hpair⟩ := exists_pair h hnode
    rw [keyed?_eq_some.2 ⟨slot_type, state, hpair, rfl⟩]
    rfl
  have hsum := sumWhere_data h fun _ => true
  rw [hall] at hsum
  simpa [sumWhere] using hsum

theorem sum_values (data : List (List Char × Nat)) :
    ((data.map pointOf).map value).sum = ((data.map Prod.snd).sum : Nat) := by
  induction data with
  | nil => rfl
  | cons e data ih => simp only [List.map_cons, List.sum_cons, ih, value_pointOf, Int.natCast_add]

theorem reports_of_nodeOk {res : Value} (h : ∀ node ∈ nodesOf res, NodeOk node) : Reports res := by
  cases hnodes : nodes? res with
  | none =>
    have hread : read_pbsnodes res = [] := by simp [read_pbsnodes, hnodes]
    have hnil : nodesOf res = [] := by simp [nodesOf, hnodes]
    exact ⟨[], by rw [hread]; rfl, fun _ _ => by rw [hnil]; rfl, by rw [hnil]; rfl⟩
  | some nodes =>
    have hof : nodesOf res = nodes := by simp [nodesOf, hnodes]
    rw [hof] at h
    obtain ⟨es, hes⟩ := Lib.Objects.mapM_of_forall (f := keyed?) fun node hnode => by
      obtain ⟨slot_type, state, hpair, -⟩ := h node hnode
      exact ⟨_, keyed?_eq_some.2 ⟨slot_type, state, hpair, rfl⟩⟩
    obtain ⟨data, hdata⟩ : ∃ data, data? nodes = some data := ⟨_, data?_eq_some.2 ⟨es, hes, rfl⟩⟩
    have hentry : ∀ e ∈ data, ∃ slot_type state, split? e.1 = some (state, slot_type) ∧ Clean slot_type ∧ Clean state := by
      intro e he
      obtain ⟨node, hnode, slot_type, state, hpair, hkey⟩ := exists_node hdata he
      obtain ⟨slot_type', state', hpair', hslot, hstate⟩ := h node hnode
      obtain ⟨rfl, rfl⟩ : slot_type' = slot_type ∧ state' = state := by simpa [hpair] using hpair'.symm
      exact ⟨slot_type', state', split?_eq_some.2 ⟨hkey, hstate.no_colon, hslot.no_colon⟩, hslot, hstate⟩
    have hsplit : ∀ e ∈ data, (split? e.1).isSome = true := by
      intro e he
      obtain ⟨slot_type, state, heq, -⟩ := hentry e he
      rw [heq]
      rfl
    have hread : read_pbsnodes res = print (data.map pointOf) := by
      rw [read_pbsnodes, hnodes, Option.bind_some, hdata]
      exact printKeys_eq hsplit
    refine ⟨data.map pointOf, ?_, fun slot_type state => ?_, ?_⟩
    · rw [hread]
      refine decodeAll_print fun p hp => ?_
      obtain ⟨e, he, rfl⟩ := List.mem_map.1 hp
      obtain ⟨slot_type, state, heq, hslot, hstate⟩ := hentry e he
      have hpoint : pointOf e = point slot_type state e.2 := by simp [pointOf, heq]
      rw [hpoint]
      exact ⟨writable_point hslot.toName hstate.toName e.2,
        not_mem_write_point hslot.no_newline hstate.no_newline (.inr rfl) e.2⟩
    · rw [total_eq_sumWhere hsplit, sumWhere_data hdata, hof]
      congr 2
      refine List.filter_congr fun node hnode => ?_
      obtain ⟨slot_type', state', hpair, hslot, hstate⟩ := h node hnode
      have hkey := split?_eq_some.2 ⟨rfl, hstate.no_colon, hslot.no_colon⟩
      rw [keyed?_eq_some.2 ⟨slot_type', state', hpair, rfl⟩]
      simp [hkey, hpair, and_comm]
    · rw [sum_values, sum_data hdata, hof]

/-! ## Only clean names are counted -/

/-- A value cannot grow forever along a finite list. -/
theorem no_ascent {α : Type} {l : List α} (f : α → Nat) (p : α → Prop)
    (h : ∀ x ∈ l, p x → ∃ y ∈ l, p y ∧ f x < f y) : ∀ x ∈ l, ¬p x := by
  have hgrow : ∀ n, ∀ x ∈ l, p x → ∃ y ∈ l, p y ∧ n ≤ f y := by
    intro n
    induction n with
    | zero => exact fun x hx hp => ⟨x, hx, hp, Nat.zero_le _⟩
    | succ n ih =>
      intro x hx hp
      obtain ⟨y, hy, hpy, hn⟩ := ih x hx hp
      obtain ⟨z, hz, hpz, hlt⟩ := h y hy hpy
      exact ⟨z, hz, hpz, by omega⟩
  intro x hx hp
  obtain ⟨y, hy, -, hn⟩ := hgrow ((l.map f).sum + 1) x hx hp
  obtain ⟨front, back, rfl⟩ := List.append_of_mem hy
  simp only [List.map_append, List.map_cons, List.sum_append, List.sum_cons] at hn
  omega

theorem exists_point {ps : List Point} {slot_type state : List Char} (h : total ps slot_type state ≠ 0) :
    ∃ p ∈ ps, p.tags = tags slot_type state := by
  by_contra hno
  have hnil : (ps.filter fun p => p.measurement = pbsnodes ∧ p.tags = tags slot_type state) = [] := by
    refine List.filter_eq_nil_iff.2 fun p hp htags => hno ⟨p, hp, ?_⟩
    exact (of_decide_eq_true htags).2
  exact h (by rw [total, hnil]; rfl)

/-- Everything that is asked of a name except that it has no special characters. -/
structure Half (cs : List Char) : Prop where
  ne_nil : cs ≠ []
  closed : Closed cs
  no_colon : ':' ∉ cs
  no_newline : '\n' ∉ cs

theorem half_of_decode {data : List (List Char × Nat)} {line : List Char}
    (hline : line ∈ (printKeys data).splitOn '\n') {p : Point} (h : decode line = some p) {t : List Char × List Char}
    (ht : t ∈ p.tags) : Half t.2 := by
  obtain ⟨-, hne, hclosed, hmem⟩ := tag_of_decode h ht
  obtain ⟨hnewline, hchars⟩ := of_mem_splitOn hline
  refine ⟨hne, hclosed, fun hc => ?_, fun hc => hnewline (hmem _ hc)⟩
  exact no_colon_printKeys data (hchars _ (hmem _ hc))

/-- A pair read from a line weighs no more than the pair the line was written for. -/
theorem weight_of_decode (w : Char → Nat) (hword : ∀ c, w c ≠ 0 → isSpecial c = true ∨ c = '\\')
    {slot_type state slot_type' state' : List Char} {n : Nat} {p : Point}
    (h : decode (write (point slot_type' state' n)) = some p) (htags : p.tags = tags slot_type state) :
    nameCost w slot_type + nameCost w state ≤ weight w slot_type' + weight w state' := by
  have hzero : ∀ cs : List Char, Plain cs → '\\' ∉ cs → weight w cs = 0 := by
    intro cs hplain hslash
    induction cs with
    | nil => rfl
    | cons c cs ih =>
      have hc : w c = 0 := by
        by_contra hne
        rcases hword c hne with hs | rfl
        · rw [hplain c List.mem_cons_self] at hs
          cases hs
        · exact hslash List.mem_cons_self
      rw [weight_cons, hc, ih (fun d hd => hplain d (List.mem_cons_of_mem c hd)) fun hd => hslash (List.mem_cons_of_mem c hd)]
  have hvalue : weight w (writeInt n) = 0 := by
    refine hzero _ (name_writeInt n).plain fun hc => ?_
    rcases of_mem_writeInt hc with h | h <;> revert h <;> decide
  have hwords : weight w pbsnodes = 0 ∧ weight w slotTypeTag = 0 ∧ weight w stateTag = 0 ∧ weight w nodesField = 0 :=
    ⟨hzero _ name_pbsnodes.plain (by decide), hzero _ name_slotTypeTag.plain (by decide),
      hzero _ name_stateTag.plain (by decide), hzero _ name_nodesField.plain (by decide)⟩
  have hle := tagCost_le_weight w h
  rw [htags, write_point] at hle
  simp only [tags, List.map_cons, List.map_nil, List.sum_cons, List.sum_nil, tagCost, nameCost_eq w slotTypeTag,
    nameCost_eq w stateTag, weight_append, weight_cons, hwords, hvalue] at hle
  omega

/-- One for a character that the protocol escapes. -/
def specialWeight (c : Char) : Nat := if isSpecial c then 1 else 0

/-- One for these characters and for the backslash. -/
def escapeWeight (c : Char) : Nat := if isSpecial c ∨ c = '\\' then 1 else 0

theorem of_specialWeight_ne_zero {c : Char} (h : specialWeight c ≠ 0) : isSpecial c = true ∨ c = '\\' := by
  unfold specialWeight at h
  split at h
  · exact .inl ‹_›
  · exact absurd rfl h

theorem of_escapeWeight_ne_zero {c : Char} (h : escapeWeight c ≠ 0) : isSpecial c = true ∨ c = '\\' := by
  unfold escapeWeight at h
  split at h
  · assumption
  · exact absurd rfl h

theorem weight_specialWeight (cs : List Char) : weight specialWeight cs = (cs.filter isSpecial).length := by
  induction cs with
  | nil => rfl
  | cons c cs ih =>
    rw [weight_cons, ih, List.filter_cons, specialWeight]
    split
    · rw [List.length_cons, Nat.add_comm]
    · exact Nat.zero_add _

theorem plain_of_weight {cs : List Char} (h : weight specialWeight cs = 0) : Plain cs := by
  rw [weight_specialWeight, List.length_eq_zero_iff, List.filter_eq_nil_iff] at h
  intro c hc
  simpa using h c hc

/-- When every pair of the nodes is read back, none has a special character. -/
theorem plain_of_read {nodes : Members} (hread : ∀ node ∈ nodes, ∀ slot_type state, pair? node = some (slot_type, state) →
      ∃ node' ∈ nodes, ∃ slot_type' state' n p, pair? node' = some (slot_type', state') ∧
        decode (write (point slot_type' state' n)) = some p ∧ p.tags = tags slot_type state) :
    ∀ node ∈ nodes, ∀ slot_type state, pair? node = some (slot_type, state) → Plain slot_type ∧ Plain state := by
  let special (node : List Char × Value) : Nat :=
    (pair? node).elim 0 fun pair => weight specialWeight pair.1 + weight specialWeight pair.2
  let heavy (node : List Char × Value) : Nat :=
    (pair? node).elim 0 fun pair => weight escapeWeight pair.1 + weight escapeWeight pair.2
  have hnone : ∀ node ∈ nodes, ¬0 < special node := by
    refine no_ascent heavy (fun node => 0 < special node) fun node hnode hpos => ?_
    cases hpair : pair? node with
    | none => simp [special, hpair] at hpos
    | some pair =>
      obtain ⟨slot_type, state⟩ := pair
      obtain ⟨node', hnode', slot_type', state', n, p, hpair', hdecode, htags⟩ := hread node hnode slot_type state hpair
      have hspecial := weight_of_decode specialWeight (fun _ => of_specialWeight_ne_zero) hdecode htags
      have hescape := weight_of_decode escapeWeight (fun _ => of_escapeWeight_ne_zero) hdecode htags
      have hslash : specialWeight '\\' = 0 ∧ escapeWeight '\\' = 1 := by decide
      simp only [nameCost_eq, hslash, ← weight_specialWeight] at hspecial hescape
      simp only [special, hpair, Option.elim_some] at hpos
      refine ⟨node', hnode', ?_, ?_⟩
      · simp only [special, hpair', Option.elim_some]
        omega
      · simp only [heavy, hpair, hpair', Option.elim_some]
        omega
  intro node hnode slot_type state hpair
  have hzero := hnone node hnode
  simp only [special, hpair, Option.elim_some] at hzero
  exact ⟨plain_of_weight (by omega), plain_of_weight (by omega)⟩

section ReadBack

variable {nodes : Members} {data : List (List Char × Nat)} {ps : List Point}

/-- The tags of a node are those of a line. -/
def Reported (nodes : Members) (ps : List Point) : Prop :=
  ∀ node ∈ nodes, ∀ slot_type state, pair? node = some (slot_type, state) → ∃ p ∈ ps, p.tags = tags slot_type state

theorem half_of_reported (hps : decodeAll (printKeys data) = some ps) (h : Reported nodes ps) :
    ∀ node ∈ nodes, ∀ slot_type state, pair? node = some (slot_type, state) → Half slot_type ∧ Half state := by
  intro node hnode slot_type state hpair
  obtain ⟨p, hp, htags⟩ := h node hnode slot_type state hpair
  obtain ⟨line, hmem, hdecode⟩ := exists_line hps hp
  exact ⟨half_of_decode hmem hdecode (t := (slotTypeTag, slot_type)) (by simp [htags, tags]),
    half_of_decode hmem hdecode (t := (stateTag, state)) (by simp [htags, tags])⟩

/-- What no colon and no line end cuts is printed as the point of a node. -/
theorem point_of_half (hdata : data? nodes = some data)
    (hhalf : ∀ node ∈ nodes, ∀ slot_type state, pair? node = some (slot_type, state) → Half slot_type ∧ Half state)
    {e : List Char × Nat} (he : e ∈ data) :
    ∃ node ∈ nodes, ∃ slot_type state, pair? node = some (slot_type, state) ∧
      split? e.1 = some (state, slot_type) ∧ pointOf e = point slot_type state e.2 := by
  obtain ⟨node, hnode, slot_type, state, hpair, hkey⟩ := exists_node hdata he
  obtain ⟨hslot, hstate⟩ := hhalf node hnode slot_type state hpair
  have hsplit := split?_eq_some.2 ⟨hkey, hstate.no_colon, hslot.no_colon⟩
  exact ⟨node, hnode, slot_type, state, hpair, hsplit, by simp [pointOf, hsplit]⟩

theorem lines_of_half (hdata : data? nodes = some data)
    (hhalf : ∀ node ∈ nodes, ∀ slot_type state, pair? node = some (slot_type, state) → Half slot_type ∧ Half state) :
    ((printKeys data).splitOn '\n').filter (· ≠ []) = (data.map pointOf).map write := by
  have hprint : printKeys data = print (data.map pointOf) := by
    refine printKeys_eq fun e he => ?_
    obtain ⟨_, _, _, _, _, heq, -⟩ := point_of_half hdata hhalf he
    rw [heq]
    rfl
  rw [hprint]
  refine lines_print fun q hq => ?_
  obtain ⟨e, he, rfl⟩ := List.mem_map.1 hq
  obtain ⟨node, hnode, slot_type, state, hpair, -, hpoint⟩ := point_of_half hdata hhalf he
  obtain ⟨hslot, hstate⟩ := hhalf node hnode slot_type state hpair
  rw [hpoint]
  exact not_mem_write_point hslot.no_newline hstate.no_newline (.inr rfl) e.2

/-- The line a node is reported on was written for some node. -/
theorem written_of_reported (hdata : data? nodes = some data) (hps : decodeAll (printKeys data) = some ps)
    (h : Reported nodes ps) : ∀ node ∈ nodes, ∀ slot_type state, pair? node = some (slot_type, state) →
      ∃ node' ∈ nodes, ∃ slot_type' state' n p, pair? node' = some (slot_type', state') ∧
        decode (write (point slot_type' state' n)) = some p ∧ p.tags = tags slot_type state := by
  intro node hnode slot_type state hpair
  have hhalf := half_of_reported hps h
  obtain ⟨p, hp, htags⟩ := h node hnode slot_type state hpair
  obtain ⟨line, hmem, hdecode⟩ := (Lib.Objects.mem_mapM_iff hps p).1 hp
  rw [lines_of_half hdata hhalf] at hmem
  obtain ⟨q, hq, rfl⟩ := List.mem_map.1 hmem
  obtain ⟨e, he, rfl⟩ := List.mem_map.1 hq
  obtain ⟨node', hnode', slot_type', state', hpair', -, hpoint⟩ := point_of_half hdata hhalf he
  exact ⟨node', hnode', slot_type', state', e.2, p, hpair', hpoint ▸ hdecode, htags⟩

end ReadBack

theorem nodeOk_of_reports {res : Value} (h : Reports res) : ∀ node ∈ nodesOf res, NodeOk node := by
  obtain ⟨ps, hps, htotal, hsum⟩ := h
  cases hdata : (nodes? res).bind data? with
  | none =>
    have hread : read_pbsnodes res = [] := by simp [read_pbsnodes, hdata]
    rw [hread] at hps
    cases hps
    have hnil : nodesOf res = [] := List.length_eq_zero_iff.1 (by simpa using hsum.symm)
    simp [hnil]
  | some data =>
    obtain ⟨nodes, hnodes, hdata'⟩ := Option.bind_eq_some_iff.1 hdata
    have hof : nodesOf res = nodes := by simp [nodesOf, hnodes]
    have hread : read_pbsnodes res = printKeys data := by simp [read_pbsnodes, hdata]
    rw [hof] at htotal ⊢
    rw [hread] at hps
    -- a node without a line would leave the total of its tags at zero
    have hreported : Reported nodes ps := by
      intro node hnode slot_type state hpair
      refine exists_point fun hzero => ?_
      rw [htotal slot_type state] at hzero
      have hnil := List.length_eq_zero_iff.1 (Int.ofNat_eq_zero.1 hzero)
      exact List.filter_eq_nil_iff.1 hnil node hnode (by simp [hpair])
    intro node hnode
    obtain ⟨slot_type, state, hpair⟩ := exists_pair hdata' hnode
    obtain ⟨hslot, hstate⟩ := half_of_reported hps hreported node hnode slot_type state hpair
    obtain ⟨hslotPlain, hstatePlain⟩ :=
      plain_of_read (written_of_reported hdata' hps hreported) node hnode slot_type state hpair
    exact ⟨slot_type, state, hpair, ⟨⟨hslot.ne_nil, hslotPlain, hslot.closed⟩, hslot.no_colon, hslot.no_newline⟩,
      ⟨⟨hstate.ne_nil, hstatePlain, hstate.closed⟩, hstate.no_colon, hstate.no_newline⟩⟩

/-- The metrics are the nodes of the reply exactly when every node has a slot
type and a state that the key and the line keep whole. -/
theorem reports_iff (res : Value) : Reports res ↔ ∀ node ∈ nodesOf res, NodeOk node :=
  ⟨nodeOk_of_reports, reports_of_nodeOk⟩

/-- A reply with one node. -/
def reply (name state slot_type : String) : Value :=
  .object [("nodes".toList, .object [(name.toList, .object [("state".toList, .string state.toList),
    ("resources_available".toList, .object [("slot_type".toList, .string slot_type.toList)])])])]

/-- A node in two states at once, which `pbsnodes` separates by a comma. -/
theorem not_reports_combined : ¬Reports (reply "n1" "job-busy,offline" "execute") := by
  rintro ⟨ps, hps, -⟩
  have hnone : decodeAll (read_pbsnodes (reply "n1" "job-busy,offline" "execute")) = none := by decide
  rw [hnone] at hps
  cases hps

end AzHop.PbsNodes
