import AzHop.Lib.LineProtocol
import AzHop.Lib.Tally
import Mathlib.Tactic.ByContra
/-!
# PBS queue metrics

`read_pbsqueue` of `collect_pbs_stats.py` in `playbooks/telegraf.yml`. It reads
the select of a job, chunks `[N:]resource=value...` with a plus between them,
as if it were one chunk with a count: the count is the text before the first
colon, the slot type what follows the first `slot_type=` up to the next colon.

`right_iff` says for which jobs the printed counts are those of their chunks,
`right_parts_iff` that this comes down to a condition on each job once every
part of the jobs is to be counted right. A job alone is right when its first
chunk has a count that the chunks with a slot type share, and its slot type is
not followed by a plus (`JobOk`).
-/
namespace AzHop.PbsQueue
open Lib.Objects (get?)
open Lib.LineProtocol Lib.Split Lib.Tally

/-! ## Selects -/

/-- `[N:]resource=value...`. -/
structure Chunk where
  count : Option (List Char)
  resources : List (List Char × List Char)

namespace Chunk

/-- What stands between the colons. -/
def pieces (c : Chunk) : List (List Char) := c.count.toList ++ c.resources.map fun r => r.1 ++ '=' :: r.2

def text (c : Chunk) : List Char := List.intercalate [':'] c.pieces

structure Legal (c : Chunk) : Prop where
  numeral : ∀ n, c.count = some n → n ≠ [] ∧ ∀ d ∈ n, d.isDigit = true
  ne_nil : c.resources ≠ []
  name : ∀ r ∈ c.resources, '=' ∉ r.1 ∧ ':' ∉ r.1 ∧ '+' ∉ r.1
  value : ∀ r ∈ c.resources, ':' ∉ r.2 ∧ '+' ∉ r.2

/-- The number of nodes, 1 without a count. -/
def nodes (c : Chunk) : Nat :=
  match c.count with
  | some n => Nat.ofDigitChars 10 n 0
  | none => 1

/-- The resource the script looks for. -/
def slotTypeName : List Char := "slot_type".toList

/-- The slot type a chunk asks for. -/
def slot_type (c : Chunk) : Option (List Char) := get? c.resources slotTypeName

end Chunk

/-- What stands after `select=`: chunks, each of a legal form. -/
structure Select where
  first : Chunk
  more : List Chunk
  legal : ∀ c ∈ first :: more, c.Legal

namespace Select

def chunks (s : Select) : List Chunk := s.first :: s.more

def text (s : Select) : List Char := List.intercalate ['+'] (s.chunks.map Chunk.text)

end Select

/-- What is read of a job's details. -/
structure Job where
  Job_Owner : List Char
  job_state : List Char
  select : Select

/-! ## The script -/

def strip (cs : List Char) : List Char :=
  ((cs.dropWhile Char.isWhitespace).reverse.dropWhile Char.isWhitespace).reverse

/-- Digits, with single underscores between them. -/
def digits? (cs : List Char) : Option Nat :=
  if [] ∉ cs.splitOn '_' ∧ cs.all (fun c => c.isDigit || c = '_') then
    some (Nat.ofDigitChars 10 (cs.filter (· ≠ '_')) 0)
  else none

/-- `int(count)`; `none` is a `ValueError`. -/
def int? (count : List Char) : Option Int :=
  match strip count with
  | '-' :: cs => (digits? cs).map fun n => -(n : Int)
  | '+' :: cs => (digits? cs).map fun n => (n : Int)
  | cs => (digits? cs).map fun n => (n : Int)

/-- `s.find(pat, start)`. -/
def find (pat s : List Char) (start : Nat) : Int :=
  match find? pat (s.drop start) with
  | some i => start + i
  | none => -1

/-- The text the script looks for. -/
def m_str : List Char := "slot_type=".toList

/-- `slot_type`, read from the select. Without `m_str` in it the slice starts at 9. -/
def slotType (sel : List Char) : List Char :=
  let m_beg := (find m_str sel 0 + m_str.length).toNat
  let m_end := find [':'] sel m_beg
  if m_end ≠ -1 then (sel.take m_end.toNat).drop m_beg else sel.drop m_beg

/-- `details["Job_Owner"].split("@")[0]`. -/
def owner (job : Job) : List Char := (job.Job_Owner.splitOn '@').headD []

/-- The key of a count: `state:slot_type:owner`. -/
def key (state slot_type owner : List Char) : List Char := state ++ ':' :: slot_type ++ ':' :: owner

/-- What a job counts, and for which key. -/
def keyed? (job : Job) : Option (List Char × Int) :=
  let sel := job.select.text
  let count := (sel.splitOn ':').headD []
  (int? count).map fun n => (key job.job_state (slotType sel) (owner job), n)

/-- The counts by key; the conversion of a number can raise an exception. -/
def data? (jobs : List Job) : Option (List (List Char × Int)) :=
  jobs.foldlM (fun data job => (keyed? job).map fun e => add data e.1 e.2) []

/-- `state, slot_type, owner = key.split(":")`. -/
def split? (key : List Char) : Option (List Char × List Char × List Char) :=
  match key.splitOn ':' with
  | [state, slot_type, owner] => some (state, slot_type, owner)
  | _ => none

/-- The measurement. -/
def pbsjobs : List Char := "pbsjobs".toList

/-- The field. -/
def nodesField : List Char := "nodes".toList

/-- The first tag. -/
def slotTypeTag : List Char := "slot_type".toList

/-- The second tag. -/
def stateTag : List Char := "state".toList

/-- The third tag. -/
def ownerTag : List Char := "owner".toList

/-- The tags of a point. -/
def tags (state slot_type owner : List Char) : List (List Char × List Char) :=
  [(slotTypeTag, slot_type), (stateTag, state), (ownerTag, owner)]

/-- The point printed for one key. -/
def point (state slot_type owner : List Char) (n : Int) : Point :=
  ⟨pbsjobs, tags state slot_type owner, [(nodesField, n)]⟩

/-- What is printed, and whether an exception ends the script. -/
structure Outcome where
  printed : List Point
  raised : Bool

/-- The loop that prints: a key of more than three parts ends it. -/
def printKeys : List (List Char × Int) → Outcome
  | [] => ⟨[], false⟩
  | e :: data =>
    match split? e.1 with
    | some (state, slot_type, owner) =>
      ⟨point state slot_type owner e.2 :: (printKeys data).printed, (printKeys data).raised⟩
    | none => ⟨[], true⟩

/-- What the script prints, and whether it ends with an exception. -/
def read_pbsqueue (jobs : List Job) : Outcome :=
  match data? jobs with
  | some data => printKeys data
  | none => ⟨[], true⟩

/-! ## What should be printed -/

/-- The nodes of the chunks with this slot type. -/
def slotNodes (job : Job) (slot_type : List Char) : Nat :=
  ((job.select.chunks.filter fun c => c.slot_type = some slot_type).map Chunk.nodes).sum

/-- The nodes of a slot type that a user's jobs in one state ask for. -/
def expected (jobs : List Job) (state slot_type user : List Char) : Nat :=
  ((jobs.filter fun job => job.job_state = state ∧ owner job = user).map fun job => slotNodes job slot_type).sum

/-- The number of nodes a point reports. -/
def value (p : Point) : Int := ((p.fields.filter fun f => f.1 = nodesField).map Prod.snd).sum

/-- The number that is reported for a state, a slot type and a user. -/
def total (ps : List Point) (state slot_type user : List Char) : Int :=
  ((ps.filter fun p => p.measurement = pbsjobs ∧ p.tags = tags state slot_type user).map value).sum

/-- The script ends without an exception, and its counts are those of the chunks. -/
def Right (jobs : List Job) : Prop := (read_pbsqueue jobs).raised = false ∧
  ∀ state slot_type user, total (read_pbsqueue jobs).printed state slot_type user = expected jobs state slot_type user

/-! ## What the code reads of a job -/

/-- What follows the first `slot_type=` of a chunk in its piece, and whether the
piece is the last of the chunk. -/
def markedIn : List (List Char) → Option (List Char × Bool)
  | [] => none
  | [p] => (rest? m_str p).map fun v => (v, true)
  | p :: p' :: ps => ((rest? m_str p).map fun v => (v, false)).or (markedIn (p' :: ps))

/-- The same of a select, with whether a plus comes after the piece. -/
def marked : Chunk → List Chunk → Option (List Char × Bool)
  | c, [] => (markedIn c.pieces).map fun v => (v.1, false)
  | c, c' :: cs => (markedIn c.pieces).or (marked c' cs)

/-- The slot type the script finds in a job, and whether it is the whole one. -/
def Job.marked (job : Job) : Option (List Char × Bool) := PbsQueue.marked job.select.first job.select.more

/-- The count is there and the key splits in three. -/
structure Printable (job : Job) : Prop where
  count : ∃ n, job.select.first.count = some n
  state : ':' ∉ job.job_state
  owner : ':' ∉ owner job

/-- The count and the slot type that are read are those of the chunks that name
one, or there are no nodes to count. -/
def SlotOk (job : Job) : Prop :=
  (∃ v, job.marked = some (v, false) ∧ slotNodes job v = job.select.first.nodes ∧
    ∀ c ∈ job.select.chunks, ∀ s, c.slot_type = some s → s ≠ v → c.nodes = 0) ∨
  (job.select.first.nodes = 0 ∧ ∀ c ∈ job.select.chunks, c.slot_type ≠ none → c.nodes = 0)

/-- A job that is reported right. -/
structure JobOk (job : Job) : Prop where
  printable : Printable job
  slot : SlotOk job

/-! ## The count -/

theorem mem_strip {c : Char} (hc : c.isWhitespace = false) {cs : List Char} (h : c ∈ cs) : c ∈ strip cs := by
  unfold strip
  rw [List.mem_reverse]
  exact mem_dropWhile hc (List.mem_reverse.2 (mem_dropWhile hc h))

theorem digits?_of_equals {cs : List Char} (h : '=' ∈ cs) : digits? cs = none := by
  refine if_neg ?_
  rintro ⟨-, hall⟩
  have hchar := List.all_eq_true.1 hall '=' h
  revert hchar
  decide

theorem int?_of_equals {cs : List Char} (h : '=' ∈ cs) : int? cs = none := by
  have hmem : '=' ∈ strip cs := mem_strip (by decide) h
  unfold int?
  split
  · rename_i ds heq
    have hds : '=' ∈ ds := by simpa [heq] using hmem
    simp [digits?_of_equals hds]
  · rename_i ds heq
    have hds : '=' ∈ ds := by simpa [heq] using hmem
    simp [digits?_of_equals hds]
  · simp [digits?_of_equals hmem]

theorem strip_numeral {n : List Char} (h : ∀ d ∈ n, d.isDigit = true) : strip n = n := by
  have hspace : ∀ l : List Char, (∀ d ∈ l, d.isDigit = true) → l.dropWhile Char.isWhitespace = l := by
    intro l hl
    cases l with
    | nil => rfl
    | cons d l =>
      have hd := hl d List.mem_cons_self
      have hno : d.isWhitespace = false := by
        rw [← Bool.not_eq_true]
        intro hw
        simp only [Char.isWhitespace, Bool.or_eq_true, decide_eq_true_eq] at hw
        rcases hw with ((rfl | rfl) | rfl) | rfl <;> revert hd <;> decide
      rw [List.dropWhile_cons, hno]
      rfl
  unfold strip
  rw [hspace n h, hspace n.reverse fun d hd => h d (List.mem_reverse.1 hd), List.reverse_reverse]

theorem int?_numeral {n : List Char} (hne : n ≠ []) (h : ∀ d ∈ n, d.isDigit = true) :
    int? n = some (Nat.ofDigitChars 10 n 0 : Int) := by
  have hunder : '_' ∉ n := fun hmem => by
    have hd := h '_' hmem
    revert hd
    decide
  have hdigits : digits? n = some (Nat.ofDigitChars 10 n 0) := by
    have hsplit : n.splitOn '_' = [n] := List.splitOn_eq_singleton hunder
    have hall : n.all (fun c => c.isDigit || c = '_') = true := List.all_eq_true.2 fun d hd => by simp [h d hd]
    have hfilter : n.filter (· ≠ '_') = n := by
      refine List.filter_eq_self.2 fun d hd => ?_
      have hd' : d ≠ '_' := fun heq => hunder (heq ▸ hd)
      simpa using hd'
    rw [digits?, if_pos ⟨by simpa [hsplit] using hne.symm, hall⟩, hfilter]
  unfold int?
  rw [strip_numeral h]
  split
  · exact absurd (h '-' List.mem_cons_self) (by decide)
  · exact absurd (h '+' List.mem_cons_self) (by decide)
  · rw [hdigits]
    rfl

/-! ## The text of a select -/

theorem Chunk.Legal.pieces_ne_nil {c : Chunk} (h : c.Legal) : c.pieces ≠ [] := by
  simp [Chunk.pieces, h.ne_nil]

theorem Chunk.Legal.of_mem_pieces {c : Chunk} (h : c.Legal) {p : List Char} (hp : p ∈ c.pieces) :
    ':' ∉ p ∧ '+' ∉ p := by
  rcases List.mem_append.1 hp with hp | hp
  · obtain ⟨-, hdigits⟩ := h.numeral p (Option.mem_toList.1 hp)
    exact ⟨fun hc => absurd (hdigits _ hc) (by decide), fun hc => absurd (hdigits _ hc) (by decide)⟩
  · obtain ⟨r, hr, rfl⟩ := List.mem_map.1 hp
    obtain ⟨-, hcolon, hplus⟩ := h.name r hr
    obtain ⟨hcolon', hplus'⟩ := h.value r hr
    simp [hcolon, hplus, hcolon', hplus']

/-- The text of the chunks `c :: cs`. -/
def textOf (c : Chunk) (cs : List Chunk) : List Char := List.intercalate ['+'] ((c :: cs).map Chunk.text)

theorem textOf_nil (c : Chunk) : textOf c [] = c.text := by simp [textOf, List.intercalate]

theorem textOf_cons (c c' : Chunk) (cs : List Chunk) : textOf c (c' :: cs) = c.text ++ '+' :: textOf c' cs := by
  simp [textOf, List.intercalate]

/-- What comes before the first colon. -/
theorem headD_text (s : Select) : match s.first.count with
    | some n => (s.text.splitOn ':').headD [] = n
    | none => '=' ∈ (s.text.splitOn ':').headD [] := by
  have hlegal := s.legal s.first List.mem_cons_self
  have hprefix : ∃ rest, s.text = s.first.text ++ rest := by
    cases hmore : s.more with
    | nil => exact ⟨[], by simp [Select.text, Select.chunks, hmore, List.intercalate]⟩
    | cons c cs =>
      exact ⟨'+' :: textOf c cs, by rw [← textOf_cons]; simp [Select.text, Select.chunks, hmore, textOf]⟩
  obtain ⟨rest, hrest⟩ := hprefix
  obtain ⟨r, rs, hr⟩ := List.exists_cons_of_ne_nil hlegal.ne_nil
  rw [headD_splitOn, hrest]
  cases hcount : s.first.count with
  | some n =>
    have hcolon : ':' ∉ n := (hlegal.of_mem_pieces (by simp [Chunk.pieces, hcount])).1
    have htext : s.first.text = n ++ ':' :: List.intercalate [':'] (s.first.resources.map fun r => r.1 ++ '=' :: r.2) := by
      simp [Chunk.text, Chunk.pieces, hcount, hr, List.intercalate]
    simp only [htext, List.append_assoc, List.cons_append]
    exact takeWhile_append_cons hcolon _
  | none =>
    have htext : ∃ tail, s.first.text = r.1 ++ '=' :: tail := by
      cases rs with
      | nil => exact ⟨r.2, by simp [Chunk.text, Chunk.pieces, hcount, hr, List.intercalate]⟩
      | cons r' rs =>
        exact ⟨_, by
          simp only [Chunk.text, Chunk.pieces, hcount, hr, List.map_cons, List.intercalate, List.intersperse,
            Option.toList_none, List.nil_append, List.flatten_cons, List.append_assoc, List.cons_append]
          rfl⟩
    obtain ⟨tail, htail⟩ := htext
    have hname : ∀ x ∈ r.1, decide (x ≠ ':') = true := fun x hx => decide_eq_true fun heq =>
      (hlegal.name r (by simp [hr])).2.1 (heq ▸ hx)
    simp only [htail, List.append_assoc, List.cons_append]
    rw [List.takeWhile_append_of_pos hname]
    simp

theorem int?_headD (s : Select) :
    int? ((s.text.splitOn ':').headD []) = s.first.count.map fun n => (Nat.ofDigitChars 10 n 0 : Int) := by
  have hhead := headD_text s
  cases hcount : s.first.count with
  | some n =>
    rw [hcount] at hhead
    obtain ⟨hne, hdigits⟩ := (s.legal s.first List.mem_cons_self).numeral n hcount
    rw [hhead, int?_numeral hne hdigits]
    rfl
  | none =>
    rw [hcount] at hhead
    exact int?_of_equals hhead

/-! ## The slot type -/

/-- The slice is what follows `slot_type=` up to the next colon. -/
theorem slotType_eq (sel : List Char) : slotType sel = ((rest? m_str sel).getD (sel.drop 9)).takeWhile (· ≠ ':') := by
  have hslice : ∀ m_beg : Nat, (if find [':'] sel m_beg ≠ -1 then (sel.take (find [':'] sel m_beg).toNat).drop m_beg
      else sel.drop m_beg) = (sel.drop m_beg).takeWhile (· ≠ ':') := by
    intro m_beg
    unfold find
    cases hfind : find? [':'] (sel.drop m_beg) with
    | none => rw [if_neg (by simp), takeWhile_eq_self (not_mem_of_find? hfind)]
    | some i =>
      have hne : ¬((m_beg : Int) + (i : Int) = -1) := by omega
      have htoNat : ((m_beg : Int) + (i : Int)).toNat = m_beg + i := by omega
      rw [if_pos hne, htoNat, List.drop_take, Nat.add_sub_cancel_left, take_of_find? hfind]
  have hlength : m_str.length = 10 := rfl
  rw [slotType, hslice, rest?_eq_drop]
  unfold find
  rw [List.drop_zero]
  cases find? m_str sel with
  | none => rfl
  | some i =>
    have hbeg : ((0 : Nat) + (i : Int) + (m_str.length : Int)).toNat = i + m_str.length := by omega
    simp only [hbeg, Option.map_some, Option.getD_some]

/-- What follows the mark in a chunk's text, by its pieces. -/
theorem rest?_pieces {ps : List (List Char)} (hne : ps ≠ []) : match markedIn ps with
    | some (v, true) => rest? m_str (List.intercalate [':'] ps) = some v
    | some (v, false) => ∃ tail, rest? m_str (List.intercalate [':'] ps) = some (v ++ ':' :: tail)
    | none => rest? m_str (List.intercalate [':'] ps) = none := by
  induction ps with
  | nil => exact absurd rfl hne
  | cons p ps ih =>
    cases ps with
    | nil =>
      have htext : List.intercalate [':'] [p] = p := by simp [List.intercalate]
      rw [htext, markedIn]
      cases rest? m_str p <;> rfl
    | cons p' ps =>
      have htext : List.intercalate [':'] (p :: p' :: ps) = p ++ ':' :: List.intercalate [':'] (p' :: ps) := by
        simp [List.intercalate]
      have hmark : ':' ∉ m_str := by decide
      rw [htext, markedIn, rest?_append_cons hmark]
      cases hp : rest? m_str p with
      | some v => exact ⟨_, rfl⟩
      | none => exact ih (List.cons_ne_nil p' ps)

/-- What follows the mark in the text of a select: the end or a colon, or a plus. -/
theorem rest?_textOf (c : Chunk) (cs : List Chunk) (h : ∀ d ∈ c :: cs, d.pieces ≠ []) : match marked c cs with
    | some (v, true) => ∃ tail, rest? m_str (textOf c cs) = some (v ++ '+' :: tail)
    | some (v, false) => ∃ tail, rest? m_str (textOf c cs) = some (v ++ tail) ∧ (tail = [] ∨ tail.head? = some ':')
    | none => rest? m_str (textOf c cs) = none := by
  induction cs generalizing c with
  | nil =>
    have hpieces := rest?_pieces (h c List.mem_cons_self)
    rw [textOf_nil, marked]
    cases hmark : markedIn c.pieces with
    | none =>
      rw [hmark] at hpieces
      exact hpieces
    | some r =>
      obtain ⟨v, last⟩ := r
      rw [hmark] at hpieces
      cases last with
      | true => exact ⟨[], by rw [List.append_nil]; exact hpieces, .inl rfl⟩
      | false =>
        obtain ⟨tail, htail⟩ := hpieces
        exact ⟨':' :: tail, htail, .inr rfl⟩
  | cons c' cs ih =>
    have hpieces := rest?_pieces (h c List.mem_cons_self)
    have hplus : '+' ∉ m_str := by decide
    rw [textOf_cons, marked, rest?_append_cons hplus]
    cases hmark : markedIn c.pieces with
    | none =>
      rw [hmark] at hpieces
      have htext : rest? m_str c.text = none := hpieces
      rw [htext]
      exact ih c' fun d hd => h d (List.mem_cons_of_mem c hd)
    | some r =>
      obtain ⟨v, last⟩ := r
      rw [hmark] at hpieces
      cases last with
      | true =>
        have htext : rest? m_str c.text = some v := hpieces
        rw [htext]
        exact ⟨_, rfl⟩
      | false =>
        obtain ⟨tail, htail⟩ := hpieces
        have htext : rest? m_str c.text = some (v ++ ':' :: tail) := htail
        rw [htext]
        exact ⟨':' :: (tail ++ '+' :: textOf c' cs), by simp, .inr rfl⟩

/-- A piece with the mark makes the chunk marked. -/
theorem markedIn_ne_none {ps : List (List Char)} {p : List Char} (hp : p ∈ ps) (h : rest? m_str p ≠ none) :
    markedIn ps ≠ none := by
  induction ps with
  | nil => cases hp
  | cons q ps ih =>
    cases ps with
    | nil =>
      obtain rfl := List.mem_singleton.1 hp
      simpa [markedIn] using h
    | cons q' ps =>
      rw [markedIn]
      rcases List.mem_cons.1 hp with rfl | hp
      · cases hr : rest? m_str p with
        | none => exact absurd hr h
        | some v => simp
      · cases hr : rest? m_str q with
        | none => simpa using ih hp
        | some v => simp

theorem marked_ne_none {c : Chunk} {cs : List Chunk} {d : Chunk} (hd : d ∈ c :: cs) (h : markedIn d.pieces ≠ none) :
    marked c cs ≠ none := by
  induction cs generalizing c with
  | nil =>
    obtain rfl := List.mem_singleton.1 hd
    simpa [marked] using h
  | cons c' cs ih =>
    rw [marked]
    cases hmark : markedIn c.pieces with
    | some r => simp
    | none =>
      rcases List.mem_cons.1 hd with rfl | hd
      · exact absurd hmark h
      · simpa using ih hd

/-- What is marked has no colon. -/
theorem no_colon_of_markedIn {ps : List (List Char)} (h : ∀ p ∈ ps, ':' ∉ p) {r : List Char × Bool}
    (hr : markedIn ps = some r) : ':' ∉ r.1 := by
  have hrest : ∀ p v, ':' ∉ p → rest? m_str p = some v → ':' ∉ v := by
    intro p v hp hv hc
    rw [rest?_eq_drop] at hv
    obtain ⟨i, -, rfl⟩ := Option.map_eq_some_iff.1 hv
    exact hp (List.mem_of_mem_drop hc)
  fun_induction markedIn ps with
  | case1 => cases hr
  | case2 p =>
    obtain ⟨v, hv, rfl⟩ := Option.map_eq_some_iff.1 hr
    exact hrest p v (h p List.mem_cons_self) hv
  | case3 p p' ps ih =>
    rcases Option.or_eq_some_iff.1 hr with hp | ⟨-, hp⟩
    · obtain ⟨v, hv, rfl⟩ := Option.map_eq_some_iff.1 hp
      exact hrest p v (h p List.mem_cons_self) hv
    · exact ih (fun q hq => h q (List.mem_cons_of_mem p hq)) hp

theorem no_colon_of_marked {c : Chunk} {cs : List Chunk} (h : ∀ d ∈ c :: cs, d.Legal) {r : List Char × Bool}
    (hr : marked c cs = some r) : ':' ∉ r.1 := by
  induction cs generalizing c with
  | nil =>
    obtain ⟨v, hv, rfl⟩ := Option.map_eq_some_iff.1 hr
    exact no_colon_of_markedIn (r := v) (fun p hp => ((h c List.mem_cons_self).of_mem_pieces hp).1) hv
  | cons c' cs ih =>
    rcases Option.or_eq_some_iff.1 hr with hc | ⟨-, hcs⟩
    · exact no_colon_of_markedIn (fun p hp => ((h c List.mem_cons_self).of_mem_pieces hp).1) hc
    · exact ih (fun d hd => h d (List.mem_cons_of_mem c hd)) hcs

theorem Select.text_eq (s : Select) : s.text = textOf s.first s.more := rfl

theorem Select.pieces_ne_nil (s : Select) : ∀ c ∈ s.first :: s.more, c.pieces ≠ [] :=
  fun c hc => (s.legal c hc).pieces_ne_nil

theorem slotType_of_marked {job : Job} {v : List Char} (h : job.marked = some (v, false)) :
    slotType job.select.text = v := by
  have hrest := rest?_textOf job.select.first job.select.more job.select.pieces_ne_nil
  have hcolon : ':' ∉ v := no_colon_of_marked job.select.legal h
  rw [Job.marked] at h
  rw [h] at hrest
  obtain ⟨tail, htail, hnext⟩ := hrest
  rw [slotType_eq, Select.text_eq, htail, Option.getD_some]
  rcases hnext with rfl | hhead
  · rw [List.append_nil, takeWhile_eq_self hcolon]
  · obtain ⟨tail, rfl⟩ := List.head?_eq_some_iff.1 hhead
    exact takeWhile_append_cons hcolon tail

theorem plus_mem_slotType {job : Job} {v : List Char} (h : job.marked = some (v, true)) :
    '+' ∈ slotType job.select.text := by
  have hrest := rest?_textOf job.select.first job.select.more job.select.pieces_ne_nil
  have hcolon : ':' ∉ v := no_colon_of_marked job.select.legal h
  rw [Job.marked] at h
  rw [h] at hrest
  obtain ⟨tail, htail⟩ := hrest
  have hv : ∀ c ∈ v, decide (c ≠ ':') = true := fun c hc => decide_eq_true fun heq => hcolon (heq ▸ hc)
  rw [slotType_eq, Select.text_eq, htail, Option.getD_some, List.takeWhile_append_of_pos hv]
  simp

theorem no_colon_slotType (sel : List Char) : ':' ∉ slotType sel := by
  intro hc
  rw [slotType_eq] at hc
  have hne := List.all_eq_true.1 List.all_takeWhile ':' hc
  simp at hne

/-- A chunk's slot type has no plus, and the mark is found. -/
theorem slot_type_mem {job : Job} {c : Chunk} (hc : c ∈ job.select.chunks) {v : List Char} (h : c.slot_type = some v) :
    '+' ∉ v ∧ job.marked ≠ none := by
  have hmem := Lib.Objects.mem_of_get? h
  refine ⟨((job.select.legal c hc).value _ hmem).2, marked_ne_none hc ?_⟩
  have hpiece : Chunk.slotTypeName ++ '=' :: v ∈ c.pieces :=
    List.mem_append_right _ (List.mem_map.2 ⟨_, hmem, rfl⟩)
  have hmark : Chunk.slotTypeName ++ '=' :: v = m_str ++ v := rfl
  refine markedIn_ne_none hpiece ?_
  rw [hmark, rest?_here (List.prefix_append m_str v)]
  exact Option.some_ne_none _

/-! ## One job -/

/-- What a job adds to the count of a slot type. -/
def counted (job : Job) (slot_type : List Char) : Nat :=
  if slotType job.select.text = slot_type then job.select.first.nodes else 0

theorem sum_eq_zero_iff {l : List Chunk} : (l.map Chunk.nodes).sum = 0 ↔ ∀ c ∈ l, c.nodes = 0 := by
  induction l with
  | nil => simp
  | cons c l ih => simp [ih]

theorem slotNodes_eq_zero_iff {job : Job} {slot_type : List Char} : slotNodes job slot_type = 0 ↔
    ∀ c ∈ job.select.chunks, c.slot_type = some slot_type → c.nodes = 0 := by
  rw [slotNodes, sum_eq_zero_iff]
  simp

/-- A job is counted under its slot types exactly when it is `SlotOk`. -/
theorem slotOk_iff (job : Job) : SlotOk job ↔ ∀ slot_type, counted job slot_type = slotNodes job slot_type := by
  constructor
  · rintro (⟨v, hmark, hsum, hothers⟩ | ⟨hzero, hnone⟩) slot_type
    · rw [counted, slotType_of_marked hmark]
      split
      · rename_i heq
        rw [← heq, hsum]
      · rename_i hne
        exact (slotNodes_eq_zero_iff.2 fun c hc hslot => hothers c hc slot_type hslot (Ne.symm hne)).symm
    · have hcounted : counted job slot_type = 0 := by
        unfold counted
        split
        · exact hzero
        · rfl
      rw [hcounted]
      refine (slotNodes_eq_zero_iff.2 fun c hc hslot => hnone c hc ?_).symm
      rw [hslot]
      exact Option.some_ne_none _
  · intro h
    have hother : ∀ c ∈ job.select.chunks, ∀ s, c.slot_type = some s → s ≠ slotType job.select.text → c.nodes = 0 := by
      intro c hc s hs hne
      have hzero : slotNodes job s = 0 := by rw [← h s, counted, if_neg (Ne.symm hne)]
      exact slotNodes_eq_zero_iff.1 hzero c hc hs
    have hread : slotNodes job (slotType job.select.text) = job.select.first.nodes := by
      rw [← h, counted, if_pos rfl]
    by_cases hzero : job.select.first.nodes = 0
    · refine .inr ⟨hzero, fun c hc hslot => ?_⟩
      obtain ⟨s, hs⟩ := Option.ne_none_iff_exists'.1 hslot
      by_cases heq : s = slotType job.select.text
      · rw [hzero] at hread
        exact slotNodes_eq_zero_iff.1 hread c hc (heq ▸ hs)
      · exact hother c hc s hs heq
    · refine .inl ⟨slotType job.select.text, ?_, hread, hother⟩
      -- some chunk names the slot type that was read, so no plus was read with it
      have hsome : ∃ c ∈ job.select.chunks, c.slot_type = some (slotType job.select.text) := by
        by_contra hno
        refine hzero ?_
        rw [← hread]
        exact slotNodes_eq_zero_iff.2 fun c hc hs => absurd ⟨c, hc, hs⟩ hno
      obtain ⟨c, hc, hs⟩ := hsome
      obtain ⟨hplus, hmarked⟩ := slot_type_mem hc hs
      obtain ⟨⟨v, followed⟩, hmark⟩ := Option.ne_none_iff_exists'.1 hmarked
      cases followed with
      | true => exact absurd (plus_mem_slotType hmark) hplus
      | false => rw [slotType_of_marked hmark, hmark]

/-! ## Printing -/

theorem split?_eq_some {k state slot_type user : List Char} : split? k = some (state, slot_type, user) ↔
    k = key state slot_type user ∧ ':' ∉ state ∧ ':' ∉ slot_type ∧ ':' ∉ user := by
  unfold split?
  constructor
  · intro h
    split at h
    · rename_i a b c hsplit
      obtain ⟨rfl, rfl, rfl⟩ : a = state ∧ b = slot_type ∧ c = user := by simpa using h
      exact splitOn_eq_triple_iff.1 hsplit
    · cases h
  · intro h
    rw [splitOn_eq_triple_iff.2 h]

/-- The point of an entry of the counts. -/
def pointOf (e : List Char × Int) : Point :=
  match split? e.1 with
  | some (state, slot_type, user) => point state slot_type user e.2
  | none => point [] [] [] e.2

theorem printKeys_raised {data : List (List Char × Int)} :
    (printKeys data).raised = false ↔ ∀ e ∈ data, (split? e.1).isSome = true := by
  induction data with
  | nil => simp [printKeys]
  | cons e data ih =>
    cases hsplit : split? e.1 with
    | none => simp [printKeys, hsplit]
    | some parts => simp [printKeys, hsplit, ih]

theorem printKeys_printed {data : List (List Char × Int)} (h : ∀ e ∈ data, (split? e.1).isSome = true) :
    (printKeys data).printed = data.map pointOf := by
  induction data with
  | nil => rfl
  | cons e data ih =>
    obtain ⟨⟨state, slot_type, user⟩, hsplit⟩ := Option.isSome_iff_exists.1 (h e List.mem_cons_self)
    have hrest := ih fun e' he' => h e' (List.mem_cons_of_mem e he')
    simp [printKeys, hsplit, hrest, pointOf]

theorem total_eq_sumWhere {data : List (List Char × Int)} (h : ∀ e ∈ data, (split? e.1).isSome = true)
    (state slot_type user : List Char) : total (data.map pointOf) state slot_type user =
      sumWhere (fun k => decide (split? k = some (state, slot_type, user))) data := by
  induction data with
  | nil => rfl
  | cons e data ih =>
    obtain ⟨⟨state', slot_type', user'⟩, hsplit⟩ := Option.isSome_iff_exists.1 (h e List.mem_cons_self)
    have hrest := ih fun e' he' => h e' (List.mem_cons_of_mem e he')
    have hpoint : pointOf e = point state' slot_type' user' e.2 := by
      simp [pointOf, hsplit]
    have htags : tags state' slot_type' user' = tags state slot_type user ↔
        split? e.1 = some (state, slot_type, user) := by
      simp only [tags, hsplit, List.cons.injEq, Prod.mk.injEq, Option.some.injEq, true_and, and_true]
      tauto
    rw [sumWhere_cons, ← hrest]
    unfold total
    rw [List.map_cons, List.filter_cons]
    by_cases heq : split? e.1 = some (state, slot_type, user)
    · simp [hpoint, point, htags, heq, value]
    · simp [hpoint, point, htags, heq]

/-! ## The jobs -/

/-- The key the script makes of a job. -/
def keyOf (job : Job) : List Char := key job.job_state (slotType job.select.text) (owner job)

theorem keyed?_eq (job : Job) :
    keyed? job = job.select.first.count.map fun _ => (keyOf job, (job.select.first.nodes : Int)) := by
  simp only [keyed?, int?_headD, Option.map_map]
  cases hcount : job.select.first.count with
  | none => rfl
  | some n => simp [Chunk.nodes, hcount, keyOf]

theorem data?_isSome_iff {jobs : List Job} :
    (data? jobs).isSome = true ↔ ∀ job ∈ jobs, ∃ n, job.select.first.count = some n := by
  rw [data?, foldlM_add, Option.isSome_map, Lib.Objects.mapM_isSome_iff]
  simp only [keyed?_eq, Option.isSome_map, Option.isSome_iff_exists]

theorem mem_keys_data {jobs : List Job} {data : List (List Char × Int)} (h : data? jobs = some data) {k : List Char} :
    k ∈ data.map Prod.fst ↔ ∃ job ∈ jobs, keyOf job = k := by
  rw [data?, foldlM_add] at h
  obtain ⟨es, hes, rfl⟩ := Option.map_eq_some_iff.1 h
  have hkeys : es.map Prod.fst = jobs.map keyOf := Lib.Objects.map_of_mapM (fun job e he => by
    rw [keyed?_eq] at he
    obtain ⟨n, -, rfl⟩ := Option.map_eq_some_iff.1 he
    rfl) hes
  have hmem : (∃ e ∈ es, e.1 = k) ↔ k ∈ jobs.map keyOf := by rw [← hkeys, List.mem_map]
  rw [mem_keys_tally, hmem]
  simp

theorem sumWhere_data {jobs : List Job} {data : List (List Char × Int)} (h : data? jobs = some data)
    (p : List Char → Bool) : sumWhere p data =
      ((jobs.filter fun job => p (keyOf job)).map fun job => (job.select.first.nodes : Int)).sum := by
  rw [data?, foldlM_add] at h
  obtain ⟨es, hes, rfl⟩ := Option.map_eq_some_iff.1 h
  have hvals : (es.filter fun e => p e.1).map Prod.snd =
      (jobs.filter fun job => p (keyOf job)).map fun job => (job.select.first.nodes : Int) := by
    refine Lib.Objects.filter_map_of_mapM (fun job e he => ?_) hes
    rw [keyed?_eq] at he
    obtain ⟨n, -, rfl⟩ := Option.map_eq_some_iff.1 he
    exact ⟨rfl, rfl⟩
  rw [sumWhere_tally, hvals]
  simp [sumWhere]

theorem split?_keyOf {job : Job} : (split? (keyOf job)).isSome = true ↔ ':' ∉ job.job_state ∧ ':' ∉ owner job := by
  have hslot := no_colon_slotType job.select.text
  constructor
  · intro h
    obtain ⟨⟨state, slot_type, user⟩, hsplit⟩ := Option.isSome_iff_exists.1 h
    obtain ⟨hkey, hstate, hslot', huser⟩ := split?_eq_some.1 hsplit
    -- both readings of the key have the same number of colons
    have hcount := congrArg (List.count ':') hkey
    simp only [keyOf, key, List.count_append, List.count_cons_self, List.count_eq_zero.2 hslot,
      List.count_eq_zero.2 hstate, List.count_eq_zero.2 hslot', List.count_eq_zero.2 huser] at hcount
    exact ⟨List.count_eq_zero.1 (by omega), List.count_eq_zero.1 (by omega)⟩
  · rintro ⟨hstate, huser⟩
    rw [keyOf, split?_eq_some.2 ⟨rfl, hstate, hslot, huser⟩]
    rfl

theorem raised_iff {jobs : List Job} : (read_pbsqueue jobs).raised = false ↔ ∀ job ∈ jobs, Printable job := by
  unfold read_pbsqueue
  cases hdata : data? jobs with
  | none =>
    have hnot : ¬∀ job ∈ jobs, ∃ n, job.select.first.count = some n := by
      rw [← data?_isSome_iff, hdata]
      exact Bool.false_ne_true
    constructor
    · intro h
      cases h
    · exact fun h => absurd (fun job hjob => (h job hjob).count) hnot
  | some data =>
    have hcount := data?_isSome_iff.1 (by rw [hdata]; rfl)
    have hkeys : (∀ e ∈ data, (split? e.1).isSome = true) ↔ ∀ job ∈ jobs, (split? (keyOf job)).isSome = true := by
      constructor
      · intro h job hjob
        obtain ⟨e, he, heq⟩ := List.mem_map.1 ((mem_keys_data hdata).2 ⟨job, hjob, rfl⟩)
        exact heq ▸ h e he
      · intro h e he
        obtain ⟨job, hjob, heq⟩ := (mem_keys_data hdata).1 (List.mem_map_of_mem he)
        exact heq ▸ h job hjob
    simp only [printKeys_raised, hkeys, split?_keyOf]
    constructor
    · exact fun h job hjob => ⟨hcount job hjob, (h job hjob).1, (h job hjob).2⟩
    · exact fun h job hjob => ⟨(h job hjob).state, (h job hjob).owner⟩

/-- What the jobs add to the count of a triple. -/
def countedAs (jobs : List Job) (state slot_type user : List Char) : Nat :=
  ((jobs.filter fun job => job.job_state = state ∧ owner job = user).map fun job => counted job slot_type).sum

theorem sum_filter (p : Job → Bool) (f : Job → Nat) (jobs : List Job) :
    ((jobs.filter p).map fun job => (f job : Int)).sum = ((jobs.map fun job => if p job then f job else 0).sum : Nat) := by
  induction jobs with
  | nil => rfl
  | cons job jobs ih =>
    rw [List.filter_cons, List.map_cons, List.sum_cons, Int.natCast_add, ← ih]
    split
    · rw [List.map_cons, List.sum_cons]
    · rw [Int.natCast_zero, Int.zero_add]

theorem total_printed {jobs : List Job} (h : ∀ job ∈ jobs, Printable job) (state slot_type user : List Char) :
    total (read_pbsqueue jobs).printed state slot_type user = countedAs jobs state slot_type user := by
  obtain ⟨data, hdata⟩ := Option.isSome_iff_exists.1 (data?_isSome_iff.2 fun job hjob => (h job hjob).count)
  have hread : read_pbsqueue jobs = printKeys data := by simp [read_pbsqueue, hdata]
  have hsplit : ∀ e ∈ data, (split? e.1).isSome = true := by
    rw [← printKeys_raised, ← hread]
    exact raised_iff.2 h
  have hfilter : (jobs.filter fun job => decide (split? (keyOf job) = some (state, slot_type, user))) =
      (jobs.filter fun job => job.job_state = state ∧ owner job = user).filter fun job =>
        slotType job.select.text = slot_type := by
    rw [List.filter_filter]
    refine List.filter_congr fun job hjob => ?_
    have hkey : split? (keyOf job) = some (job.job_state, slotType job.select.text, owner job) :=
      split?_eq_some.2 ⟨rfl, (h job hjob).state, no_colon_slotType _, (h job hjob).owner⟩
    rw [← Bool.decide_and]
    simp only [hkey, Option.some.injEq, Prod.mk.injEq, decide_eq_decide]
    tauto
  rw [hread, printKeys_printed hsplit, total_eq_sumWhere hsplit, sumWhere_data hdata, hfilter, sum_filter]
  simp only [decide_eq_true_eq]
  rfl

/-- Where a job is counted wrong, another job makes up for it. -/
def Balanced (jobs : List Job) : Prop :=
  ∀ state slot_type user, countedAs jobs state slot_type user = expected jobs state slot_type user

theorem right_iff_balanced (jobs : List Job) : Right jobs ↔ (∀ job ∈ jobs, Printable job) ∧ Balanced jobs := by
  constructor
  · rintro ⟨hraised, htotal⟩
    have hprint := raised_iff.1 hraised
    refine ⟨hprint, fun state slot_type user => ?_⟩
    have heq := htotal state slot_type user
    rw [total_printed hprint] at heq
    exact Int.ofNat_inj.1 heq
  · rintro ⟨hprint, hbalanced⟩
    refine ⟨raised_iff.2 hprint, fun state slot_type user => ?_⟩
    rw [total_printed hprint, hbalanced]

theorem balanced_of_slotOk {jobs : List Job} (h : ∀ job ∈ jobs, SlotOk job) : Balanced jobs := by
  intro state slot_type user
  unfold countedAs expected
  congr 1
  refine List.map_congr_left fun job hjob => ?_
  exact (slotOk_iff job).1 (h job (List.mem_of_mem_filter hjob)) slot_type

theorem slotOk_of_balanced {job : Job} (h : Balanced [job]) : SlotOk job := by
  refine (slotOk_iff job).2 fun slot_type => ?_
  have heq := h job.job_state slot_type (owner job)
  simpa [countedAs, expected] using heq

/-- The counts of the jobs are right exactly when every job can be printed and the
jobs balance; those of every part of them when each job is right by itself. -/
theorem right_iff (jobs : List Job) : (Right jobs ↔ (∀ job ∈ jobs, Printable job) ∧ Balanced jobs) ∧
    ((∀ part, part.Sublist jobs → Right part) ↔ ∀ job ∈ jobs, JobOk job) := by
  refine ⟨right_iff_balanced jobs, ?_, ?_⟩
  · intro h job hjob
    obtain ⟨hprint, hbalanced⟩ := (right_iff_balanced [job]).1 (h [job] (List.singleton_sublist.2 hjob))
    exact ⟨hprint job List.mem_cons_self, slotOk_of_balanced hbalanced⟩
  · intro h part hpart
    have hok : ∀ job ∈ part, JobOk job := fun job hjob => h job (hpart.subset hjob)
    exact (right_iff_balanced part).2 ⟨fun job hjob => (hok job hjob).printable,
      balanced_of_slotOk fun job hjob => (hok job hjob).slot⟩

/-- `N:slot_type=...`. -/
def slotChunk (n slot_type : String) : Chunk := ⟨some n.toList, [(Chunk.slotTypeName, slot_type.toList)]⟩

/-- `1:slot_type=hpc+2:slot_type=viz`. -/
def twoChunks : Select where
  first := slotChunk "1" "hpc"
  more := [slotChunk "2" "viz"]
  legal := by
    have hchunk : ∀ c ∈ [slotChunk "1" "hpc", slotChunk "2" "viz"], c.count.all (fun n => n ≠ [] ∧ n.all Char.isDigit) = true ∧
        c.resources ≠ [] ∧ (∀ r ∈ c.resources, '=' ∉ r.1 ∧ ':' ∉ r.1 ∧ '+' ∉ r.1) ∧
        ∀ r ∈ c.resources, ':' ∉ r.2 ∧ '+' ∉ r.2 := by decide
    intro c hc
    obtain ⟨hcount, hne, hname, hvalue⟩ := hchunk c hc
    refine ⟨fun n hn => ?_, hne, hname, hvalue⟩
    rw [hn] at hcount
    simpa using hcount

/-- The slot type that is read goes on to the next colon, past the plus. -/
theorem not_right_twoChunks : ¬Right [⟨"paul@login".toList, "R".toList, twoChunks⟩] := by
  intro h
  have htotal := h.2 "R".toList "hpc".toList "paul".toList
  revert htotal
  decide

end AzHop.PbsQueue
