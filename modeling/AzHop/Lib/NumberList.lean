import AzHop.Lib.Json
import AzHop.Lib.Objects
import AzHop.Lib.Split
import Mathlib.Data.List.DropRight
/-!
# Lists of numbers with ranges

`0-3,8` stands for 0, 1, 2, 3 and 8. `expand` reads such a list, and a plain
list of numbers as well; `print` writes one with a range for every run of
consecutive numbers.
-/
namespace Lib.NumberList

/-- `range(first, last + 1)`. -/
def range (first last : Nat) : List Nat := List.range' first (last + 1 - first)

/-! ## Reading -/

def strip (s : List Char) : List Char := (s.dropWhile Char.isWhitespace).rdropWhile Char.isWhitespace

/-- A number without a sign, possibly between blanks. -/
def number? (s : List Char) : Option Nat :=
  if strip s ≠ [] ∧ (strip s).all Char.isDigit then some (Nat.ofDigitChars 10 (strip s) 0) else none

/-- A number or a range. -/
def item? (item : List Char) : Option (List Nat) :=
  if '-' ∈ item.drop 1 then do
    let first ← number? (item.takeWhile (· ≠ '-'))
    let last ← number? ((item.dropWhile (· ≠ '-')).drop 1)
    return range first last
  else (number? item).map ([·])

/-- `0-3,7`: the numbers of a list. -/
def expand (list : List Char) : Option (List Nat) :=
  if strip list = [] then some []
  else (((strip list).splitOn ',').mapM item?).map List.flatten

/-! ## Writing -/

/-- The first and last numbers of the runs of consecutive numbers. -/
def runs : List Nat → List (Nat × Nat)
  | [] => []
  | n :: ns =>
    match runs ns with
    | (first, last) :: rest => if n + 1 = first then (n, last) :: rest else (n, n) :: (first, last) :: rest
    | [] => [(n, n)]

/-- A run of numbers, by its ends. -/
def printRun (r : Nat × Nat) : List Char :=
  if r.1 = r.2 then Nat.toDigits 10 r.1 else Nat.toDigits 10 r.1 ++ '-' :: Nat.toDigits 10 r.2

def print (l : List Nat) : List Char := List.intercalate [','] ((runs l).map printRun)

/-- The numbers as they are, with commas between them. -/
def join (l : List Nat) : List Char := List.intercalate [','] (l.map (Nat.toDigits 10))

example : print [0, 1, 2, 8] = "0-2,8".toList := by decide
example : expand "2,5-7,10".toList = some [2, 5, 6, 7, 10] := by decide

/-! ## The runs -/

theorem range_self (n : Nat) : range n n = [n] := by simp [range]

theorem range_cons {n last : Nat} (h : n + 1 ≤ last) : range n last = n :: range (n + 1) last := by
  have hlength : last + 1 - n = last + 1 - (n + 1) + 1 := by omega
  rw [range, range, hlength, List.range'_succ]

theorem runs_ordered (l : List Nat) : ∀ r ∈ runs l, r.1 ≤ r.2 := by
  induction l with
  | nil => simp [runs]
  | cons n l ih =>
    rw [runs]
    cases hruns : runs l with
    | nil => simp
    | cons r rest =>
      obtain ⟨first, last⟩ := r
      rw [hruns] at ih
      have hfirst : first ≤ last := ih (first, last) List.mem_cons_self
      dsimp only
      split_ifs with hnext
      · intro r hr
        rcases List.mem_cons.1 hr with rfl | hr
        · show n ≤ last
          omega
        · exact ih r (List.mem_cons_of_mem _ hr)
      · exact List.forall_mem_cons.2 ⟨Nat.le_refl n, ih⟩

/-- The runs are the list. -/
theorem flatMap_runs (l : List Nat) : (runs l).flatMap (fun r => range r.1 r.2) = l := by
  induction l with
  | nil => rfl
  | cons n l ih =>
    have hordered := runs_ordered l
    rw [runs]
    cases hruns : runs l with
    | nil =>
      rw [hruns] at ih
      simp only [List.flatMap_nil] at ih
      simp [range_self, ← ih]
    | cons r rest =>
      obtain ⟨first, last⟩ := r
      rw [hruns] at ih hordered
      have hfirst : first ≤ last := hordered (first, last) List.mem_cons_self
      dsimp only
      split_ifs with hnext
      · -- the run that starts right after `n` is continued to the left
        rw [List.flatMap_cons, range_cons (hnext ▸ hfirst), hnext, List.cons_append]
        rw [List.flatMap_cons] at ih
        rw [ih]
      · rw [List.flatMap_cons, range_self, ih]
        rfl

/-! ## The round trips -/

theorem isWhitespace_of_isDigit {c : Char} (h : c.isDigit = true) : c.isWhitespace = false := by
  cases hspace : c.isWhitespace with
  | false => rfl
  | true =>
    simp only [Char.isWhitespace, Bool.or_eq_true, decide_eq_true_eq] at hspace
    rcases hspace with ((rfl | rfl) | rfl) | rfl <;> cases h

theorem strip_of_solid {s : List Char} (h : ∀ c ∈ s, c.isWhitespace = false) : strip s = s := by
  have hdrop : s.dropWhile Char.isWhitespace = s := by
    cases s with
    | nil => rfl
    | cons c s => rw [List.dropWhile_cons, if_neg (by simp [h c List.mem_cons_self])]
  rw [strip, hdrop, List.rdropWhile_eq_self_iff]
  intro hne
  simp [h _ (List.getLast_mem hne)]

theorem number?_toDigits (n : Nat) : number? (Nat.toDigits 10 n) = some n := by
  have hdigits : ∀ c ∈ Nat.toDigits 10 n, c.isDigit = true := fun c hc => Json.isDigit_toDigits hc
  have hstrip : strip (Nat.toDigits 10 n) = Nat.toDigits 10 n :=
    strip_of_solid fun c hc => isWhitespace_of_isDigit (hdigits c hc)
  rw [number?, hstrip, if_pos ⟨Nat.toDigits_ne_nil, List.all_eq_true.2 hdigits⟩, Nat.ofDigitChars_ten_toDigits]

theorem not_mem_toDigits {c : Char} (h : c.isDigit = false) (n : Nat) : c ∉ Nat.toDigits 10 n := by
  intro hc
  rw [Json.isDigit_toDigits hc] at h
  cases h

theorem item?_toDigits (n : Nat) : item? (Nat.toDigits 10 n) = some [n] := by
  have hdash : '-' ∉ (Nat.toDigits 10 n).drop 1 := fun h => not_mem_toDigits (by decide) n (List.mem_of_mem_drop h)
  rw [item?, if_neg hdash, number?_toDigits]
  rfl

theorem item?_printRun {r : Nat × Nat} (h : r.1 ≤ r.2) : item? (printRun r) = some (range r.1 r.2) := by
  obtain ⟨first, last⟩ := r
  rw [printRun]
  split_ifs with heq
  · obtain rfl : first = last := heq
    rw [item?_toDigits, range_self]
  · have hdash : ∀ n, '-' ∉ Nat.toDigits 10 n := not_mem_toDigits (by decide)
    have hmem : '-' ∈ (Nat.toDigits 10 first ++ '-' :: Nat.toDigits 10 last).drop 1 := by
      obtain ⟨c, cs, hcs⟩ := List.exists_cons_of_ne_nil (Nat.toDigits_ne_nil (b := 10) (n := first))
      simp [hcs]
    have hrest : ((Nat.toDigits 10 first ++ '-' :: Nat.toDigits 10 last).dropWhile (· ≠ '-')).drop 1 =
        Nat.toDigits 10 last := by
      rw [List.dropWhile_append_of_pos]
      · simp
      · intro c hc
        have hne : c ≠ '-' := ne_of_mem_of_not_mem hc (hdash first)
        simpa using hne
    rw [item?, if_pos hmem, Split.takeWhile_append_cons (hdash first), hrest, number?_toDigits, number?_toDigits]
    rfl

/-- Entries with no comma and no blank in them are read one by one. -/
theorem expand_intercalate {entries : List (List Char)} {values : List (List Nat)}
    (hread : entries.mapM item? = some values)
    (hsolid : ∀ e ∈ entries, e ≠ [] ∧ ∀ c ∈ e, c ≠ ',' ∧ c.isWhitespace = false) :
    expand (List.intercalate [','] entries) = some values.flatten := by
  have hspace : ∀ c ∈ List.intercalate [','] entries, c.isWhitespace = false := by
    intro c hc
    rcases Split.mem_intercalate hc with rfl | ⟨e, he, hc⟩
    · rfl
    · exact ((hsolid e he).2 c hc).2
  rw [expand, strip_of_solid hspace]
  cases entries with
  | nil =>
    cases hread
    rfl
  | cons e entries =>
    have hne : List.intercalate [','] (e :: entries) ≠ [] := by
      obtain ⟨c, cs, rfl⟩ := List.exists_cons_of_ne_nil (hsolid e List.mem_cons_self).1
      cases entries <;> simp [List.intercalate]
    have hcomma : ∀ l ∈ e :: entries, ',' ∉ l := fun l hl hmem => ((hsolid l hl).2 ',' hmem).1 rfl
    rw [if_neg hne, List.splitOn_intercalate _ hcomma (by simp), hread]
    rfl

theorem solid_toDigits (n : Nat) : Nat.toDigits 10 n ≠ [] ∧ ∀ c ∈ Nat.toDigits 10 n, c ≠ ',' ∧ c.isWhitespace = false := by
  refine ⟨Nat.toDigits_ne_nil, fun c hc => ⟨?_, isWhitespace_of_isDigit (Json.isDigit_toDigits hc)⟩⟩
  rintro rfl
  exact not_mem_toDigits (by decide) n hc

theorem solid_printRun (r : Nat × Nat) : printRun r ≠ [] ∧ ∀ c ∈ printRun r, c ≠ ',' ∧ c.isWhitespace = false := by
  rw [printRun]
  split_ifs with heq
  · exact solid_toDigits r.1
  · refine ⟨by simp, fun c hc => ?_⟩
    rcases List.mem_append.1 hc with hc | hc
    · exact (solid_toDigits r.1).2 c hc
    · rcases List.mem_cons.1 hc with rfl | hc
      · exact ⟨by decide, by decide⟩
      · exact (solid_toDigits r.2).2 c hc

theorem expand_print (l : List Nat) : expand (print l) = some l := by
  have hread : ((runs l).map printRun).mapM item? = some ((runs l).map fun r => range r.1 r.2) := by
    rw [List.mapM_map]
    exact Objects.mapM_eq_map fun r hr => item?_printRun (runs_ordered l r hr)
  have hsolid : ∀ e ∈ (runs l).map printRun, e ≠ [] ∧ ∀ c ∈ e, c ≠ ',' ∧ c.isWhitespace = false := by
    intro e he
    obtain ⟨r, -, rfl⟩ := List.mem_map.1 he
    exact solid_printRun r
  rw [print, expand_intercalate hread hsolid, ← List.flatMap_def, flatMap_runs]

theorem expand_join (l : List Nat) : expand (join l) = some l := by
  have hread : (l.map (Nat.toDigits 10)).mapM item? = some (l.map ([·])) := by
    rw [List.mapM_map]
    exact Objects.mapM_eq_map fun n _ => item?_toDigits n
  have hsolid : ∀ e ∈ l.map (Nat.toDigits 10), e ≠ [] ∧ ∀ c ∈ e, c ≠ ',' ∧ c.isWhitespace = false := by
    intro e he
    obtain ⟨n, -, rfl⟩ := List.mem_map.1 he
    exact solid_toDigits n
  rw [join, expand_intercalate hread hsolid, ← List.flatMap_def, List.flatMap_singleton']

end Lib.NumberList
