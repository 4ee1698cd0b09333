import Mathlib.Data.List.Basic
import Mathlib.Data.List.Forall2
/-!
# Searching a line for a word

`grep -w` with a basic regular expression of plain characters and dots: a
stretch of the line as long as the pattern that agrees with it but at the dots,
with no word character just before it or just after it.
-/
namespace Lib.WordSearch

variable (word : Char → Bool)

/-- What the pattern leaves of a line it matches at the start. -/
def afterMatch : List Char → List Char → Option (List Char)
  | [], line => some line
  | p :: pattern, c :: line => if p = '.' ∨ p = c then afterMatch pattern line else none
  | _ :: _, [] => none

/-- A word may start or end here. -/
def boundary : Option Char → Bool
  | none => true
  | some c => !word c

/-- The starts of a line in turn, after the character `before`. -/
def search (pattern : List Char) (before : Option Char) : List Char → Bool
  | [] => boundary word before && (afterMatch pattern []).any fun rest => boundary word rest.head?
  | c :: line =>
    (boundary word before && (afterMatch pattern (c :: line)).any fun rest => boundary word rest.head?) ||
      search pattern (some c) line

def Agrees (pattern stretch : List Char) : Prop := List.Forall₂ (fun p c => p = '.' ∨ p = c) pattern stretch

/-- The line has a stretch that agrees with the pattern between two boundaries. -/
def Found (pattern line : List Char) : Prop :=
  ∃ a stretch b, line = a ++ stretch ++ b ∧ Agrees pattern stretch ∧ boundary word a.getLast? = true ∧
    boundary word b.head? = true

variable {word}

theorem afterMatch_eq_some_iff {pattern line rest : List Char} :
    afterMatch pattern line = some rest ↔ ∃ stretch, line = stretch ++ rest ∧ Agrees pattern stretch := by
  induction pattern generalizing line with
  | nil =>
    simp [afterMatch, Agrees, eq_comm]
  | cons p pattern ih =>
    cases line with
    | nil => simp [afterMatch, Agrees]
    | cons c line =>
      unfold afterMatch
      constructor
      · intro h
        split at h
        · rename_i hpc
          obtain ⟨stretch, rfl, hagrees⟩ := ih.1 h
          exact ⟨c :: stretch, rfl, .cons hpc hagrees⟩
        · cases h
      · rintro ⟨stretch, hline, hagrees⟩
        cases hagrees with
        | cons hpc htail =>
          obtain ⟨rfl, rfl⟩ := List.cons.inj hline
          rw [if_pos hpc]
          exact ih.2 ⟨_, rfl, htail⟩

/-- A match at the start of the line. -/
theorem any_afterMatch_iff {pattern line : List Char} :
    ((afterMatch pattern line).any fun rest => boundary word rest.head?) = true ↔
      ∃ stretch b, line = stretch ++ b ∧ Agrees pattern stretch ∧ boundary word b.head? = true := by
  rw [Option.any_eq_true]
  constructor
  · rintro ⟨rest, hrest, hb⟩
    obtain ⟨stretch, hline, hagrees⟩ := afterMatch_eq_some_iff.1 hrest
    exact ⟨stretch, rest, hline, hagrees, hb⟩
  · rintro ⟨stretch, b, hline, hagrees, hb⟩
    exact ⟨b, afterMatch_eq_some_iff.2 ⟨stretch, hline, hagrees⟩, hb⟩

theorem search_iff {pattern line : List Char} (before : Option Char) :
    search word pattern before line = true ↔
      ∃ a stretch b, line = a ++ stretch ++ b ∧ Agrees pattern stretch ∧
        boundary word (a.getLast?.or before) = true ∧ boundary word b.head? = true := by
  induction line generalizing before with
  | nil =>
    rw [search, Bool.and_eq_true, any_afterMatch_iff]
    constructor
    · rintro ⟨hbefore, stretch, b, hline, hagrees, hb⟩
      exact ⟨[], stretch, b, hline, hagrees, hbefore, hb⟩
    · rintro ⟨a, stretch, b, hline, hagrees, ha, hb⟩
      obtain ⟨hab, rfl⟩ := List.append_eq_nil_iff.1 hline.symm
      obtain ⟨rfl, rfl⟩ := List.append_eq_nil_iff.1 hab
      exact ⟨ha, [], [], rfl, hagrees, hb⟩
  | cons c line ih =>
    rw [search, Bool.or_eq_true, Bool.and_eq_true, any_afterMatch_iff, ih]
    constructor
    · rintro (⟨hbefore, stretch, b, hline, hagrees, hb⟩ | ⟨a, stretch, b, rfl, hagrees, ha, hb⟩)
      · exact ⟨[], stretch, b, hline, hagrees, hbefore, hb⟩
      · refine ⟨c :: a, stretch, b, rfl, hagrees, ?_, hb⟩
        cases a with
        | nil => exact ha
        | cons d a => rwa [List.getLast?_cons_cons]
    · rintro ⟨a, stretch, b, hline, hagrees, ha, hb⟩
      cases a with
      | nil => exact Or.inl ⟨ha, stretch, b, hline, hagrees, hb⟩
      | cons d a =>
        obtain ⟨rfl, rfl⟩ := List.cons.inj hline
        refine Or.inr ⟨a, stretch, b, rfl, hagrees, ?_, hb⟩
        cases a with
        | nil => exact ha
        | cons e a => rwa [List.getLast?_cons_cons] at ha

theorem search_none_iff {pattern line : List Char} : search word pattern none line = true ↔ Found word pattern line := by
  rw [search_iff]
  simp only [Option.or_none]
  rfl

/-! ## Lines of words -/

theorem agrees_self (pattern : List Char) : Agrees pattern pattern := by
  induction pattern with
  | nil => exact .nil
  | cons p pattern ih => exact .cons (Or.inr rfl) ih

theorem agrees_iff_of_no_dot {pattern stretch : List Char} (h : '.' ∉ pattern) :
    Agrees pattern stretch ↔ stretch = pattern := by
  constructor
  · intro hagrees
    induction hagrees with
    | nil => rfl
    | cons hpc _ ih =>
      obtain ⟨hp, hpattern⟩ := not_or.1 (mt List.mem_cons.2 h)
      rw [ih hpattern, hpc.resolve_left fun e => hp e.symm]
  · rintro rfl
    exact agrees_self stretch

theorem found_self (pattern : List Char) : Found word pattern pattern :=
  ⟨[], pattern, [], by simp, agrees_self pattern, rfl, rfl⟩

section Blank

variable {s : Char} {pattern n rest : List Char}

theorem Found.append_cons (hs : word s = false) (h : Found word pattern n) : Found word pattern (n ++ s :: rest) := by
  obtain ⟨a, stretch, b, rfl, hagrees, ha, hb⟩ := h
  refine ⟨a, stretch, b ++ s :: rest, by simp, hagrees, ha, ?_⟩
  cases b with
  | nil => simp [boundary, hs]
  | cons c b => exact hb

theorem Found.cons_append (hs : word s = false) (h : Found word pattern rest) : Found word pattern (n ++ s :: rest) := by
  obtain ⟨a, stretch, b, rfl, hagrees, ha, hb⟩ := h
  refine ⟨n ++ s :: a, stretch, b, by simp, hagrees, ?_, hb⟩
  cases a with
  | nil => simp [boundary, hs]
  | cons c a => rwa [List.getLast?_append_of_ne_nil _ (List.cons_ne_nil s _), List.getLast?_cons_cons]

/-- A pattern without dots is not found across the separator. -/
theorem found_append_cons_iff (hs : word s = false) (hdot : '.' ∉ pattern) (hpattern : s ∉ pattern) :
    Found word pattern (n ++ s :: rest) ↔ Found word pattern n ∨ Found word pattern rest := by
  refine ⟨?_, fun h => h.elim (Found.append_cons hs) (Found.cons_append hs)⟩
  rintro ⟨a, stretch, b, hline, hagrees, ha, hb⟩
  obtain rfl := (agrees_iff_of_no_dot hdot).1 hagrees
  rcases List.append_eq_append_iff.1 hline with ⟨c, hc, hrest⟩ | ⟨c, rfl, rfl⟩
  · cases c with
    | nil =>
      -- the stretch ends where the word does
      rw [List.append_nil] at hc
      exact Or.inl ⟨a, stretch, [], by rw [hc, List.append_nil], agrees_self _, ha, rfl⟩
    | cons d c =>
      obtain ⟨rfl, rfl⟩ := List.cons.inj hrest
      rcases List.append_eq_append_iff.1 hc with ⟨d, rfl, hd⟩ | ⟨d, rfl, hd⟩
      · exact absurd (hd ▸ List.mem_append_right d List.mem_cons_self) hpattern
      · cases d with
        | nil =>
          rw [List.nil_append] at hd
          exact absurd (hd ▸ List.mem_cons_self) hpattern
        | cons e d =>
          obtain ⟨rfl, rfl⟩ := List.cons.inj hd
          refine Or.inr ⟨d, stretch, b, rfl, agrees_self _, ?_, hb⟩
          cases d with
          | nil => rfl
          | cons e d => rwa [List.getLast?_append_of_ne_nil _ (List.cons_ne_nil s _), List.getLast?_cons_cons] at ha
  · refine Or.inl ⟨a, stretch, c, rfl, agrees_self _, ha, ?_⟩
    cases c with
    | nil => rfl
    | cons e c => exact hb

theorem found_intercalate_of_mem (hs : word s = false) {words : List (List Char)} (h : n ∈ words)
    (hn : Found word pattern n) : Found word pattern (List.intercalate [s] words) := by
  induction words with
  | nil => exact absurd h List.not_mem_nil
  | cons w words ih =>
    cases words with
    | nil =>
      rw [List.intercalate_singleton, ← List.mem_singleton.1 h]
      exact hn
    | cons w' words =>
      rw [List.intercalate_cons_cons, List.append_assoc, List.singleton_append]
      rcases List.mem_cons.1 h with rfl | h
      · exact hn.append_cons hs
      · exact (ih h).cons_append hs

/-- In a line of words a pattern without dots is found in one of the words. -/
theorem found_intercalate_iff (hs : word s = false) (hdot : '.' ∉ pattern) (hpattern : s ∉ pattern) (hne : pattern ≠ [])
    (words : List (List Char)) :
    Found word pattern (List.intercalate [s] words) ↔ ∃ n ∈ words, Found word pattern n := by
  refine ⟨?_, fun ⟨n, hn, hfound⟩ => found_intercalate_of_mem hs hn hfound⟩
  induction words with
  | nil =>
    rintro ⟨a, stretch, b, hline, hagrees, -, -⟩
    obtain rfl := (agrees_iff_of_no_dot hdot).1 hagrees
    have hnil : a ++ stretch ++ b = [] := hline.symm
    simp [hne] at hnil
  | cons w words ih =>
    cases words with
    | nil =>
      rw [List.intercalate_singleton]
      exact fun h => ⟨w, List.mem_cons_self, h⟩
    | cons w' words =>
      rw [List.intercalate_cons_cons, List.append_assoc, List.singleton_append, found_append_cons_iff hs hdot hpattern]
      rintro (h | h)
      · exact ⟨w, List.mem_cons_self, h⟩
      · obtain ⟨n, hn, hfound⟩ := ih h
        exact ⟨n, List.mem_cons_of_mem w hn, hfound⟩

end Blank

end Lib.WordSearch
