import Mathlib.Data.List.Basic
/-!
# Splitting at a separator

`splitOn` gives the pieces of a list between the occurrences of a separator, as
Python's `split` does, so that a list without the separator is its only piece.
The lemmas read the list back from its pieces and name the pieces of a list
that was put together.
-/
namespace Lib.Split

variable {α β : Type}

theorem intercalate_map (s : α) (f : β → List α) (x : List α) (l : List β) :
    List.intercalate [s] (x :: l.map f) = x ++ l.flatMap fun y => s :: f y := by
  induction l generalizing x with
  | nil => simp [List.intercalate]
  | cons y l ih =>
    have hstep : List.intercalate [s] (x :: f y :: l.map f) = x ++ s :: List.intercalate [s] (f y :: l.map f) := by
      simp [List.intercalate, List.intersperse]
    rw [List.map_cons, hstep, ih]
    rfl

theorem mem_intercalate {s c : α} {pieces : List (List α)} (h : c ∈ List.intercalate [s] pieces) :
    c = s ∨ ∃ piece ∈ pieces, c ∈ piece := by
  induction pieces with
  | nil => cases h
  | cons piece pieces ih =>
    cases pieces with
    | nil =>
      rw [List.intercalate_singleton] at h
      exact Or.inr ⟨piece, List.mem_cons_self, h⟩
    | cons next pieces =>
      rw [List.intercalate_cons_cons, List.append_assoc, List.singleton_append, List.mem_append, List.mem_cons] at h
      rcases h with h | h | h
      · exact Or.inr ⟨piece, List.mem_cons_self, h⟩
      · exact Or.inl h
      · exact (ih h).imp_right fun ⟨p, hp, hc⟩ => ⟨p, List.mem_cons_of_mem piece hp, hc⟩

theorem mem_dropWhile {p : α → Bool} {x : α} (hp : p x = false) {l : List α} (h : x ∈ l) : x ∈ l.dropWhile p := by
  induction l with
  | nil => cases h
  | cons y l ih =>
    rw [List.dropWhile_cons]
    split
    · rename_i hy
      rcases List.mem_cons.1 h with rfl | h
      · rw [hp] at hy
        cases hy
      · exact ih h
    · exact h

variable [DecidableEq α] {s : α}

/-- A piece has no separator, and what it has is in the list. -/
theorem of_mem_splitOn {l piece : List α} (h : piece ∈ l.splitOn s) : s ∉ piece ∧ ∀ x ∈ piece, x ∈ l := by
  induction l generalizing piece with
  | nil =>
    rw [List.splitOn_nil, List.mem_singleton] at h
    simp [h]
  | cons x l ih =>
    rw [List.splitOn_cons_eq_if_modifyHead] at h
    split at h
    · rcases List.mem_cons.1 h with rfl | h
      · simp
      · exact ⟨(ih h).1, fun y hy => List.mem_cons_of_mem x ((ih h).2 y hy)⟩
    · rename_i hx
      obtain ⟨first, pieces, hpieces⟩ := List.exists_cons_of_ne_nil (List.splitOn_ne_nil s l)
      rw [hpieces] at h ih
      rcases List.mem_cons.1 h with rfl | h
      · obtain ⟨hs, hmem⟩ := ih List.mem_cons_self
        have hne : s ≠ x := fun e => hx (by simp [e])
        refine ⟨by simp [hne, hs], fun y hy => ?_⟩
        rcases List.mem_cons.1 hy with rfl | hy
        · exact List.mem_cons_self
        · exact List.mem_cons_of_mem x (hmem y hy)
      · obtain ⟨hs, hmem⟩ := ih (List.mem_cons_of_mem first h)
        exact ⟨hs, fun y hy => List.mem_cons_of_mem x (hmem y hy)⟩

theorem splitOn_eq_pair_iff {l a b : List α} : l.splitOn s = [a, b] ↔ l = a ++ s :: b ∧ s ∉ a ∧ s ∉ b := by
  constructor
  · intro h
    have hjoin : List.intercalate [s] (l.splitOn s) = l := List.intercalate_splitOn s
    rw [h] at hjoin
    refine ⟨by simpa [List.intercalate, List.intersperse] using hjoin.symm, ?_, ?_⟩
    · exact (of_mem_splitOn (l := l) (by rw [h]; simp)).1
    · exact (of_mem_splitOn (l := l) (by rw [h]; simp)).1
  · rintro ⟨rfl, ha, hb⟩
    rw [List.splitOn_append_cons_self_of_not_mem ha, List.splitOn_eq_singleton hb]

theorem splitOn_eq_triple_iff {l a b c : List α} :
    l.splitOn s = [a, b, c] ↔ l = a ++ s :: b ++ s :: c ∧ s ∉ a ∧ s ∉ b ∧ s ∉ c := by
  constructor
  · intro h
    have hjoin : List.intercalate [s] (l.splitOn s) = l := List.intercalate_splitOn s
    have hpiece : ∀ piece ∈ [a, b, c], s ∉ piece := fun piece hp => (of_mem_splitOn (l := l) (h ▸ hp)).1
    rw [h] at hjoin
    refine ⟨by simpa [List.intercalate, List.intersperse] using hjoin.symm, hpiece a ?_, hpiece b ?_, hpiece c ?_⟩ <;> simp
  · rintro ⟨rfl, ha, hb, hc⟩
    rw [List.append_assoc, List.cons_append, List.splitOn_append_cons_self_of_not_mem ha,
      List.splitOn_append_cons_self_of_not_mem hb, List.splitOn_eq_singleton hc]

theorem headD_splitOn (s : α) (l : List α) : (l.splitOn s).headD [] = l.takeWhile (· ≠ s) := by
  induction l with
  | nil => simp
  | cons x l ih =>
    rw [List.splitOn_cons_eq_if_modifyHead, List.takeWhile_cons]
    by_cases hx : x = s
    · simp [hx]
    · obtain ⟨first, pieces, hpieces⟩ := List.exists_cons_of_ne_nil (List.splitOn_ne_nil s l)
      rw [hpieces] at ih
      simpa [hx, hpieces] using ih

theorem takeWhile_append_cons {a : List α} (h : s ∉ a) (b : List α) : (a ++ s :: b).takeWhile (· ≠ s) = a := by
  have ha : ∀ x ∈ a, decide (x ≠ s) = true := fun x hx => decide_eq_true fun heq => h (heq ▸ hx)
  rw [List.takeWhile_append_of_pos ha]
  simp

theorem takeWhile_eq_self {a : List α} (h : s ∉ a) : a.takeWhile (· ≠ s) = a := by
  have ha : ∀ x ∈ a, decide (x ≠ s) = true := fun x hx => decide_eq_true fun heq => h (heq ▸ hx)
  have hnil : (a ++ []).takeWhile (· ≠ s) = a ++ [].takeWhile (· ≠ s) := List.takeWhile_append_of_pos ha
  simpa using hnil

/-- The pieces of texts each of which ends with the separator. -/
theorem splitOn_lines {f : β → List α} {l : List β} (h : ∀ x ∈ l, s ∉ f x) :
    (l.flatMap fun x => f x ++ [s]).splitOn s = l.map f ++ [[]] := by
  induction l with
  | nil => rfl
  | cons x l ih =>
    have hshape : ((x :: l).flatMap fun y => f y ++ [s]) = f x ++ s :: l.flatMap fun y => f y ++ [s] := by
      simp
    rw [hshape, List.splitOn_append_cons_self_of_not_mem (h x List.mem_cons_self),
      ih fun y hy => h y (List.mem_cons_of_mem x hy)]
    rfl

/-! ## The first occurrence of a pattern -/

/-- The index of the first occurrence. -/
def find? (pat : List α) : List α → Option Nat
  | [] => if pat = [] then some 0 else none
  | x :: l => if pat <+: x :: l then some 0 else (find? pat l).map (· + 1)

/-- What follows the first occurrence. -/
def rest? (pat : List α) : List α → Option (List α)
  | [] => if pat = [] then some [] else none
  | x :: l => if pat <+: x :: l then some ((x :: l).drop pat.length) else rest? pat l

theorem rest?_eq_drop (pat l : List α) : rest? pat l = (find? pat l).map fun i => l.drop (i + pat.length) := by
  induction l with
  | nil =>
    unfold rest? find?
    split <;> simp
  | cons x l ih =>
    unfold rest? find?
    split
    · simp
    · rw [ih, Option.map_map]
      congr 1
      funext i
      simp [Nat.add_right_comm]

theorem rest?_here {pat l : List α} (h : pat <+: l) : rest? pat l = some (l.drop pat.length) := by
  cases l with
  | nil =>
    obtain rfl : pat = [] := List.prefix_nil.1 h
    rfl
  | cons x l => rw [rest?, if_pos h]

omit [DecidableEq α] in
theorem prefix_append_cons_iff {pat a b : List α} (h : s ∉ pat) : pat <+: a ++ s :: b ↔ pat <+: a := by
  induction pat generalizing a with
  | nil => simp
  | cons x pat ih =>
    obtain ⟨hx, hpat⟩ := not_or.1 (mt List.mem_cons.2 h)
    cases a with
    | nil => simp [List.cons_prefix_cons, Ne.symm hx]
    | cons y a => rw [List.cons_append, List.cons_prefix_cons, List.cons_prefix_cons, ih hpat]

theorem rest?_eq_none_iff {pat l : List α} : rest? pat l = none ↔ ¬pat <:+: l := by
  induction l with
  | nil => simp [rest?]
  | cons x l ih =>
    unfold rest?
    rw [List.infix_cons_iff, not_or]
    split
    · rename_i hpre
      simp [hpre]
    · rename_i hpre
      simp [hpre, ih]

theorem rest?_skip {pat l : List α} {x : α} (h : ¬pat <+: x :: l) : rest? pat (x :: l) = rest? pat l :=
  if_neg h

/-- A pattern without the separator is found in one of the pieces. -/
theorem rest?_append_cons {pat : List α} (h : s ∉ pat) (a b : List α) :
    rest? pat (a ++ s :: b) = ((rest? pat a).map (· ++ s :: b)).or (rest? pat b) := by
  induction a with
  | nil =>
    have hiff := prefix_append_cons_iff (a := []) (b := b) h
    by_cases hpre : pat <+: []
    · rw [rest?_here hpre, rest?_here (hiff.2 hpre), List.drop_append_of_le_length hpre.length_le]
      rfl
    · have hnone : rest? pat [] = none := if_neg fun hnil => hpre (by simp [hnil])
      rw [hnone, List.nil_append, rest?_skip (mt hiff.1 hpre)]
      rfl
  | cons x a ih =>
    have hiff := prefix_append_cons_iff (a := x :: a) (b := b) h
    by_cases hpre : pat <+: x :: a
    · rw [rest?_here hpre, rest?_here (hiff.2 hpre), List.drop_append_of_le_length hpre.length_le]
      rfl
    · rw [rest?_skip hpre, List.cons_append, rest?_skip (l := a ++ s :: b) (mt hiff.1 hpre),
        ih]

theorem take_of_find? {l : List α} {i : Nat} (h : find? [s] l = some i) : l.take i = l.takeWhile (· ≠ s) := by
  induction l generalizing i with
  | nil => cases h
  | cons x l ih =>
    unfold find? at h
    split at h
    · rename_i hpre
      cases h
      obtain rfl : s = x := (List.cons_prefix_cons.1 hpre).1
      simp
    · rename_i hpre
      obtain ⟨j, hj, rfl⟩ := Option.map_eq_some_iff.1 h
      have hne : x ≠ s := by
        rintro rfl
        exact hpre (by simp [List.cons_prefix_cons])
      simp [List.take_succ_cons, ih hj, hne]

theorem not_mem_of_find? {l : List α} (h : find? [s] l = none) : s ∉ l := by
  induction l with
  | nil => exact List.not_mem_nil
  | cons x l ih =>
    unfold find? at h
    split at h
    · cases h
    · rename_i hpre
      have hne : s ≠ x := by
        rintro rfl
        exact hpre (by simp [List.cons_prefix_cons])
      have hl : s ∉ l := ih (Option.map_eq_none_iff.1 h)
      simp [hne, hl]

end Lib.Split
