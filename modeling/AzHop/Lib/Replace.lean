import AzHop.Lib.Split
/-!
# Replacing a text

`sed 's/pat/rep/g'`: the occurrences of `pat` that do not overlap, from the left.
A replacement does not reach across a character that `pat` does not have
(`replaceAll_append_cons`), and one that makes the text longer shows in it
(`replaceAll_eq_self_iff`).

In an escaped text a pattern of plain characters is replaced as in the text
itself (`replaceAll_flatMap`).
-/
namespace Lib.Replace
open Lib.Split

variable {α : Type} [DecidableEq α]

/-- The replacement after `skip` more elements, which belong to an occurrence. -/
def replaceFrom (pat rep : List α) : Nat → List α → List α
  | _, [] => []
  | 0, x :: l =>
    if pat <+: x :: l then rep ++ replaceFrom pat rep (pat.length - 1) l else x :: replaceFrom pat rep 0 l
  | skip + 1, _ :: l => replaceFrom pat rep skip l

def replaceAll (pat rep l : List α) : List α := replaceFrom pat rep 0 l

variable {pat rep : List α}

theorem replaceFrom_eq (skip : Nat) (l : List α) : replaceFrom pat rep skip l = replaceAll pat rep (l.drop skip) := by
  induction l generalizing skip with
  | nil => cases skip <;> rfl
  | cons x l ih =>
    cases skip with
    | zero => rfl
    | succ skip => exact ih skip

theorem replaceAll_nil : replaceAll pat rep [] = [] := rfl

theorem replaceAll_cons_of_not (x : α) (l : List α) (h : ¬pat <+: x :: l) :
    replaceAll pat rep (x :: l) = x :: replaceAll pat rep l := if_neg h

theorem replaceAll_append_pat (h : pat ≠ []) (l : List α) : replaceAll pat rep (pat ++ l) = rep ++ replaceAll pat rep l := by
  obtain ⟨x, tail, rfl⟩ := List.exists_cons_of_ne_nil h
  rw [List.cons_append, replaceAll, replaceFrom, if_pos (by simp), replaceFrom_eq]
  simp

/-- Induction over the steps of a replacement. -/
theorem replace_induction {motive : List α → Prop} (h : pat ≠ []) (nil : motive [])
    (match_pat : ∀ l, motive l → motive (pat ++ l))
    (skip_one : ∀ x l, ¬pat <+: x :: l → motive l → motive (x :: l)) (l : List α) : motive l := by
  induction hn : l.length using Nat.strongRecOn generalizing l with
  | ind n ih =>
    cases l with
    | nil => exact nil
    | cons x l =>
      by_cases hpre : pat <+: x :: l
      · obtain ⟨rest, hrest⟩ := hpre
        rw [← hrest]
        have hpos := List.length_pos_iff.2 h
        have hlength : (x :: l).length = pat.length + rest.length := by rw [← hrest, List.length_append]
        exact match_pat rest (ih rest.length (by omega) rest rfl)
      · exact skip_one x l hpre (ih l.length (by rw [← hn]; exact Nat.lt_succ_self _) l rfl)

/-- A replacement stops at an element the pattern does not have. -/
theorem replaceAll_append_cons {s : α} (h : pat ≠ []) (hs : s ∉ pat) (a b : List α) :
    replaceAll pat rep (a ++ s :: b) = replaceAll pat rep a ++ s :: replaceAll pat rep b := by
  induction a using replace_induction h with
  | nil =>
    have hnot : ¬pat <+: s :: b := by
      rintro ⟨rest, hrest⟩
      obtain ⟨x, tail, rfl⟩ := List.exists_cons_of_ne_nil h
      obtain ⟨rfl, -⟩ := List.cons.inj hrest
      exact hs List.mem_cons_self
    exact replaceAll_cons_of_not s b hnot
  | match_pat a ih =>
    rw [List.append_assoc, replaceAll_append_pat h, replaceAll_append_pat h, ih, List.append_assoc]
  | skip_one x a hnot ih =>
    have hnot' : ¬pat <+: x :: (a ++ s :: b) := mt (prefix_append_cons_iff (a := x :: a) hs).1 hnot
    rw [List.cons_append, replaceAll_cons_of_not _ _ hnot', replaceAll_cons_of_not _ _ hnot, ih, List.cons_append]

/-- Nothing starts in a text without the pattern's first element. -/
theorem replaceAll_append_of_not_mem {x : α} {tail : List α} {a : List α} (hx : x ∉ a) (b : List α) :
    replaceAll (x :: tail) rep (a ++ b) = a ++ replaceAll (x :: tail) rep b := by
  induction a with
  | nil => rfl
  | cons y a ih =>
    obtain ⟨hy, ha⟩ := not_or.1 (mt List.mem_cons.2 hx)
    have hnot : ¬x :: tail <+: y :: (a ++ b) := by
      rw [List.cons_prefix_cons]
      exact fun hpre => hy hpre.1
    rw [List.cons_append, replaceAll_cons_of_not _ _ hnot, ih ha, List.cons_append]

theorem length_le_replaceAll (h : pat ≠ []) (hlt : pat.length < rep.length) (l : List α) :
    l.length ≤ (replaceAll pat rep l).length := by
  induction l using replace_induction h with
  | nil => exact Nat.le_refl _
  | match_pat l ih =>
    rw [replaceAll_append_pat h, List.length_append, List.length_append]
    omega
  | skip_one x l hnot ih =>
    rw [replaceAll_cons_of_not _ _ hnot, List.length_cons, List.length_cons]
    omega

/-- A replaced text has the replacement in it. -/
theorem infix_replaceAll (h : pat ≠ []) {l : List α} (hin : pat <:+: l) : rep <:+: replaceAll pat rep l := by
  induction l using replace_induction h with
  | nil => exact absurd (List.infix_nil.1 hin) h
  | match_pat l ih =>
    rw [replaceAll_append_pat h]
    exact List.infix_append' [] rep _
  | skip_one x l hnot ih =>
    rw [replaceAll_cons_of_not _ _ hnot]
    have hin' : pat <:+: l := (List.infix_cons_iff.1 hin).resolve_left hnot
    exact (ih hin').trans (List.infix_cons (List.infix_refl _))

theorem replaceAll_of_absent {l : List α} (hin : ¬pat <:+: l) : replaceAll pat rep l = l := by
  induction l with
  | nil => rfl
  | cons x l ih =>
    have hnot := mt List.infix_cons_iff.2 hin
    rw [replaceAll_cons_of_not x l fun hpre => hnot (Or.inl hpre), ih fun hl => hnot (Or.inr hl)]

/-- A replacement by something longer keeps exactly the texts without the pattern. -/
theorem replaceAll_eq_self_iff (h : pat ≠ []) (hlt : pat.length < rep.length) (l : List α) :
    replaceAll pat rep l = l ↔ ¬pat <:+: l := by
  refine ⟨fun heq hin => ?_, replaceAll_of_absent⟩
  induction l using replace_induction h with
  | nil => exact h (List.infix_nil.1 hin)
  | match_pat l ih =>
    have hlength := congrArg List.length heq
    have hle := length_le_replaceAll h hlt l
    rw [replaceAll_append_pat h, List.length_append, List.length_append] at hlength
    omega
  | skip_one x l hnot ih =>
    rw [replaceAll_cons_of_not _ _ hnot] at heq
    exact ih (List.cons.inj heq).2 ((List.infix_cons_iff.1 hin).resolve_left hnot)

/-- A text with neither of the two comes from itself only. -/
theorem replaceAll_eq_iff (h : pat ≠ []) {l : List α} (hpat : ¬pat <:+: l) (hrep : ¬rep <:+: l) (l' : List α) :
    replaceAll pat rep l' = l ↔ l' = l := by
  constructor
  · rintro rfl
    have hl' : ¬pat <:+: l' := fun hin => hrep (infix_replaceAll h hin)
    rw [replaceAll_of_absent hl']
  · rintro rfl
    exact replaceAll_of_absent hpat

/-! ## Through an escape -/

section Escape

variable {e : α → List α}

omit [DecidableEq α] in
theorem flatMap_plain {l : List α} (h : ∀ c ∈ l, e c = [c]) : l.flatMap e = l := by
  rw [List.flatMap_congr h, List.flatMap_singleton']

omit [DecidableEq α] in
/-- A pattern of characters that are written as they are starts a text where it
starts the escaped text. -/
theorem prefix_flatMap_iff {p : List α} (hp : ∀ c ∈ p, e c = [c])
    (he : ∀ c, e c = [c] ∨ ∃ b t, e c = b :: t ∧ b ∉ p) (l : List α) : p <+: l.flatMap e ↔ p <+: l := by
  induction p generalizing l with
  | nil => exact iff_of_true List.nil_prefix List.nil_prefix
  | cons x p ih =>
    have hx := hp x List.mem_cons_self
    have he' : ∀ c, e c = [c] ∨ ∃ b t, e c = b :: t ∧ b ∉ p :=
      fun c => (he c).imp_right fun ⟨b, t, hb, hn⟩ => ⟨b, t, hb, fun hm => hn (List.mem_cons_of_mem x hm)⟩
    have ih := ih (fun c hc => hp c (List.mem_cons_of_mem x hc)) he'
    cases l with
    | nil => simp
    | cons c l =>
      rw [List.flatMap_cons]
      rcases he c with hc | ⟨b, t, hc, hb⟩
      · rw [hc, List.singleton_append, List.cons_prefix_cons, List.cons_prefix_cons, ih]
      · have hne : x ≠ c := by
          rintro rfl
          rw [hc] at hx
          obtain ⟨rfl, -⟩ := List.cons.inj hx
          exact hb List.mem_cons_self
        have hne' : x ≠ b := fun h => hb (h ▸ List.mem_cons_self)
        rw [hc, List.cons_append, List.cons_prefix_cons, List.cons_prefix_cons]
        exact iff_of_false (fun h => hne' h.1) (fun h => hne h.1)

/-- A replacement in an escaped text is the escaped replacement. -/
theorem replaceAll_flatMap {x : α} {tail : List α} (hp : ∀ c ∈ x :: tail, e c = [c]) (hrep : ∀ c ∈ rep, e c = [c])
    (he : ∀ c, e c = [c] ∨ x ∉ e c ∧ ∃ b t, e c = b :: t ∧ b ∉ x :: tail) (l : List α) :
    replaceAll (x :: tail) rep (l.flatMap e) = (replaceAll (x :: tail) rep l).flatMap e := by
  have hpre := prefix_flatMap_iff hp fun c => (he c).imp_right And.right
  induction l using replace_induction (List.cons_ne_nil x tail) with
  | nil => rfl
  | match_pat l ih =>
    rw [List.flatMap_append, flatMap_plain hp, replaceAll_append_pat (List.cons_ne_nil x tail), ih,
      replaceAll_append_pat (List.cons_ne_nil x tail), List.flatMap_append, flatMap_plain hrep]
  | skip_one c l hnot ih =>
    rw [replaceAll_cons_of_not c l hnot, List.flatMap_cons, List.flatMap_cons, ← ih]
    rcases he c with hc | ⟨hx, -⟩
    · have hnot' : ¬x :: tail <+: c :: l.flatMap e := by
        have := mt (hpre (c :: l)).1 hnot
        rwa [List.flatMap_cons, hc] at this
      rw [hc, List.singleton_append, replaceAll_cons_of_not c _ hnot', List.singleton_append]
    · exact replaceAll_append_of_not_mem hx _

end Escape

end Lib.Replace
