import Mathlib.Algebra.BigOperators.Group.List.Basic
import Mathlib.Data.List.Nodup
/-!
# Tallies

A dictionary of sums that a loop fills, `if key not in data: data[key] = 0`
followed by `data[key] += n`. Keys stay in the order of their first insertion.
`mem_tally_iff` says what a whole loop leaves: one entry for each key, with the
sum over the items that have it.
-/
namespace Lib.Tally

variable {ι κ ν : Type} [DecidableEq κ] [AddCommMonoid ν]

def add : List (κ × ν) → κ → ν → List (κ × ν)
  | [], k, n => [(k, 0 + n)]
  | (k', m) :: d, k, n => if k' = k then (k', m + n) :: d else (k', m) :: add d k n

/-- What the loop over `l` makes of `d`. -/
def tally (key : ι → κ) (val : ι → ν) (d : List (κ × ν)) (l : List ι) : List (κ × ν) :=
  l.foldl (fun d x => add d (key x) (val x)) d

/-- The sum over the keys that satisfy `p`. -/
def sumWhere (p : κ → Bool) (d : List (κ × ν)) : ν := ((d.filter fun e => p e.1).map Prod.snd).sum

/-- The sum that is kept under a key, 0 for a key that is not there. -/
def count (d : List (κ × ν)) (k : κ) : ν := sumWhere (fun j => j = k) d

/-! ## One addition -/

omit [DecidableEq κ] in
theorem sumWhere_cons (p : κ → Bool) (e : κ × ν) (d : List (κ × ν)) :
    sumWhere p (e :: d) = (if p e.1 then e.2 else 0) + sumWhere p d := by
  unfold sumWhere
  by_cases h : p e.1 = true <;> simp [h]

theorem sumWhere_add (p : κ → Bool) (d : List (κ × ν)) (k : κ) (n : ν) :
    sumWhere p (add d k n) = sumWhere p d + if p k then n else 0 := by
  induction d with
  | nil => by_cases h : p k = true <;> simp [add, sumWhere, h]
  | cons e d ih =>
    obtain ⟨k', m⟩ := e
    unfold add
    split
    · rename_i hk
      subst hk
      simp only [sumWhere_cons]
      split
      · exact add_right_comm m n _
      · simp
    · rw [sumWhere_cons, sumWhere_cons, ih, add_assoc]

theorem mem_keys_add {d : List (κ × ν)} {k : κ} {n : ν} {j : κ} :
    j ∈ (add d k n).map Prod.fst ↔ j ∈ d.map Prod.fst ∨ j = k := by
  induction d with
  | nil => simp [add]
  | cons e d ih =>
    obtain ⟨k', m⟩ := e
    unfold add
    split
    · rename_i hk
      subst hk
      simp only [List.map_cons, List.mem_cons]
      tauto
    · simp only [List.map_cons, List.mem_cons, ih, or_assoc]

theorem nodup_add {d : List (κ × ν)} (h : (d.map Prod.fst).Nodup) (k : κ) (n : ν) :
    ((add d k n).map Prod.fst).Nodup := by
  induction d with
  | nil => simp [add]
  | cons e d ih =>
    obtain ⟨k', m⟩ := e
    obtain ⟨hnew, hd⟩ := List.nodup_cons.1 h
    unfold add
    split
    · exact h
    · rename_i hk
      refine List.nodup_cons.2 ⟨fun hmem => ?_, ih hd⟩
      exact (mem_keys_add.1 hmem).elim hnew hk

/-! ## The loop -/

section
variable (key : ι → κ) (val : ι → ν)

theorem sumWhere_tally (p : κ → Bool) (d : List (κ × ν)) (l : List ι) :
    sumWhere p (tally key val d l) = sumWhere p d + ((l.filter fun x => p (key x)).map val).sum := by
  induction l generalizing d with
  | nil => simp [tally]
  | cons x l ih =>
    have hstep : tally key val d (x :: l) = tally key val (add d (key x) (val x)) l := rfl
    rw [hstep, ih, sumWhere_add, List.filter_cons]
    by_cases h : p (key x) = true <;> simp [h, add_assoc]

theorem mem_keys_tally {d : List (κ × ν)} {l : List ι} {k : κ} :
    k ∈ (tally key val d l).map Prod.fst ↔ k ∈ d.map Prod.fst ∨ ∃ x ∈ l, key x = k := by
  induction l generalizing d with
  | nil => simp [tally]
  | cons x l ih =>
    have hstep : tally key val d (x :: l) = tally key val (add d (key x) (val x)) l := rfl
    rw [hstep, ih, mem_keys_add]
    simp [or_assoc, eq_comm (a := k)]

theorem nodup_tally {d : List (κ × ν)} (h : (d.map Prod.fst).Nodup) (l : List ι) :
    ((tally key val d l).map Prod.fst).Nodup := by
  induction l generalizing d with
  | nil => exact h
  | cons x l ih => exact ih (nodup_add h (key x) (val x))

/-- A loop that stops at an item without a key or a value. -/
theorem foldlM_add (f : ι → Option (κ × ν)) (d : List (κ × ν)) (l : List ι) :
    l.foldlM (fun d x => (f x).map fun e => add d e.1 e.2) d =
      (l.mapM f).map (tally Prod.fst Prod.snd d) := by
  induction l generalizing d with
  | nil => rfl
  | cons x l ih =>
    rw [List.foldlM_cons, List.mapM_cons]
    cases hx : f x with
    | none => rfl
    | some e =>
      have hrest := ih (add d e.1 e.2)
      rw [Option.map_some, Option.bind_eq_bind, Option.bind_some, hrest]
      cases l.mapM f <;> rfl

end

theorem count_of_mem {d : List (κ × ν)} (h : (d.map Prod.fst).Nodup) {e : κ × ν} (he : e ∈ d) : count d e.1 = e.2 := by
  induction d with
  | nil => cases he
  | cons e' d ih =>
    obtain ⟨hnew, hd⟩ := List.nodup_cons.1 h
    rw [count, sumWhere_cons]
    rcases List.mem_cons.1 he with rfl | he
    · have hrest : sumWhere (fun j => decide (j = e.1)) d = 0 := by
        unfold sumWhere
        have hnil : (d.filter fun x => decide (x.1 = e.1)) = [] := by
          rw [List.filter_eq_nil_iff]
          intro x hx heq
          exact hnew (by simpa using List.mem_map.2 ⟨x, hx, of_decide_eq_true heq⟩)
        rw [hnil]
        rfl
      rw [if_pos (by simp), hrest, add_zero]
    · have hne : e'.1 ≠ e.1 := by
        intro heq
        exact hnew (heq ▸ List.mem_map_of_mem he)
      rw [if_neg (by simpa using hne), zero_add]
      exact ih hd he

/-- The entries a loop leaves in an empty dictionary. -/
theorem mem_tally_iff (key : ι → κ) (val : ι → ν) {l : List ι} {e : κ × ν} : e ∈ tally key val [] l ↔
    (∃ x ∈ l, key x = e.1) ∧ e.2 = ((l.filter fun x => key x = e.1).map val).sum := by
  have hnodup : ((tally key val [] l).map Prod.fst).Nodup := nodup_tally key val (d := []) List.nodup_nil l
  have hcount : ∀ k, count (tally key val [] l) k = ((l.filter fun x => key x = k).map val).sum := by
    intro k
    simpa [count, sumWhere] using sumWhere_tally key val (fun j => decide (j = k)) [] l
  constructor
  · intro he
    refine ⟨?_, ?_⟩
    · simpa using (mem_keys_tally key val).1 (List.mem_map_of_mem he)
    · rw [← count_of_mem hnodup he, hcount]
  · rintro ⟨hx, hval⟩
    obtain ⟨e', he', heq⟩ := List.mem_map.1 ((mem_keys_tally key val (d := [])).2 (.inr hx))
    have hsame : e' = e := by
      refine Prod.ext heq ?_
      rw [← count_of_mem hnodup he', heq, hcount, hval]
    exact hsame ▸ he'

end Lib.Tally
