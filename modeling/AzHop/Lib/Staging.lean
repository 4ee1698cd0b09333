import Mathlib.Data.List.Basic
import Mathlib.Data.List.Induction
/-!
# A table that commands write and clear

A run of commands over a state. A write stands when no later command of the run
cleared the table. Where a table keeps the stamp of the last write, it has an
entry exactly for what stands, and the entry is the latest (`latest_run`).
-/
namespace Lib.Staging

variable {S C P : Type} (step : S → C → S)

def run (s : S) (cs : List C) : S := cs.foldl step s

@[simp] theorem run_nil (s : S) : run step s [] = s := rfl

@[simp] theorem run_singleton (s : S) (c : C) : run step s [c] = step s c := rfl

@[simp] theorem run_append (s : S) (cs ds : List C) : run step s (cs ++ ds) = run step (run step s cs) ds :=
  List.foldl_append

/-- What the commands do to the table, and when. -/
structure Effect (S C P : Type) where
  writes : S → C → P → Prop
  clears : S → C → Prop
  stamp : S → Nat

variable (e : Effect S C P)

/-- A command of the run wrote `p` at `t`, and no later one cleared. -/
def Standing (s : S) (cs : List C) (p : P) (t : Nat) : Prop :=
  ∃ before c after, cs = before ++ c :: after ∧ e.writes (run step s before) c p ∧ e.stamp (run step s before) = t ∧
    ∀ mid c' rest, after = mid ++ c' :: rest → ¬e.clears (run step s (before ++ c :: mid)) c'

theorem standing_nil (s : S) (p : P) (t : Nat) : ¬Standing step e s [] p t := by
  rintro ⟨before, c, after, h, -⟩
  cases before <;> cases h

theorem standing_snoc (s : S) (cs : List C) (c : C) (p : P) (t : Nat) :
    Standing step e s (cs ++ [c]) p t ↔
      e.writes (run step s cs) c p ∧ e.stamp (run step s cs) = t ∨
        Standing step e s cs p t ∧ ¬e.clears (run step s cs) c := by
  constructor
  · rintro ⟨before, d, after, hcs, hwrites, hstamp, hclears⟩
    rcases List.eq_nil_or_concat after with rfl | ⟨after, d', rfl⟩
    · obtain ⟨rfl, hd⟩ := List.append_inj' hcs rfl
      cases hd
      exact Or.inl ⟨hwrites, hstamp⟩
    · -- the last command came after the write
      rw [List.concat_eq_append, ← List.cons_append, ← List.append_assoc] at hcs
      obtain ⟨rfl, hd⟩ := List.append_inj' hcs rfl
      cases hd
      refine Or.inr ⟨⟨before, d, after, rfl, hwrites, hstamp, fun mid c' rest hafter => ?_⟩, ?_⟩
      · exact hclears mid c' (rest ++ [c]) (by rw [hafter]; simp)
      · exact hclears after c [] (by simp)
  · rintro (⟨hwrites, hstamp⟩ | ⟨⟨before, d, after, rfl, hwrites, hstamp, hclears⟩, hlast⟩)
    · exact ⟨cs, c, [], rfl, hwrites, hstamp, fun mid c' rest h => absurd h (by simp)⟩
    · refine ⟨before, d, after ++ [c], by simp, hwrites, hstamp, fun mid c' rest hafter => ?_⟩
      rcases List.eq_nil_or_concat rest with rfl | ⟨rest, d', rfl⟩
      · obtain ⟨rfl, hd⟩ := List.append_inj' hafter rfl
        cases hd
        exact hlast
      · rw [List.concat_eq_append, ← List.cons_append, ← List.append_assoc] at hafter
        obtain ⟨rfl, -⟩ := List.append_inj' hafter rfl
        exact hclears mid c' rest rfl

section Latest

variable {step e}

theorem stamp_le_run (hmono : ∀ s c, e.stamp s ≤ e.stamp (step s c)) (s : S) (cs : List C) :
    e.stamp s ≤ e.stamp (run step s cs) := by
  induction cs generalizing s with
  | nil => exact Nat.le_refl _
  | cons c cs ih => exact Nat.le_trans (hmono s c) (ih (step s c))

theorem Standing.le (hmono : ∀ s c, e.stamp s ≤ e.stamp (step s c)) {s : S} {cs : List C} {p : P} {t : Nat}
    (h : Standing step e s cs p t) : t ≤ e.stamp (run step s cs) := by
  obtain ⟨before, c, after, rfl, -, rfl, -⟩ := h
  rw [run_append]
  exact stamp_le_run hmono _ _

/-- What one command does to a table of stamps. -/
structure Stamps (step : S → C → S) (e : Effect S C P) (table : S → P → Option Nat) : Prop where
  mono : ∀ s c, e.stamp s ≤ e.stamp (step s c)
  written : ∀ s c p, e.writes s c p → table (step s c) p = some (e.stamp s)
  cleared : ∀ s c p, ¬e.writes s c p → e.clears s c → table (step s c) p = none
  kept : ∀ s c p, ¬e.writes s c p → ¬e.clears s c → table (step s c) p = table s p

theorem latest_run {table : S → P → Option Nat} (h : Stamps step e table) {s : S} (hs : ∀ p, table s p = none)
    (cs : List C) (p : P) :
    (∀ t, table (run step s cs) p = some t → Standing step e s cs p t) ∧
      ∀ t, Standing step e s cs p t → ∃ t', table (run step s cs) p = some t' ∧ t ≤ t' := by
  induction cs using List.reverseRecOn with
  | nil =>
    rw [run_nil, hs]
    exact ⟨fun t ht => (by cases ht), fun t ht => absurd ht (standing_nil step e s p t)⟩
  | append_singleton cs c ih =>
    have hrun : run step s (cs ++ [c]) = step (run step s cs) c := run_append step s cs [c]
    rw [hrun]
    simp only [standing_snoc]
    by_cases hw : e.writes (run step s cs) c p
    · rw [h.written _ _ _ hw]
      refine ⟨fun t ht => Or.inl ⟨hw, Option.some.inj ht⟩, fun t ht => ⟨_, rfl, ?_⟩⟩
      rcases ht with ⟨-, rfl⟩ | ⟨ht, -⟩
      · exact Nat.le_refl _
      · exact ht.le h.mono
    by_cases hc : e.clears (run step s cs) c
    · rw [h.cleared _ _ _ hw hc]
      exact ⟨fun t ht => (by cases ht), fun t ht => absurd ht (by simp [hw, hc])⟩
    · rw [h.kept _ _ _ hw hc]
      simpa [hw, hc] using ih

end Latest

/-! ## The value last written -/

section LastWrite
variable {V : Type} (value : C → Option V) (clear : C → Bool)

/-- What one command makes of the value. -/
def assign (v : Option V) (c : C) : Option V := (value c).or (if clear c then none else v)

def lastWrite (cs : List C) : Option V := cs.foldl (assign value clear) none

theorem lastWrite_snoc (cs : List C) (c : C) :
    lastWrite value clear (cs ++ [c]) = assign value clear (lastWrite value clear cs) c := List.foldl_append

/-- It was written by a command after which no other one wrote or cleared. -/
theorem lastWrite_eq_some_iff {cs : List C} {v : V} : lastWrite value clear cs = some v ↔
    ∃ before c after, cs = before ++ c :: after ∧ value c = some v ∧ ∀ d ∈ after, value d = none ∧ clear d = false := by
  induction cs using List.reverseRecOn with
  | nil => simp [lastWrite]
  | append_singleton cs c ih =>
    rw [lastWrite_snoc, assign]
    constructor
    · intro h
      cases hc : value c with
      | some w =>
        rw [hc, Option.some_or] at h
        cases h
        exact ⟨cs, c, [], rfl, hc, by simp⟩
      | none =>
        rw [hc, Option.none_or] at h
        cases hclear : clear c with
        | true => simp [hclear] at h
        | false =>
          rw [hclear, if_neg Bool.false_ne_true, ih] at h
          obtain ⟨before, d, after, rfl, hd, hafter⟩ := h
          refine ⟨before, d, after ++ [c], by simp, hd, fun e he => ?_⟩
          rcases List.mem_append.1 he with he | he
          · exact hafter e he
          · rw [List.mem_singleton.1 he]
            exact ⟨hc, hclear⟩
    · rintro ⟨before, d, after, hcs, hd, hafter⟩
      rcases List.eq_nil_or_concat after with rfl | ⟨after, e, rfl⟩
      · obtain ⟨rfl, he⟩ := List.append_inj' hcs rfl
        cases he
        rw [hd, Option.some_or]
      · rw [List.concat_eq_append, ← List.cons_append, ← List.append_assoc] at hcs
        obtain ⟨rfl, he⟩ := List.append_inj' hcs rfl
        cases he
        obtain ⟨hc, hclear⟩ := hafter c (by simp)
        rw [hc, hclear, Option.none_or, if_neg Bool.false_ne_true, ih]
        exact ⟨before, d, after, rfl, hd, fun e he => hafter e (by simp [he])⟩

end LastWrite

end Lib.Staging
