/-!
# Loops that leave from the middle

`while true` with a body that goes on from a new state or leaves with a result.
The relation `Leaves` says what a loop leaves with; a loop that never leaves is
related to nothing.
-/
namespace Lib.Loop

variable {σ ρ : Type} {body : σ → σ ⊕ ρ}

/-- The loop over `body`, entered at a state, leaves with a result. -/
inductive Leaves (body : σ → σ ⊕ ρ) : σ → ρ → Prop
  | leave {s : σ} {r : ρ} : body s = .inr r → Leaves body s r
  | again {s s' : σ} {r : ρ} : body s = .inl s' → Leaves body s' r → Leaves body s r

theorem leaves_of_inr {s : σ} {r r' : ρ} (h : body s = .inr r) : Leaves body s r' ↔ r' = r := by
  constructor
  · intro hl
    cases hl with
    | leave hr => exact Sum.inr.inj (hr.symm.trans h)
    | again hs _ => cases hs.symm.trans h
  · rintro rfl
    exact .leave h

/-- What the body keeps holds where the loop leaves. -/
theorem Leaves.invariant {P : σ → Prop} (hstep : ∀ s s', P s → body s = .inl s' → P s') {s : σ} {r : ρ}
    (h : Leaves body s r) (hs : P s) : ∃ t, P t ∧ body t = .inr r := by
  induction h with
  | leave hr => exact ⟨_, hs, hr⟩
  | again hb _ ih => exact ih (hstep _ _ hs hb)

/-- A loop whose body lowers a measure leaves. -/
theorem leaves_of_measure (measure : σ → Nat) (hdec : ∀ s s', body s = .inl s' → measure s' < measure s) (s : σ) :
    ∃ r, Leaves body s r := by
  cases hb : body s with
  | inl s' =>
    obtain ⟨r, hr⟩ := leaves_of_measure measure hdec s'
    exact ⟨r, .again hb hr⟩
  | inr r => exact ⟨r, .leave hb⟩
termination_by measure s
decreasing_by exact hdec s s' hb

end Lib.Loop
