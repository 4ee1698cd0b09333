import Mathlib.Data.List.Induction
/-!
# Scripts that stop at the first error

A shell script under `set -e` and `set -o pipefail` runs commands on a world it
does not own. A command that fails ends the script, and whatever it and the
commands before it did to the world stays done.

A command comes with its `Outcome`: one that fails may or may not have taken
effect first. `Triple` is partial correctness with a second postcondition, for
the worlds in which the script stops early; `after_inv` is the induction over
any number of runs of a script.
-/
namespace Lib.Shell

/-- A script, which changes the state up to the command that fails. -/
abbrev Script (W : Type) := ExceptT Unit (StateM W)

variable {W α β ρ : Type}

/-- The result of a script, `error` being a non-zero exit status, and the world it leaves. -/
def exec (s : Script W α) (w : W) : Except Unit α × W := ExceptT.run s w

/-- What becomes of a command; one that fails may have done its work. -/
inductive Outcome
  | ok
  | failed (applied : Bool)
  deriving DecidableEq

/-- A command that only asks. -/
def query (answers : Bool) (read : W → α) : Script W α := if answers then read <$> get else throw ()

/-- A command that changes the world. -/
def command (o : Outcome) (effect : W → W) : Script W Unit :=
  match o with
  | .ok => modify effect
  | .failed true => do modify effect; throw ()
  | .failed false => throw ()

/-- `if [ .. ]; then .. fi`. -/
def when (c : Bool) (s : Script W Unit) : Script W Unit := if c then s else pure ()

/-- The script succeeds from `w`. -/
def Succeeds (s : Script W α) (w : W) : Prop := ∃ a, (exec s w).1 = .ok a

theorem exec_bind (s : Script W α) (f : α → Script W β) (w : W) :
    exec (s >>= f) w = match exec s w with
      | (.ok a, w') => exec (f a) w'
      | (.error e, w') => (.error e, w') := by
  have h : exec (s >>= f) w = ExceptT.bindCont f (exec s w).1 (exec s w).2 := rfl
  rw [h]
  match exec s w with
  | (.ok a, w') => rfl
  | (.error e, w') => rfl

/-- A script that succeeded left `Q`, one that stopped left `E`. -/
def Ends (Q : α → W → Prop) (E : W → Prop) : Except Unit α × W → Prop
  | (.ok a, w) => Q a w
  | (.error _, w) => E w

/-- From a world with `P` the script succeeds with `Q` or stops with `E`. -/
def Triple (P : W → Prop) (s : Script W α) (Q : α → W → Prop) (E : W → Prop) : Prop := ∀ w, P w → Ends Q E (exec s w)

/-! ## Rules -/

section
variable {P P' : W → Prop} {Q : α → W → Prop} {R : β → W → Prop} {E E' : W → Prop}

theorem triple_pure {a : α} (h : ∀ w, P w → Q a w) : Triple P (pure a) Q E := h

theorem Triple.post {s : Script W α} (h : Triple P s Q E) {w : W} (hw : P w) {a : α} (ha : (exec s w).1 = .ok a) :
    Q a (exec s w).2 := by
  have hx := h w hw
  match exec s w, ha, hx with
  | (.ok _, _), rfl, hx => exact hx

theorem Triple.succeeds {s : Script W α} (h : Triple P s Q fun _ => False) {w : W} (hw : P w) : Succeeds s w := by
  have hx := h w hw
  unfold Succeeds
  match exec s w, hx with
  | (.ok a, _), _ => exact ⟨a, rfl⟩

theorem triple_throw (h : ∀ w, P w → E w) : Triple P (throw () : Script W α) Q E := h

theorem triple_bind {s : Script W α} {f : α → Script W β} (hs : Triple P s Q E) (hf : ∀ a, Triple (Q a) (f a) R E) :
    Triple P (s >>= f) R E := by
  intro w hw
  have h := hs w hw
  rw [exec_bind]
  match exec s w, h with
  | (.ok a, w'), h => exact hf a w' h
  | (.error _, _), h => exact h

theorem triple_of_forall {s : Script W α} (hq : ∀ a w, Q a w) (he : ∀ w, E w) : Triple P s Q E := by
  intro w _
  match exec s w with
  | (.ok a, w') => exact hq a w'
  | (.error _, w') => exact he w'

theorem triple_conseq {s : Script W α} {Q' : α → W → Prop} (h : Triple P s Q E) (hp : ∀ w, P' w → P w)
    (hq : ∀ a w, Q a w → Q' a w) (he : ∀ w, E w → E' w) : Triple P' s Q' E' := by
  intro w hw
  have hx := h w (hp w hw)
  match exec s w, hx with
  | (.ok a, w'), hx => exact hq a w' hx
  | (.error _, w'), hx => exact he w' hx

theorem triple_query {answers : Bool} {read : W → α} (hq : ∀ w, P w → Q (read w) w) (he : ∀ w, P w → E w) :
    Triple P (query answers read) Q E := by
  cases answers with
  | true => exact hq
  | false => exact he

/-- Asking changes nothing, whatever the answer is for. -/
theorem triple_ask {answers : Bool} {read : W → α} (he : ∀ w, P w → E w) :
    Triple P (query answers read) (fun _ => P) E :=
  triple_query (fun _ hw => hw) he

theorem triple_answered {answers : Bool} {read : W → α} (ha : answers = true) (hq : ∀ w, P w → Q (read w) w) :
    Triple P (query answers read) Q E := by
  subst ha
  exact hq

theorem triple_command {o : Outcome} {effect : W → W} {Q : Unit → W → Prop} (hq : ∀ w, P w → Q () (effect w))
    (he : ∀ w, P w → E w ∧ E (effect w)) : Triple P (command o effect) Q E := by
  match o with
  | .ok => exact hq
  | .failed true => exact fun w hw => (he w hw).2
  | .failed false => exact fun w hw => (he w hw).1

theorem triple_done {o : Outcome} {effect : W → W} {Q : Unit → W → Prop} (ho : o = .ok)
    (hq : ∀ w, P w → Q () (effect w)) : Triple P (command o effect) Q E := by
  subst ho
  exact hq

theorem triple_ite {c : Prop} [Decidable c] {s t : Script W α} (hs : c → Triple P s Q E) (ht : ¬ c → Triple P t Q E) :
    Triple P (if c then s else t) Q E := by
  by_cases h : c
  · rw [if_pos h]
    exact hs h
  · rw [if_neg h]
    exact ht h

theorem triple_when {c : Bool} {s : Script W Unit} {Q : Unit → W → Prop} (hs : c = true → Triple P s Q E)
    (hn : c = false → ∀ w, P w → Q () w) : Triple P (when c s) Q E :=
  triple_ite hs fun h => triple_pure (hn (Bool.not_eq_true c ▸ h))

end

/-! ## Many runs -/

/-- The world after runs of a script, one for each input. -/
def after (script : ρ → Script W α) (rs : List ρ) (w : W) : W := rs.foldl (fun w r => (exec (script r) w).2) w

/-- What every run keeps, however it ends, holds after any number of runs. -/
theorem after_inv {script : ρ → Script W α} (I : List ρ → W → Prop) {w : W} (h0 : I [] w)
    (hstep : ∀ rs r, Triple (I rs) (script r) (fun _ => I (rs ++ [r])) (I (rs ++ [r]))) (rs : List ρ) :
    I rs (after script rs w) := by
  induction rs using List.reverseRecOn with
  | nil => exact h0
  | append_singleton rs r ih =>
    have h := hstep rs r _ ih
    unfold after at h ⊢
    rw [List.foldl_append, List.foldl_cons, List.foldl_nil]
    match exec (script r) _, h with
    | (.ok _, _), h => exact h
    | (.error _, _), h => exact h

end Lib.Shell
