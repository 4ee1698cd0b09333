import Mathlib.Data.List.Basic
import Mathlib.Logic.Function.Basic
import Mathlib.Tactic.SplitIfs
/-!
# Registering the application for single sign-on

`configure_aad.sh` creates the application of the deployment in the directory,
gives it a password and stores that in the Key Vault. A run can be cut off at
any command, and a command that fails may have had its effect all the same.

Every password the script sets replaces the ones before, so a stored one has to
stay the last: `stored_stays`. `converges` says what a run without failures
makes of what earlier runs left.
-/
namespace AzHop.ConfigureAad

abbrev Text := List Char

/-! ## The services -/

/-- An application. -/
structure App where
  appId : Text
  /-- The password it accepts. -/
  credential : Option Text
  deriving DecidableEq

/-- What there is in Azure. -/
structure State where
  /-- The applications with the display name of the deployment. -/
  apps : List App
  /-- The Key Vault. -/
  secrets : Text → Option Text

/-- `SECRET_NAME`. -/
def secret_name (appId : Text) : Text := appId ++ "-password".toList

/-- How a command that changes something ends, when the script gets that far. -/
structure Answer where
  effect : Bool
  ok : Bool
  effect_of_ok : ok = true → effect = true

/-- What the commands of a run answer; a killed run is one whose next command fails. -/
structure Run where
  list : Bool
  create : Answer
  /-- The identifier the new application gets. -/
  new_app : Text
  list_again : Bool
  secret_list : Bool
  reset : Answer
  new_password : Text
  jq : Bool
  set : Answer
  password_ne : new_password ≠ []

/-! ## The script -/

/-- `az ad app credential reset`. -/
def State.reset (s : State) (appId password : Text) : State :=
  { s with apps := s.apps.map fun a => if a.appId = appId then { a with credential := some password } else a }

/-- `az keyvault secret set`. -/
def State.set (s : State) (name value : Text) : State := { s with secrets := Function.update s.secrets name (some value) }

/-- The last two commands. Of the pipeline only the status of `jq` counts, so
a failed reset yields an empty password. -/
def reset_and_set (s : State) (r : Run) (appId : Text) : State × Bool :=
  let s := if r.reset.effect then s.reset appId r.new_password else s
  if r.jq then
    let current_password := if r.reset.ok then r.new_password else []
    (if r.set.effect then s.set (secret_name appId) current_password else s, r.set.ok)
  else (s, false)

/-- A run, and whether it comes to its end. With several applications of that
name every later command has words too many and fails. -/
def configure_aad (s : State) (r : Run) : State × Bool :=
  if r.list then
    match s.apps with
    | [] =>
      let s := if r.create.effect then { s with apps := [⟨r.new_app, none⟩] } else s
      if r.create.ok && r.list_again then reset_and_set s r r.new_app else (s, false)
    | [app] =>
      if r.secret_list then
        if (s.secrets (secret_name app.appId)).isSome then (s, true)
        else if r.list_again then reset_and_set s r app.appId
        else (s, false)
      else (s, false)
    | _ => (s, false)
  else (s, false)

/-- The identifier of a new application is one that the vault has no secret of. -/
def Fresh (s : State) (r : Run) : Prop := s.secrets (secret_name r.new_app) = none

/-- The states after any number of runs. -/
inductive Reaches (s₀ : State) : State → Prop
  | start : Reaches s₀ s₀
  | run {s : State} (h : Reaches s₀ s) (r : Run) (hfresh : Fresh s r) : Reaches s₀ (configure_aad s r).1

/-! ## One run -/

@[simp] theorem apps_set (s : State) (name value : Text) : (s.set name value).apps = s.apps := rfl

@[simp] theorem secrets_reset (s : State) (appId password : Text) : (s.reset appId password).secrets = s.secrets := rfl

/-- What a run can leave: all as it was, a new application without a
password, or one application with a new password or a new secret. -/
inductive Leaves (s : State) (r : Run) : State → Prop
  | same : Leaves s r s
  | created (happs : s.apps = []) : Leaves s r { s with apps := [⟨r.new_app, none⟩] }
  | changed {app : App} {credential : Option Text} {value : Option Text}
      (happs : s.apps = [app] ∨ s.apps = [] ∧ app = ⟨r.new_app, none⟩)
      (hnone : s.secrets (secret_name app.appId) = none)
      (hvalue : value = none ∨ value = some [] ∨ value = credential) :
      Leaves s r ⟨[{ app with credential }], Function.update s.secrets (secret_name app.appId) value⟩

theorem reset_and_set_leaves {s : State} {r : Run} {app : App} (hnone : s.secrets (secret_name app.appId) = none) :
    ∃ credential value, (value = none ∨ value = some [] ∨ value = credential) ∧
      (reset_and_set { s with apps := [app] } r app.appId).1 =
        ⟨[{ app with credential }], Function.update s.secrets (secret_name app.appId) value⟩ := by
  have hkeep : Function.update s.secrets (secret_name app.appId) none = s.secrets :=
    Function.update_eq_self_iff.2 hnone.symm
  have hok := r.reset.effect_of_ok
  unfold reset_and_set
  cases hreset : r.reset.effect with
  | false =>
    rw [hreset] at hok
    have hfailed : r.reset.ok = false := by simpa using hok
    cases r.jq with
    | false => exact ⟨app.credential, none, .inl rfl, by simp [hkeep]⟩
    | true =>
      cases r.set.effect with
      | false => exact ⟨app.credential, none, .inl rfl, by simp [hkeep]⟩
      | true => exact ⟨app.credential, some [], .inr (.inl rfl), by simp [hfailed, State.set]⟩
  | true =>
    cases r.jq with
    | false => exact ⟨some r.new_password, none, .inl rfl, by simp [State.reset, hkeep]⟩
    | true =>
      cases r.set.effect with
      | false => exact ⟨some r.new_password, none, .inl rfl, by simp [State.reset, hkeep]⟩
      | true =>
        cases hprinted : r.reset.ok with
        | false => exact ⟨some r.new_password, some [], .inr (.inl rfl), by simp [State.reset, State.set]⟩
        | true => exact ⟨some r.new_password, some r.new_password, .inr (.inr rfl), by simp [State.reset, State.set]⟩

theorem configure_aad_leaves (s : State) {r : Run} (hfresh : Fresh s r) : Leaves s r (configure_aad s r).1 := by
  unfold configure_aad
  cases r.list with
  | false => exact .same
  | true =>
    rw [if_pos rfl]
    match happs : s.apps with
    | [] =>
      dsimp only
      cases hcreate : r.create.effect with
      | false =>
        have hok : r.create.ok = false := by
          have h := r.create.effect_of_ok
          rw [hcreate] at h
          simpa using h
        simp only [hok, Bool.false_and, Bool.false_eq_true, if_false]
        exact .same
      | true =>
        split
        · obtain ⟨credential, value, hvalue, hstate⟩ := @reset_and_set_leaves s r ⟨r.new_app, none⟩ hfresh
          exact hstate ▸ .changed (.inr ⟨happs, rfl⟩) hfresh hvalue
        · exact .created happs
    | [app] =>
      dsimp only
      split_ifs with hsecrets hstored
      · exact .same
      · have hnone : s.secrets (secret_name app.appId) = none := by simpa using hstored
        have hs : { s with apps := [app] } = s := by rw [← happs]
        obtain ⟨credential, value, hvalue, hstate⟩ := reset_and_set_leaves (r := r) hnone
        rw [hs] at hstate
        exact hstate ▸ .changed (.inl happs) hnone hvalue
      · exact .same
      · exact .same
    | _ :: _ :: _ => exact .same

/-! ## All runs -/

/-- A stored password is the one the application accepts, or empty. -/
def Current (s : State) : Prop :=
  ∀ app ∈ s.apps, ∀ v, s.secrets (secret_name app.appId) = some v → v = [] ∨ app.credential = some v

theorem Leaves.current {s s' : State} {r : Run} (h : Leaves s r s') (hfresh : Fresh s r) (hs : Current s) : Current s' := by
  cases h with
  | same => exact hs
  | created happs =>
    intro app happ v hv
    rw [List.mem_singleton.1 happ] at hv
    rw [Fresh] at hfresh
    cases hfresh.symm.trans hv
  | changed happs hnone hvalue =>
    intro app happ v hv
    rw [List.mem_singleton.1 happ] at hv ⊢
    replace hv := (Function.update_self _ _ _).symm.trans hv
    rcases hvalue with rfl | rfl | rfl
    · cases hv
    · cases hv
      exact .inl rfl
    · exact .inr hv

theorem Reaches.current {s₀ s : State} (h : Reaches s₀ s) (h₀ : Current s₀) : Current s := by
  induction h with
  | start => exact h₀
  | run h r hfresh ih => exact (configure_aad_leaves _ hfresh).current hfresh ih

theorem configure_aad_of_stored {s : State} {app : App} (happ : app ∈ s.apps)
    (hstored : (s.secrets (secret_name app.appId)).isSome = true) (r : Run) : (configure_aad s r).1 = s := by
  unfold configure_aad
  cases r.list with
  | false => rfl
  | true =>
    rw [if_pos rfl]
    match happs : s.apps with
    | [] =>
      rw [happs] at happ
      cases happ
    | [a] =>
      rw [happs] at happ
      rw [List.mem_singleton.1 happ] at hstored
      dsimp only
      rw [if_pos hstored]
      split <;> rfl
    | _ :: _ :: _ => rfl

/-- Whatever became of earlier runs, a password that is stored for the
application is the one it accepts, or empty because a reset failed; and from
then on no run changes anything. -/
theorem stored_stays {s₀ s s' : State} (h₀ : ∀ name, s₀.secrets name = none) (h : Reaches s₀ s) (h' : Reaches s s') {app : App}
    (happ : app ∈ s.apps) {v : Text} (hv : s.secrets (secret_name app.appId) = some v) :
    (v = [] ∨ app.credential = some v) ∧ s' = s := by
  have hcurrent : Current s₀ := fun app _ v hv => by cases (h₀ _).symm.trans hv
  refine ⟨h.current hcurrent app happ v hv, ?_⟩
  induction h' with
  | start => rfl
  | run h' r hfresh ih =>
    rw [ih]
    exact configure_aad_of_stored happ (by rw [hv]; rfl) r

def done : Answer := ⟨true, true, fun _ => rfl⟩

/-- The command has had its effect, but the script is killed there. -/
def lost : Answer := ⟨true, false, fun h => by cases h⟩

def noApp : State := ⟨[], fun _ => none⟩

/-- A run that would name a new application `new_app`. -/
def runWith (new_app : Text) (create set : Answer) : Run :=
  ⟨true, create, new_app, true, true, done, ['p', 'w'], true, set, by decide⟩

theorem stored_stays_7f :
    (configure_aad (configure_aad noApp (runWith ['7', 'f'] done lost)).1 (runWith ['8', 'e'] done done)).1 =
      (configure_aad noApp (runWith ['7', 'f'] done lost)).1 := by
  have hfirst : Reaches noApp (configure_aad noApp (runWith ['7', 'f'] done lost)).1 := .run .start _ rfl
  have happ : ⟨['7', 'f'], some ['p', 'w']⟩ ∈ (configure_aad noApp (runWith ['7', 'f'] done lost)).1.apps := by decide
  have hstored : (configure_aad noApp (runWith ['7', 'f'] done lost)).1.secrets (secret_name ['7', 'f']) = some ['p', 'w'] := by
    decide
  have hfresh : Fresh (configure_aad noApp (runWith ['7', 'f'] done lost)).1 (runWith ['8', 'e'] done done) := by
    unfold Fresh
    decide
  exact (stored_stays (fun _ => rfl) hfirst (.run .start _ hfresh) happ hstored).2

/-- Every command of the run succeeds. -/
def Run.Succeeds (r : Run) : Prop :=
  r.list = true ∧ r.create.ok = true ∧ r.list_again = true ∧ r.secret_list = true ∧ r.reset.ok = true ∧ r.jq = true ∧
    r.set.ok = true

theorem reset_and_set_succeeds {s : State} {r : Run} (hr : r.Succeeds) (app : App) :
    reset_and_set { s with apps := [app] } r app.appId =
      (⟨[{ app with credential := some r.new_password }],
        Function.update s.secrets (secret_name app.appId) (some r.new_password)⟩, true) := by
  obtain ⟨-, -, -, -, hreset, hjq, hset⟩ := hr
  simp [reset_and_set, hreset, r.reset.effect_of_ok hreset, hjq, hset, r.set.effect_of_ok hset, State.reset, State.set]

/-- After any runs, a run without failures ends with one application and a
stored password; the application accepts it unless an earlier run has stored
an empty one. -/
theorem converges {s₀ s : State} (h₀ : ∀ name, s₀.secrets name = none) (h : Reaches s₀ s) (hone : s.apps.length ≤ 1) {r : Run}
    (hr : r.Succeeds) : ∃ s' app v, configure_aad s r = (s', true) ∧ s'.apps = [app] ∧
      s'.secrets (secret_name app.appId) = some v ∧
      (app.credential = some v ∧ v ≠ [] ↔ ∀ a ∈ s.apps, s.secrets (secret_name a.appId) ≠ some []) := by
  have hcurrent : Current s := h.current fun app _ v hv => by cases (h₀ _).symm.trans hv
  have hlist := hr.1
  have hcreate := hr.2.1
  have hagain := hr.2.2.1
  have hsecrets := hr.2.2.2.1
  match happs : s.apps with
  | [] =>
    have hrun : configure_aad s r = (⟨[⟨r.new_app, some r.new_password⟩],
        Function.update s.secrets (secret_name r.new_app) (some r.new_password)⟩, true) := by
      simp only [configure_aad, hlist, happs, r.create.effect_of_ok hcreate, hcreate, hagain, if_true, Bool.and_self]
      exact reset_and_set_succeeds hr ⟨r.new_app, none⟩
    exact ⟨_, _, r.new_password, hrun, rfl, Function.update_self _ _ _, by simp [r.password_ne]⟩
  | [app] =>
    cases hstored : s.secrets (secret_name app.appId) with
    | some v =>
      have hrun : configure_aad s r = (s, true) := by simp [configure_aad, hlist, happs, hsecrets, hstored]
      refine ⟨s, app, v, hrun, happs, hstored, ?_⟩
      have hv := hcurrent app (by simp [happs]) v hstored
      constructor
      · rintro ⟨-, hne⟩ a ha
        rw [List.mem_singleton.1 ha, hstored]
        simpa using hne
      · intro hne
        have hv' : v ≠ [] := by
          have := hne app List.mem_cons_self
          rw [hstored] at this
          simpa using this
        exact ⟨hv.resolve_left hv', hv'⟩
    | none =>
      have hs : { s with apps := [app] } = s := by rw [← happs]
      have hrun : configure_aad s r = (⟨[{ app with credential := some r.new_password }],
          Function.update s.secrets (secret_name app.appId) (some r.new_password)⟩, true) := by
        have hset := reset_and_set_succeeds (s := s) hr app
        rw [hs] at hset
        simpa [configure_aad, hlist, happs, hsecrets, hstored, hagain] using hset
      refine ⟨_, _, r.new_password, hrun, rfl, Function.update_self _ _ _, ?_⟩
      simp [r.password_ne, hstored]
  | _ :: _ :: _ =>
    rw [happs] at hone
    simp at hone

/-- The first run is killed right after the application is there. -/
theorem converges_7f : ∃ s' app v,
    configure_aad (configure_aad noApp (runWith ['7', 'f'] lost done)).1 (runWith ['8', 'e'] done done) = (s', true) ∧
      s'.apps = [app] ∧ s'.secrets (secret_name app.appId) = some v ∧ app.credential = some v ∧ v ≠ [] := by
  have hfirst : Reaches noApp (configure_aad noApp (runWith ['7', 'f'] lost done)).1 := .run .start _ rfl
  obtain ⟨s', app, v, hrun, happs, hstored, hiff⟩ := converges (fun _ => rfl) hfirst (by decide)
    (show (runWith ['8', 'e'] done done).Succeeds from ⟨rfl, rfl, rfl, rfl, rfl, rfl, rfl⟩)
  exact ⟨s', app, v, hrun, happs, hstored, hiff.2 (by decide)⟩

end AzHop.ConfigureAad
