import AzHop.Lib.Loop
import Mathlib.Data.List.Basic
/-!
# The hook of the per-user server

Open OnDemand calls `pun_pre_hook.sh` before it starts the server of a user. The
script looks for the user in a loop over its arguments, which shifts them away
in the branch of `--user` and in no other.

`readsUser_iff` says for which arguments the loop ends.
-/
namespace AzHop.PunPreHook
open Lib.Loop

abbrev Arg := List Char

def userOption : Arg := "--user".toList

/-- The arguments that are left and the variable, which the environment may have set. -/
structure Loop where
  args : List Arg
  OOD_USER : Option Arg

/-- `shift n` fails when there are fewer arguments, and leaves them as they are. -/
def shift (n : Nat) (args : List Arg) : List Arg := if n ≤ args.length then args.drop n else args

/-- `while (( "$#" ))`. An argument that is not set is empty. -/
def body (s : Loop) : Loop ⊕ Option Arg :=
  if s.args.length = 0 then .inr s.OOD_USER
  else if s.args.getD 0 [] = userOption then .inl ⟨shift 2 s.args, some (s.args.getD 1 [])⟩
  else .inl s

/-- The argument that follows the last `--user`, of those that one follows. -/
def followed? : List Arg → Option Arg
  | option :: value :: args => (followed? (value :: args)).or (if option = userOption then some value else none)
  | _ => none

/-- The loop ends, and the variable is what followed the last `--user`. -/
def ReadsUser (args : List Arg) : Prop :=
  ∀ env : Option Arg, (∃ user, Leaves body ⟨args, env⟩ user) ∧
    ∀ user, Leaves body ⟨args, env⟩ user → user = (followed? args).or env

/-- `--user` before every value. -/
def pairs (values : List Arg) : List Arg := values.flatMap fun value => [userOption, value]

/-! ## What the loop leaves with -/

theorem body_pair (value : Arg) (args : List Arg) (env : Option Arg) :
    body ⟨userOption :: value :: args, env⟩ = .inl ⟨args, some value⟩ := by
  simp [body, shift]

/-- What stays of the arguments when the body goes on. -/
theorem body_again {s s' : Loop} (h : body s = .inl s') :
    (∃ value, s.args = userOption :: value :: s'.args ∧ s'.OOD_USER = some value) ∨
    (s.args = [userOption] ∧ s'.args = [userOption]) ∨ s' = s := by
  obtain ⟨args, env⟩ := s
  match args with
  | [] => cases h
  | [option] =>
    by_cases hoption : option = userOption
    · subst hoption
      have hstuck : body ⟨[userOption], env⟩ = .inl ⟨[userOption], some []⟩ := rfl
      rw [hstuck] at h
      cases h
      exact Or.inr (Or.inl ⟨rfl, rfl⟩)
    · have hsame : body ⟨[option], env⟩ = .inl ⟨[option], env⟩ := by simp [body, hoption]
      exact Or.inr (Or.inr (Sum.inl.inj (h.symm.trans hsame)))
  | option :: value :: args =>
    by_cases hoption : option = userOption
    · subst hoption
      rw [body_pair] at h
      cases h
      exact Or.inl ⟨value, rfl, rfl⟩
    · have hsame : body ⟨option :: value :: args, env⟩ = .inl ⟨option :: value :: args, env⟩ := by
        simp [body, hoption]
      exact Or.inr (Or.inr (Sum.inl.inj (h.symm.trans hsame)))

theorem last_or_cons (value : Arg) (values : List Arg) (env : Option Arg) :
    (value :: values).getLast?.or env = values.getLast?.or (some value) := by
  rw [List.getLast?_cons]
  cases values.getLast? <;> rfl

/-- The loop ends on pairs only: any other list is left as it is by some turn, for good. -/
theorem leaves_iff {s : Loop} {user : Option Arg} :
    Leaves body s user ↔ ∃ values, s.args = pairs values ∧ user = values.getLast?.or s.OOD_USER := by
  constructor
  · intro h
    induction h with
    | @leave s user hexit =>
      obtain ⟨args, env⟩ := s
      cases args with
      | nil => exact ⟨[], rfl, (Sum.inr.inj hexit).symm⟩
      | cons option args =>
        simp only [body, List.length_cons, Nat.add_one_ne_zero, if_false] at hexit
        split at hexit <;> cases hexit
    | @again s s' user hbody _ ih =>
      obtain ⟨values, hargs, huser⟩ := ih
      rcases body_again hbody with ⟨value, hpair, hset⟩ | ⟨-, hstuck⟩ | rfl
      · refine ⟨value :: values, ?_, ?_⟩
        · rw [hpair, hargs]
          rfl
        · rw [huser, hset, last_or_cons]
      -- one argument is no list of pairs
      · rw [hstuck] at hargs
        cases values <;> simp [pairs] at hargs
      · exact ⟨values, hargs, huser⟩
  · obtain ⟨args, env⟩ := s
    rintro ⟨values, hargs, rfl⟩
    dsimp only at hargs ⊢
    subst hargs
    induction values generalizing env with
    | nil => exact .leave rfl
    | cons value values ih =>
      rw [last_or_cons]
      exact .again (body_pair value (pairs values) env) (ih (some value))

/-- A value that is `--user` itself makes no difference: a later `--user` follows it, or nothing does. -/
theorem followed_cons_pairs (value : Arg) (values : List Arg) :
    followed? (value :: pairs values) = followed? (pairs values) := by
  cases values with
  | nil => rfl
  | cons next values =>
    change (followed? (userOption :: next :: pairs values)).or _ = followed? (userOption :: next :: pairs values)
    simp [followed?]

theorem followed_pairs (values : List Arg) : followed? (pairs values) = values.getLast? := by
  induction values with
  | nil => rfl
  | cons value values ih =>
    change (followed? (value :: pairs values)).or (some value) = _
    rw [followed_cons_pairs, ih, List.getLast?_cons]
    cases values.getLast? <;> rfl

/-- The loop ends when the arguments are values with `--user` before each of
them, and never otherwise. Where it ends, the variable is right. -/
theorem readsUser_iff (args : List Arg) : ReadsUser args ↔ ∃ values, args = pairs values := by
  constructor
  · intro h
    obtain ⟨user, hleaves⟩ := (h none).1
    obtain ⟨values, hargs, -⟩ := leaves_iff.1 hleaves
    exact ⟨values, hargs⟩
  · rintro ⟨values, rfl⟩ env
    refine ⟨⟨_, leaves_iff.2 ⟨values, rfl, rfl⟩⟩, fun user hleaves => ?_⟩
    obtain ⟨values', hargs, rfl⟩ := leaves_iff.1 hleaves
    change pairs values = pairs values' at hargs
    rw [hargs, followed_pairs]

/-- `--user` as the last argument, without a value. -/
theorem not_readsUser_last : ¬ ReadsUser [userOption] := by
  intro h
  obtain ⟨user, hleaves⟩ := (h none).1
  have hstay : ∀ s s' : Loop, s.args = [userOption] → body s = .inl s' → s'.args = [userOption] := by
    intro s s' hs hbody
    rcases body_again hbody with ⟨value, hpair, -⟩ | ⟨-, hstuck⟩ | rfl
    · rw [hs] at hpair
      cases hpair
    · exact hstuck
    · exact hs
  obtain ⟨s, hs, hexit⟩ := hleaves.invariant hstay rfl
  simp [body, hs] at hexit

end AzHop.PunPreHook
