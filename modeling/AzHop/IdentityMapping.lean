import AzHop.Lib.WordSearch
import AzHop.Secrets
/-!
# The account of an authenticated user

The portal calls `custom_mapping.sh` with the identity of a user, and takes what
it prints for the account. The script looks for `([^@]+)%40domain.com` anywhere
in the identity, and prints what the group matches: its first 20 characters, in
lower case.

`mapping_iff` says which identities get an account they should not have, and
which two share one.
-/
namespace AzHop.IdentityMapping
open Lib.WordSearch Secrets

/-- `%40domain.com`. In the expression, the dot stands for any character. -/
def domain : Text := ['%', '4', '0', 'd', 'o', 'm', 'a', 'i', 'n', '.', 'c', 'o', 'm']

def domainAt (l : Text) : Bool := (afterMatch domain l).isSome

/-- What the group matches at the start of a text: as much as it can. -/
def group : Text → Option Text
  | [] => none
  | c :: l =>
    if c = '@' then none
    else
      match group l with
      | some user => some (c :: user)
      | none => if domainAt l then some [c] else none

/-- `BASH_REMATCH[1]`, from the leftmost match. -/
def rematch : Text → Option Text
  | [] => none
  | c :: l => (group (c :: l)).or (rematch l)

/-- `tr '[:upper:]' '[:lower:]'`. -/
def lower (l : Text) : Text := l.map Char.toLower

/-- What the script prints; `none` where it exits with 1. -/
def custom_mapping (t : Tools) (input_user : Text) : Option Text :=
  (rematch input_user).map fun m => lower (echo t [m.take 20])

/-! ## What it should do -/

/-- The identity of a user of the domain. -/
def Identity (x user : Text) : Prop := x = user ++ domain ∧ user ≠ [] ∧ '@' ∉ user

/-- Only identities of the domain are mapped. -/
def MapsDomain (t : Tools) (x : Text) : Prop := (custom_mapping t x).isSome = true → ∃ user, Identity x user

/-- Different users get different accounts. -/
def Separates (t : Tools) (x y : Text) : Prop :=
  ∀ user user', Identity x user → Identity y user' → lower user ≠ lower user' →
    ∀ a b, custom_mapping t x = some a → custom_mapping t y = some b → a ≠ b

def Maps (t : Tools) (x y : Text) : Prop := MapsDomain t x ∧ MapsDomain t y ∧ Separates t x y

/-- Somewhere in the text a character other than `@` stands before the domain. -/
def Occurs (x : Text) : Prop :=
  ∃ a c stretch b, x = a ++ c :: (stretch ++ b) ∧ c ≠ '@' ∧ Agrees domain stretch

/-- Two users who get one account: they agree in their first 20 characters, less
the case, or `echo` takes these for options. -/
def Clash (user user' : Text) : Prop :=
  isOption (user.take 20) = isOption (user'.take 20) ∧
  (isOption (user.take 20) = false → lower (user.take 20) = lower (user'.take 20))

/-! ## The match -/

theorem domainAt_iff {l : Text} : domainAt l = true ↔ ∃ stretch b, l = stretch ++ b ∧ Agrees domain stretch := by
  unfold domainAt
  rw [Option.isSome_iff_exists]
  constructor
  · rintro ⟨b, hb⟩
    obtain ⟨stretch, hl, hagrees⟩ := afterMatch_eq_some_iff.1 hb
    exact ⟨stretch, b, hl, hagrees⟩
  · rintro ⟨stretch, b, hl, hagrees⟩
    exact ⟨b, afterMatch_eq_some_iff.2 ⟨stretch, hl, hagrees⟩⟩

/-- The group leaves room for the domain. -/
theorem length_of_group {l user : Text} (h : group l = some user) : user.length + domain.length ≤ l.length := by
  induction l generalizing user with
  | nil => cases h
  | cons c l ih =>
    unfold group at h
    split at h
    · cases h
    · split at h
      · rename_i user' hgroup
        cases h
        have := ih hgroup
        simp only [List.length_cons]
        omega
      · split at h
        · rename_i hdomain
          cases h
          obtain ⟨stretch, b, rfl, hagrees⟩ := domainAt_iff.1 hdomain
          have hlength := hagrees.length_eq
          simp only [List.length_cons, List.length_append, List.length_nil]
          omega
        · cases h

theorem occurs_of_group {l user : Text} (h : group l = some user) : Occurs l := by
  induction l generalizing user with
  | nil => cases h
  | cons c l ih =>
    unfold group at h
    split at h
    · cases h
    · rename_i hc
      split at h
      · rename_i user' hgroup
        obtain ⟨a, d, stretch, b, rfl, hd, hagrees⟩ := ih hgroup
        exact ⟨c :: a, d, stretch, b, rfl, hd, hagrees⟩
      · split at h
        · rename_i hdomain
          obtain ⟨stretch, b, rfl, hagrees⟩ := domainAt_iff.1 hdomain
          exact ⟨[], c, stretch, b, rfl, hc, hagrees⟩
        · cases h

theorem group_isSome {c : Char} {l : Text} (hc : c ≠ '@') (h : domainAt l = true) : (group (c :: l)).isSome = true := by
  unfold group
  rw [if_neg hc]
  cases group l with
  | some user => rfl
  | none => simp [h]

/-- There is a match where the domain stands after a user. -/
theorem rematch_isSome_iff {x : Text} : (rematch x).isSome = true ↔ Occurs x := by
  induction x with
  | nil =>
    refine iff_of_false Bool.false_ne_true ?_
    rintro ⟨a, c, stretch, b, h, -⟩
    cases a <;> cases h
  | cons d x ih =>
    rw [rematch, Option.isSome_or, Bool.or_eq_true, ih]
    constructor
    · rintro (h | ⟨a, c, stretch, b, rfl, hc, hagrees⟩)
      · obtain ⟨user, huser⟩ := Option.isSome_iff_exists.1 h
        exact occurs_of_group huser
      · exact ⟨d :: a, c, stretch, b, rfl, hc, hagrees⟩
    · rintro ⟨a, c, stretch, b, hx, hc, hagrees⟩
      cases a with
      | nil =>
        obtain ⟨rfl, rfl⟩ := List.cons.inj hx
        exact Or.inl (group_isSome hc (domainAt_iff.2 ⟨stretch, b, rfl, hagrees⟩))
      | cons a' a =>
        obtain ⟨-, rfl⟩ := List.cons.inj hx
        exact Or.inr ⟨a, c, stretch, b, rfl, hc, hagrees⟩

/-- Of an identity of the domain the group matches the user. -/
theorem group_identity {user : Text} (hne : user ≠ []) (hat : '@' ∉ user) : group (user ++ domain) = some user := by
  have hdomain : group domain = none := by
    cases h : group domain with
    | none => rfl
    | some rest =>
      have hlength := length_of_group h
      have hrest : rest = [] := List.length_eq_zero_iff.1 (by omega)
      rw [hrest] at h
      exact absurd h (by decide)
  induction user with
  | nil => exact absurd rfl hne
  | cons c user ih =>
    obtain ⟨hc, hat⟩ := not_or.1 (mt List.mem_cons.2 hat)
    rw [List.cons_append, group, if_neg (Ne.symm hc)]
    cases user with
    | nil =>
      rw [List.nil_append, hdomain]
      exact if_pos (domainAt_iff.2 ⟨domain, [], (List.append_nil domain).symm, agrees_self domain⟩)
    | cons d user => rw [ih (List.cons_ne_nil d user) hat]

theorem rematch_identity {x user : Text} (h : Identity x user) : rematch x = some user := by
  obtain ⟨rfl, hne, hat⟩ := h
  obtain ⟨c, rest, rfl⟩ := List.exists_cons_of_ne_nil hne
  have hgroup := group_identity hne hat
  rw [List.cons_append] at hgroup ⊢
  rw [rematch, hgroup]
  rfl

/-! ## The account -/

theorem echo_word (t : Tools) (w : Text) : echo t [w] = if isOption w then [] else w := by
  have hnil : t.escapes [] = [] := t.escapes_plain [] List.not_mem_nil
  by_cases hw : isOption w = true
  · simp [echo, hw, hnil]
  · simp [echo, hw]

theorem custom_mapping_identity (t : Tools) {x user : Text} (h : Identity x user) :
    custom_mapping t x = some (if isOption (user.take 20) then [] else lower (user.take 20)) := by
  rw [custom_mapping, rematch_identity h, Option.map_some, echo_word]
  split <;> rfl

theorem take_ne_nil {user : Text} (h : user ≠ []) : lower (user.take 20) ≠ [] := by
  simp [lower, h]

/-- Two users get one account when they clash. -/
theorem account_eq_iff {user user' : Text} (h : user ≠ []) (h' : user' ≠ []) :
    (if isOption (user.take 20) then [] else lower (user.take 20)) =
      (if isOption (user'.take 20) then [] else lower (user'.take 20)) ↔ Clash user user' := by
  unfold Clash
  cases isOption (user.take 20) with
  | true =>
    cases isOption (user'.take 20) with
    | true => simp
    | false => simpa using (take_ne_nil h').symm
  | false =>
    cases isOption (user'.take 20) with
    | true => simpa using take_ne_nil h
    | false => simp

theorem mapsDomain_iff (t : Tools) (x : Text) : MapsDomain t x ↔ (Occurs x → ∃ user, Identity x user) := by
  rw [MapsDomain, custom_mapping, Option.isSome_map, rematch_isSome_iff]

theorem separates_iff (t : Tools) (x y : Text) : Separates t x y ↔
    ∀ user user', Identity x user → Identity y user' → lower user ≠ lower user' → ¬ Clash user user' := by
  unfold Separates
  refine forall_congr' fun user => forall_congr' fun user' => forall_congr' fun hx => forall_congr' fun hy =>
    forall_congr' fun _ => ?_
  rw [custom_mapping_identity t hx, custom_mapping_identity t hy, ← account_eq_iff hx.2.1 hy.2.1]
  constructor
  · exact fun h => h _ _ rfl rfl
  · rintro h _ _ ha hb rfl
    exact h (Option.some.inj (ha.trans hb.symm))

/-- Identities are mapped as they should when those with a match are identities of
the domain, and no two different users clash. -/
theorem mapping_iff (t : Tools) (x y : Text) : Maps t x y ↔
    (Occurs x → ∃ user, Identity x user) ∧ (Occurs y → ∃ user, Identity y user) ∧
    ∀ user user', Identity x user → Identity y user' → lower user ≠ lower user' → ¬ Clash user user' :=
  and_congr (mapsDomain_iff t x) (and_congr (mapsDomain_iff t y) (separates_iff t x y))

/-- `a%40domain.com.b`, of another domain. -/
def foreign : Text := 'a' :: (domain ++ ['.', 'b'])

/-- It gets the account `a`. -/
theorem not_maps_foreign : ¬ Maps tools foreign foreign := by
  intro hmaps
  have hoccurs : Occurs foreign := ⟨[], 'a', domain, ['.', 'b'], rfl, by decide, agrees_self domain⟩
  obtain ⟨user, hx, -⟩ := ((mapping_iff tools foreign foreign).1 hmaps).1 hoccurs
  have hlast := congrArg List.getLast? hx
  rw [List.getLast?_append_of_ne_nil _ (by decide)] at hlast
  exact absurd hlast (by decide)

end AzHop.IdentityMapping
