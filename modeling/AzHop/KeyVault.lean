import AzHop.Secrets
/-!
# Whose password a secret holds

Deploying stores the passwords of the accounts the configuration names, and
`create_passwords.sh` generates one for each user that has no secret yet. With
`autogenerateSecrets` a script of the deployment makes the passwords, that of the
database administrator even without a database. The vault remembers for whom a
password was generated, and knows a secret by its name without regard to case.

`own_secrets` says which names keep the accounts apart, so that in every order of
these steps nobody reads the password of another account.
-/
namespace AzHop.KeyVault
open AzHop.Secrets

/-- The accounts of a deployment. -/
inductive Account
  | administrator
  | database
  | domain_join
  | user (name : Text)
  deriving DecidableEq

/-- The account that joins machines to an existing domain. With the domain of
the deployment it is the administrator. -/
def joinUser (c : AzhopConfig) : Option Text :=
  if Bicep.existingDc c then ((c.domain.bind (·.domain_join_user)).bind (·.username)).map String.toList else none

def accounts (c : AzhopConfig) : List Account :=
  .administrator :: ((if Bicep.createsDatabase c then [.database] else []) ++
    (joinUser c).toList.map (fun _ => .domain_join) ++ c.users.map fun u => .user u.name.toList)

/-- The name of an account in the configuration. -/
def account (c : AzhopConfig) : Account → Text
  | .administrator => c.admin_user.toList
  | .database => (Bicep.slurm_admin_user c).toList
  | .domain_join => (joinUser c).getD []
  | .user name => name

/-! ## The vault -/

/-- A secret as it was first named, and for whom its current version was generated. -/
structure Secret where
  name : Text
  owner : Account

/-- The identity of a name. -/
def fold (name : Text) : Text := name.map Char.toLower

/-- The secrets, by name. -/
abbrev Vault := Text → Option Secret

instance (name : Text) : Decidable (Legal name) := inferInstanceAs (Decidable (name ≠ [] ∧ ∀ c ∈ name, allowed c = true))

/-- `az keyvault secret set`: a new secret, or a new version of one. -/
def Vault.set (v : Vault) (name : Text) (owner : Account) : Vault :=
  if Legal name then
    Function.update v (fold name) (some ⟨((v (fold name)).map (·.name)).getD name, owner⟩)
  else v

/-- `az keyvault secret show`. -/
def Vault.show (v : Vault) (name : Text) : Option Secret := v (fold name)

/-- `az keyvault secret list --query "[?name=='<name>'].name"` prints something. -/
def Vault.lists (v : Vault) (name : Text) : Bool := (v.show name).any fun s => s.name = name

/-! ## Steps -/

/-- A module of the deployment, or a run of the script. -/
inductive Step
  | azhopSecrets
  | kvSecretAdminPassword
  | kvSecretDBPassword
  | kvSecretDomainJoin
  | kvSecretExistingDomainJoin
  | create_passwords
  deriving DecidableEq

/-- One round of the loop of `create_passwords.sh`. -/
def generate (t : Tools) (v : Vault) (user : Text) : Vault :=
  if v.lists (secret_name t user) then v else v.set (secret_name t user) (.user user)

def step (t : Tools) (autogenerateSecrets : Bool) (c : AzhopConfig) (v : Vault) : Step → Vault
  | .azhopSecrets =>
    if autogenerateSecrets then
      (v.set (kvSecret c.admin_user.toList) .administrator).set (kvSecret (account c .database)) .database
    else v
  | .kvSecretAdminPassword =>
    if !autogenerateSecrets then v.set (kvSecret c.admin_user.toList) .administrator else v
  | .kvSecretDBPassword =>
    if !autogenerateSecrets && Bicep.createsDatabase c then v.set (kvSecret (account c .database)) .database else v
  -- the join account is the administrator, and so is the password
  | .kvSecretDomainJoin => if Bicep.createsDc c then v.set (kvSecret c.admin_user.toList) .administrator else v
  | .kvSecretExistingDomainJoin =>
    match joinUser c with
    | some username => v.set (kvSecret username) .domain_join
    | none => v
  | .create_passwords => (loopUsers c).foldl (generate t) v

/-- The vault after deployments and runs of `create_passwords.sh`, from an empty one. -/
def run (t : Tools) (autogenerateSecrets : Bool) (c : AzhopConfig) (steps : List Step) : Vault :=
  steps.foldl (step t autogenerateSecrets c) fun _ => none

/-! ## Readers -/

/-- The name of the secret of an account. -/
def secretOf (c : AzhopConfig) : Account → Text
  | .user name => secretname name
  | x => kvSecret (account c x)

/-- The names the playbooks ask for: `nodearray_lookup.yml` deletes characters of `admin_user`. -/
def asks (c : AzhopConfig) : Account → List Text
  | .administrator => [secretOf c .administrator, secretname c.admin_user.toList]
  | x => [secretOf c x]

/-- Each account has a secret of its own. -/
def Injective (c : AzhopConfig) : Prop := ∀ x ∈ accounts c, ∀ y ∈ accounts c, x ≠ y → secretOf c x ≠ secretOf c y

/-- What is read for an account was generated for it. -/
def Safe (c : AzhopConfig) (v : Vault) : Prop :=
  ∀ x ∈ accounts c, ∀ n ∈ asks c x, ∀ s, v.show n = some s → s.owner = x

/-- Each account has a secret of its own, and after any steps what is read for it
was generated for it. -/
def OwnSecrets (t : Tools) (autogenerateSecrets : Bool) (c : AzhopConfig) : Prop :=
  Injective c ∧ ∀ steps, Safe c (run t autogenerateSecrets c steps)

/-! ## Names that stay apart -/

/-- What is left of a name in the vault: the characters Key Vault takes, without case. -/
def reduced (name : Text) : Text := fold (tr name)

/-- Those for whom a password may be generated: the accounts, the database
administrator where the deployment makes the passwords, and the words
`create_passwords.sh` makes of the users' names. -/
def owners (autogenerateSecrets : Bool) (c : AzhopConfig) : List Account :=
  accounts c ++ ((if autogenerateSecrets then [.database] else []) ++ (loopUsers c).map .user)

def Apart (autogenerateSecrets : Bool) (c : AzhopConfig) : Prop :=
  ∀ x ∈ accounts c, ∀ y ∈ owners autogenerateSecrets c, reduced (account c x) = reduced (account c y) → x = y

/-- No name has blanks or, among those Bicep stores, a character Key Vault does not take. -/
structure Ordinary (autogenerateSecrets : Bool) (c : AzhopConfig) : Prop where
  plain : ∀ x ∈ owners autogenerateSecrets c, (∀ name, x ≠ .user name) → Plain (account c x)
  words : ∀ u ∈ c.users, Lib.Words.words isBlank u.name.toList = [u.name.toList]

/-! ## Characters without case -/

theorem allowed_of_isAlpha {c : Char} (h : c.isAlpha = true) : allowed c = true := by
  simp [allowed, Char.isAlphanum, h]

theorem isAlpha_of_val {c d : Char} (hc : 65 ≤ c.val.toNat ∧ c.val.toNat ≤ 90) (hd : d.val = c.val + 32) :
    d.isAlpha = true := by
  have hval : d.val.toNat = c.val.toNat + 32 := by
    rw [hd, UInt32.toNat_add]
    have h32 : (32 : UInt32).toNat = 32 := rfl
    omega
  have hd' : 97 ≤ d.val.toNat ∧ d.val.toNat ≤ 122 := by omega
  have hlow : d.isLower = true := Bool.and_eq_true_iff.2 ⟨decide_eq_true hd'.1, decide_eq_true hd'.2⟩
  exact Bool.or_eq_true_iff.2 (.inr hlow)

theorem allowed_toLower (c : Char) : allowed c.toLower = allowed c := by
  unfold Char.toLower
  split
  · rename_i h
    have hc : c.isAlpha = true := by
      have hup : c.isUpper = true := decide_eq_true h
      exact Bool.or_eq_true_iff.2 (.inl hup)
    rw [allowed_of_isAlpha hc]
    exact allowed_of_isAlpha (isAlpha_of_val h rfl)
  · rfl

/-- Deleting characters and forgetting case commute. -/
theorem tr_fold (name : Text) : tr (fold name) = reduced name := by
  have hp : (allowed ∘ Char.toLower) = allowed := funext allowed_toLower
  rw [tr, fold, List.filter_map, hp]
  rfl

theorem reduced_append (l s : Text) : reduced (l ++ s) = reduced l ++ reduced s := by
  unfold reduced
  rw [tr_append]
  exact List.map_append

theorem reduced_password : reduced password = password := by decide

theorem reduced_tr (l : Text) : reduced (tr l) = reduced l := by
  unfold reduced
  rw [tr_of_plain (plain_tr l)]

theorem reduced_kvSecret (name : Text) : reduced (kvSecret name) = reduced name ++ password := by
  rw [kvSecret, reduced_append, reduced_password]

theorem reduced_secretname (name : Text) : reduced (secretname name) = reduced name ++ password := by
  rw [secretname_eq, reduced_append, reduced_password, reduced_tr]

theorem reduced_secretOf (c : AzhopConfig) (x : Account) : reduced (secretOf c x) = reduced (account c x) ++ password := by
  cases x with
  | user name => exact reduced_secretname name
  | administrator | database | domain_join => exact reduced_kvSecret _

theorem reduced_asks {c : AzhopConfig} {x : Account} {n : Text} (h : n ∈ asks c x) :
    reduced n = reduced (account c x) ++ password := by
  cases x with
  | administrator =>
    rcases List.mem_cons.1 h with rfl | h
    · exact reduced_secretOf c .administrator
    · rw [List.mem_singleton.1 h]
      exact reduced_secretname _
  | database | domain_join | user name =>
    rw [List.mem_singleton.1 h]
    exact reduced_secretOf c _

/-! ## What the vault holds -/

/-- Every secret is filed under the reduced name of its owner. -/
def Filed (autogenerateSecrets : Bool) (c : AzhopConfig) (v : Vault) : Prop :=
  ∀ k s, v k = some s → s.owner ∈ owners autogenerateSecrets c ∧ tr k = reduced (account c s.owner) ++ password

section
variable {autogenerateSecrets : Bool} {c : AzhopConfig} {v : Vault}

theorem filed_set (hv : Filed autogenerateSecrets c v) {name : Text} {owner : Account}
    (ho : owner ∈ owners autogenerateSecrets c) (hn : reduced name = reduced (account c owner) ++ password) :
    Filed autogenerateSecrets c (v.set name owner) := by
  unfold Vault.set
  split
  · intro k s hs
    by_cases hk : k = fold name
    · subst hk
      rw [Function.update_self, Option.some.injEq] at hs
      subst hs
      exact ⟨ho, (tr_fold name).trans hn⟩
    · rw [Function.update_of_ne hk] at hs
      exact hv k s hs
  · exact hv

theorem mem_owners {x : Account} (h : x ∈ accounts c) : x ∈ owners autogenerateSecrets c := List.mem_append_left _ h

theorem word_mem_owners {w : Text} (h : w ∈ loopUsers c) : .user w ∈ owners autogenerateSecrets c :=
  List.mem_append_right _ (List.mem_append_right _ (List.mem_map_of_mem h))

theorem administrator_mem (c : AzhopConfig) : .administrator ∈ accounts c := List.mem_cons_self

theorem database_mem (h : Bicep.createsDatabase c = true) : .database ∈ accounts c := by
  simp [accounts, h]

theorem domain_join_mem {username : Text} (h : joinUser c = some username) : .domain_join ∈ accounts c := by
  simp [accounts, h]

theorem user_mem {u : User} (h : u ∈ c.users) : .user u.name.toList ∈ accounts c := by
  refine List.mem_cons_of_mem _ (List.mem_append_right _ ?_)
  exact List.mem_map.2 ⟨u, h, rfl⟩

/-- A word of the loop has no blanks. -/
theorem loopUsers_solid {w : Text} (h : w ∈ loopUsers c) : ∀ d ∈ w, isBlank d = false :=
  (Lib.Words.mem_words h).2

theorem secret_name_loop (t : Tools) {w : Text} (h : w ∈ loopUsers c) : secret_name t w = secretname w := by
  rw [secret_name_solid t (loopUsers_solid h), secretname_eq]

theorem filed_generate (t : Tools) (hv : Filed autogenerateSecrets c v) {w : Text} (h : w ∈ loopUsers c) :
    Filed autogenerateSecrets c (generate t v w) := by
  unfold generate
  split
  · exact hv
  · refine filed_set hv (word_mem_owners h) ?_
    rw [secret_name_loop t h]
    exact reduced_secretname w

theorem filed_loop (t : Tools) {ws : List Text} (h : ∀ w ∈ ws, w ∈ loopUsers c) :
    ∀ {v : Vault}, Filed autogenerateSecrets c v → Filed autogenerateSecrets c (ws.foldl (generate t) v) := by
  induction ws with
  | nil => exact fun hv => hv
  | cons w ws ih =>
    intro v hv
    exact ih (fun x hx => h x (List.mem_cons_of_mem w hx)) (filed_generate t hv (h w List.mem_cons_self))

theorem filed_step (t : Tools) (hv : Filed autogenerateSecrets c v) (s : Step) :
    Filed autogenerateSecrets c (step t autogenerateSecrets c v s) := by
  have hadmin : Filed autogenerateSecrets c (v.set (kvSecret c.admin_user.toList) .administrator) :=
    filed_set hv (mem_owners (administrator_mem c)) (reduced_kvSecret _)
  cases s with
  | azhopSecrets =>
    simp only [step]
    split
    · rename_i h
      exact filed_set hadmin (List.mem_append_right _ (List.mem_append_left _ (by simp [h]))) (reduced_kvSecret _)
    · exact hv
  | kvSecretAdminPassword =>
    simp only [step]
    split
    · exact hadmin
    · exact hv
  | kvSecretDBPassword =>
    simp only [step]
    split
    · rename_i h
      exact filed_set hv (mem_owners (database_mem (Bool.and_eq_true_iff.1 h).2)) (reduced_kvSecret _)
    · exact hv
  | kvSecretDomainJoin =>
    simp only [step]
    split
    · exact hadmin
    · exact hv
  | kvSecretExistingDomainJoin =>
    simp only [step]
    split
    · rename_i username h
      refine filed_set hv (mem_owners (domain_join_mem h)) ?_
      rw [reduced_kvSecret, account, h, Option.getD_some]
    · exact hv
  | create_passwords => exact filed_loop t (fun _ h => h) hv

theorem filed_run (t : Tools) (autogenerateSecrets : Bool) (c : AzhopConfig) (steps : List Step) :
    Filed autogenerateSecrets c (run t autogenerateSecrets c steps) := by
  induction steps using List.reverseRecOn with
  | nil => exact fun k s h => nomatch h
  | append_singleton steps s ih =>
    unfold run at ih ⊢
    rw [List.foldl_append]
    exact filed_step t ih s

/-! ## Apart is enough -/

theorem injective_of_apart (h : Apart autogenerateSecrets c) : Injective c := by
  intro x hx y hy hne he
  have hr : reduced (account c x) ++ password = reduced (account c y) ++ password := by
    rw [← reduced_secretOf, ← reduced_secretOf, he]
  exact hne (h x hx y (mem_owners hy) (List.append_cancel_right hr))

theorem safe_of_apart (h : Apart autogenerateSecrets c) (hv : Filed autogenerateSecrets c v) : Safe c v := by
  intro x hx n hn s hs
  obtain ⟨ho, hk⟩ := hv _ s hs
  rw [tr_fold, reduced_asks hn] at hk
  exact (h x hx s.owner ho (List.append_cancel_right hk)).symm

end

/-! ## And needed -/

theorem mem_accounts {c : AzhopConfig} {x : Account} (h : x ∈ accounts c) :
    x = .administrator ∨ (x = .database ∧ Bicep.createsDatabase c = true) ∨
      (∃ username, x = .domain_join ∧ joinUser c = some username) ∨ ∃ u ∈ c.users, x = .user u.name.toList := by
  rcases List.mem_cons.1 h with rfl | h
  · exact Or.inl rfl
  refine Or.inr ?_
  rcases List.mem_append.1 h with h | h
  · rcases List.mem_append.1 h with h | h
    · by_cases hd : Bicep.createsDatabase c = true
      · rw [if_pos hd] at h
        exact Or.inl ⟨List.mem_singleton.1 h, hd⟩
      · rw [if_neg hd] at h
        cases h
    · obtain ⟨username, hu, rfl⟩ := List.mem_map.1 h
      exact Or.inr (Or.inl ⟨username, rfl, Option.mem_toList.1 hu⟩)
  · obtain ⟨u, hu, rfl⟩ := List.mem_map.1 h
    exact Or.inr (Or.inr ⟨u, hu, rfl⟩)

theorem owner_set {v : Vault} {name : Text} (h : Legal name) (owner : Account) :
    ((v.set name owner).show name).map (·.owner) = some owner := by
  unfold Vault.set Vault.show
  rw [if_pos h, Function.update_self]
  rfl

theorem show_set {v : Vault} {name : Text} (h : Legal name) (owner : Account) :
    ((v.set name owner).show name).isSome = true := by
  rw [← Option.isSome_map, owner_set h owner]
  rfl

/-- A secret that is there stays. -/
theorem isSome_set {v : Vault} {k : Text} (h : (v k).isSome = true) (name : Text) (owner : Account) :
    (v.set name owner k).isSome = true := by
  unfold Vault.set
  split
  · by_cases hk : k = fold name
    · rw [hk, Function.update_self]
      rfl
    · rw [Function.update_of_ne hk]
      exact h
  · exact h

theorem isSome_generate (t : Tools) {v : Vault} {k : Text} (h : (v k).isSome = true) (w : Text) :
    (generate t v w k).isSome = true := by
  unfold generate
  split
  · exact h
  · exact isSome_set h _ _

theorem isSome_loop (t : Tools) {ws : List Text} {k : Text} :
    ∀ {v : Vault}, (v k).isSome = true → (ws.foldl (generate t) v k).isSome = true := by
  induction ws with
  | nil => exact fun h => h
  | cons w ws ih => exact fun h => ih (isSome_generate t h w)

theorem show_generate (t : Tools) {v : Vault} {w : Text} (h : Legal (secret_name t w)) :
    ((generate t v w).show (secret_name t w)).isSome = true := by
  unfold generate
  split
  · rename_i hl
    exact Option.isSome_of_any hl
  · exact show_set h _

/-- After the loop each of its words has a secret. -/
theorem show_loop (t : Tools) {ws : List Text} {w : Text} (hw : w ∈ ws) (h : Legal (secret_name t w)) (v : Vault) :
    ((ws.foldl (generate t) v).show (secret_name t w)).isSome = true := by
  obtain ⟨before, after, rfl⟩ := List.append_of_mem hw
  rw [List.foldl_append, List.foldl_cons]
  exact isSome_loop t (show_generate t h)

theorem legal_secretname (name : Text) : Legal (secretname name) := by
  rw [secretname_eq]
  exact legal_append_password.2 (plain_tr name)

/-- What the deployment stores for the administrator and, where it stores it, for
the database administrator. -/
theorem exists_deployed (t : Tools) {autogenerateSecrets : Bool} {c : AzhopConfig} (ho : Ordinary autogenerateSecrets c)
    {x : Account} (hx : x ∈ owners autogenerateSecrets c)
    (hcase : x = .administrator ∨ x = .database ∧ (autogenerateSecrets = true ∨ Bicep.createsDatabase c = true)) :
    ∃ steps, ((run t autogenerateSecrets c steps).show (secretOf c x)).isSome = true := by
  have hlegal : (∀ name, x ≠ .user name) → Legal (kvSecret (account c x)) :=
    fun hn => legal_append_password.2 (ho.plain x hx hn)
  cases hauto : autogenerateSecrets with
  | true =>
    refine ⟨[.azhopSecrets], ?_⟩
    simp only [run, List.foldl_cons, List.foldl_nil, step, if_true]
    rcases hcase with rfl | ⟨rfl, -⟩
    · have hadmin := @show_set (fun _ => none) _ (hlegal fun _ h => nomatch h) .administrator
      exact @isSome_set _ (fold _) hadmin _ _
    · exact show_set (hlegal fun _ h => nomatch h) _
  | false =>
    rcases hcase with rfl | ⟨rfl, hdb⟩
    · refine ⟨[.kvSecretAdminPassword], ?_⟩
      simp only [run, List.foldl_cons, List.foldl_nil, step, Bool.not_false, if_true]
      exact show_set (hlegal fun _ h => nomatch h) _
    · refine ⟨[.kvSecretDBPassword], ?_⟩
      have hd : Bicep.createsDatabase c = true := hdb.resolve_left (by simp [hauto])
      simp only [run, List.foldl_cons, List.foldl_nil, step, Bool.not_false, Bool.true_and, if_pos hd]
      exact show_set (hlegal fun _ h => nomatch h) _

/-- The secret of each account exists after some run. -/
theorem exists_stored (t : Tools) {autogenerateSecrets : Bool} {c : AzhopConfig} (ho : Ordinary autogenerateSecrets c)
    {x : Account} (hx : x ∈ accounts c) :
    ∃ steps, ((run t autogenerateSecrets c steps).show (secretOf c x)).isSome = true := by
  have hlegal : (∀ name, x ≠ .user name) → Legal (kvSecret (account c x)) :=
    fun hn => legal_append_password.2 (ho.plain x (mem_owners hx) hn)
  rcases mem_accounts hx with rfl | ⟨rfl, hd⟩ | ⟨username, rfl, hj⟩ | ⟨u, hu, rfl⟩
  · exact exists_deployed t ho (mem_owners hx) (.inl rfl)
  · exact exists_deployed t ho (mem_owners hx) (.inr ⟨rfl, .inr hd⟩)
  · refine ⟨[.kvSecretExistingDomainJoin], ?_⟩
    simp only [run, List.foldl_cons, List.foldl_nil, step, hj]
    have hname : secretOf c .domain_join = kvSecret username := by simp [secretOf, account, hj]
    rw [hname]
    refine show_set ?_ _
    have := hlegal fun _ h => nomatch h
    rwa [account, hj, Option.getD_some] at this
  · refine ⟨[.create_passwords], ?_⟩
    have hw : u.name.toList ∈ loopUsers c := by
      rw [loopUsers_eq]
      exact List.mem_flatMap.2 ⟨u, hu, by rw [ho.words u hu]; exact List.mem_singleton_self _⟩
    have hname := secret_name_loop t hw
    have hshow := show_loop t hw (hname ▸ legal_secretname _) fun _ => none
    rw [hname] at hshow
    exact hshow

theorem tr_account {autogenerateSecrets : Bool} {c : AzhopConfig} (ho : Ordinary autogenerateSecrets c) {x : Account}
    (hx : x ∈ owners autogenerateSecrets c) :
    secretOf c x = tr (account c x) ++ password := by
  have hplain : (∀ name, x ≠ .user name) → kvSecret (account c x) = tr (account c x) ++ password := by
    intro hn
    rw [tr_of_plain (ho.plain x hx hn)]
    rfl
  cases x with
  | user name => exact secretname_eq name
  | administrator | database | domain_join => exact hplain fun _ h => nomatch h

theorem secretOf_mem_asks (c : AzhopConfig) (x : Account) : secretOf c x ∈ asks c x := by
  cases x <;> exact List.mem_cons_self

/-- The owners are the accounts and the database administrator. -/
theorem mem_owners_cases {autogenerateSecrets : Bool} {c : AzhopConfig} (ho : Ordinary autogenerateSecrets c) {y : Account}
    (hy : y ∈ owners autogenerateSecrets c) : y ∈ accounts c ∨ y = .database ∧ autogenerateSecrets = true := by
  rcases List.mem_append.1 hy with hy | hy
  · exact .inl hy
  rcases List.mem_append.1 hy with hy | hy
  · cases autogenerateSecrets with
    | true => exact .inr ⟨List.mem_singleton.1 hy, rfl⟩
    | false => cases hy
  · obtain ⟨w, hw, rfl⟩ := List.mem_map.1 hy
    rw [loopUsers_eq] at hw
    obtain ⟨u, hu, hw⟩ := List.mem_flatMap.1 hw
    rw [ho.words u hu, List.mem_singleton] at hw
    exact .inl (hw ▸ user_mem hu)

/-- With ordinary names, two accounts that meet in the vault cannot both be
safe once one of them has a password. -/
theorem apart_of_safe (t : Tools) {autogenerateSecrets : Bool} {c : AzhopConfig} (ho : Ordinary autogenerateSecrets c)
    (h : ∀ steps, Safe c (run t autogenerateSecrets c steps)) : Apart autogenerateSecrets c := by
  intro x hx y hy he
  have hfold : fold (secretOf c x) = fold (secretOf c y) := by
    have hsplit : ∀ l : Text, fold (tr l ++ password) = reduced l ++ fold password := fun l => List.map_append
    rw [tr_account ho (mem_owners hx), tr_account ho hy, hsplit, hsplit, he]
  have hsame : ∀ v : Vault, v.show (secretOf c x) = v.show (secretOf c y) := fun v => by
    unfold Vault.show
    rw [hfold]
  rcases mem_owners_cases ho hy with hy' | ⟨rfl, hauto⟩
  · obtain ⟨steps, hs⟩ := exists_stored t ho hx
    obtain ⟨s, hs⟩ := Option.isSome_iff_exists.1 hs
    exact (h steps x hx _ (secretOf_mem_asks c x) s hs).symm.trans
      (h steps y hy' _ (secretOf_mem_asks c y) s ((hsame _).symm.trans hs))
  · -- what the deployment stores for the database administrator is read for `x`
    subst hauto
    have hlegal : Legal (secretOf c .database) := legal_append_password.2 (ho.plain _ hy fun _ h => nomatch h)
    have howner : ((run t true c [.azhopSecrets]).show (secretOf c .database)).map (·.owner) = some .database :=
      owner_set hlegal .database
    rw [← hsame] at howner
    obtain ⟨s, hs, hs'⟩ := Option.map_eq_some_iff.1 howner
    exact (h _ x hx _ (secretOf_mem_asks c x) s hs).symm.trans hs'

/-- Accounts whose names stay apart keep their passwords to themselves in every
run; with ordinary names no others do. -/
theorem own_secrets (t : Tools) (autogenerateSecrets : Bool) (c : AzhopConfig) :
    (Apart autogenerateSecrets c → OwnSecrets t autogenerateSecrets c) ∧
      (Ordinary autogenerateSecrets c → OwnSecrets t autogenerateSecrets c → Apart autogenerateSecrets c) :=
  ⟨fun h => ⟨injective_of_apart h, fun steps => safe_of_apart h (filed_run t autogenerateSecrets c steps)⟩,
    fun ho h => apart_of_safe t ho h.2⟩

def withUsers (names : List String) : AzhopConfig :=
  { smallConfig with users := names.map fun name => { name, uid := 10001 } }

theorem own_secrets_two_users : OwnSecrets tools false (withUsers ["clusteradmin", "clusteruser"]) := by
  refine (own_secrets tools false (withUsers ["clusteradmin", "clusteruser"])).1 ?_
  have hacc : accounts (withUsers ["clusteradmin", "clusteruser"]) =
      [.administrator, .user "clusteradmin".toList, .user "clusteruser".toList] := rfl
  have hloop : loopUsers (withUsers ["clusteradmin", "clusteruser"]) =
      ["clusteradmin".toList, "clusteruser".toList] := rfl
  unfold Apart owners
  rw [hacc, hloop]
  decide

/-- Of two users who ask for the same secret, the second one finds the first one's. -/
theorem show_generate_generate {t : Tools} {u w n : Text} (hu : secret_name t u = n) (hw : secret_name t w = n)
    (hn : Legal n) : (generate t (generate t (fun _ => none) u) w).show n = some ⟨n, .user u⟩ := by
  have hfirst : generate t (fun _ => none) u = Function.update (fun _ => none) (fold n) (some ⟨n, .user u⟩) := by
    unfold generate Vault.lists Vault.show Vault.set
    rw [hu, if_pos hn]
    rfl
  rw [hfirst]
  unfold generate Vault.lists Vault.show
  simp [hw]

theorem john_doe_asked : secret_name tools "john.doe".toList = secretname "johndoe".toList ∧
    secret_name tools "johndoe".toList = secretname "johndoe".toList := by
  decide

/-- The users `john.doe` and `johndoe`, in this order: the second one gets no
password, and reads the first one's. -/
theorem john_doe_shared : ((withUsers ["john.doe", "johndoe"]).users.map (·.name)).Nodup ∧
    ((run tools false (withUsers ["john.doe", "johndoe"]) [.create_passwords]).show (secretname "johndoe".toList)).map (·.owner) =
      some (.user "john.doe".toList) ∧
    ¬ OwnSecrets tools false (withUsers ["john.doe", "johndoe"]) := by
  have hname : secretname "john.doe".toList = secretname "johndoe".toList := by decide
  have hloop : loopUsers (withUsers ["john.doe", "johndoe"]) = ["john.doe".toList, "johndoe".toList] := rfl
  have hshow : (run tools false (withUsers ["john.doe", "johndoe"]) [.create_passwords]).show (secretname "johndoe".toList) =
      some ⟨secretname "johndoe".toList, .user "john.doe".toList⟩ := by
    unfold run
    rw [List.foldl_cons, List.foldl_nil, step, hloop, List.foldl_cons, List.foldl_cons, List.foldl_nil]
    exact show_generate_generate john_doe_asked.1 john_doe_asked.2 (legal_secretname _)
  refine ⟨by decide, by rw [hshow]; rfl, fun h => ?_⟩
  have hmem : ∀ u ∈ (withUsers ["john.doe", "johndoe"]).users,
      Account.user u.name.toList ∈ accounts (withUsers ["john.doe", "johndoe"]) := fun u hu => user_mem hu
  exact h.1 _ (hmem _ List.mem_cons_self) _ (hmem _ (List.mem_cons_of_mem _ List.mem_cons_self)) (by decide) hname

end AzHop.KeyVault
