import AzHop.BicepReads
import AzHop.Lib.Words
/-!
# The names of the passwords in the Key Vault

The password of an account is the secret `<account>-password`. Key Vault takes
letters, digits and dashes in a name, so the scripts and some of the playbooks
delete every other character of the account first; `azhop.bicep`, `build.sh`
and the other playbooks use the account as it is. `secrets_agree_iff` says for
which accounts the name a password is stored under is the one its readers ask
for.

Names are lists of characters. A word of a name that is also a file name
pattern is taken to match no file of the working directory, so that the shell
leaves it as it is.
-/
namespace AzHop.Secrets
open Lib.Words

abbrev Text := List Char

/-- A character of `[0-9a-zA-Z-]`. -/
def allowed (c : Char) : Bool := c.isAlphanum || c = '-'

/-- `-password`. -/
def password : Text := ['-', 'p', 'a', 's', 's', 'w', 'o', 'r', 'd']

/-- A name Key Vault takes: `^[0-9a-zA-Z-]+$`. -/
def Legal (name : Text) : Prop := name ≠ [] ∧ ∀ c ∈ name, allowed c = true

/-- What the tools outside of the repository do with a text, as far as the
scripts rely on it. -/
structure Tools where
  /-- What `echo -e` prints. -/
  escapes : Text → Text
  escapes_plain : ∀ l, '\\' ∉ l → escapes l = l
  /-- The arguments Ansible makes of a part of a command line. -/
  shlex : Text → List Text
  shlex_legal : ∀ l, Legal l → shlex l = [l]

/-! ## The shell -/

/-- The blanks of the default `IFS`. -/
def isBlank (c : Char) : Bool := c = ' ' || c = '\t' || c = '\n'

/-- What `$(..)` leaves of the output of a command. -/
def substitution (output : Text) : Text := output.rdropWhile (· = '\n')

/-- A word `echo` takes for options. -/
def isOption : Text → Bool
  | '-' :: c :: flags => (c :: flags).all fun f => f = 'n' || f = 'e' || f = 'E'
  | _ => false

/-- `echo`, less the newline at the end: of the flags `e` and `E` the last one decides. -/
def echo (t : Tools) (args : List Text) : Text :=
  let flags := (args.takeWhile isOption).flatten.filter fun f => f = 'e' || f = 'E'
  let printed := List.intercalate [' '] (args.dropWhile isOption)
  if flags.getLast? = some 'e' then t.escapes printed else printed

/-- `tr -dc 'a-zA-Z0-9-'`. -/
def tr (input : Text) : Text := input.filter allowed

/-- `secret_name` of `create_passwords.sh` and of the script `get_secret`. -/
def secret_name (t : Tools) (user : Text) : Text := tr (echo t (words isBlank (user ++ password)))

/-! ## Writers -/

/-- The output of `yq eval '.users[].name'`. -/
def userNames (c : AzhopConfig) : Text := c.users.flatMap fun u => u.name.toList ++ ['\n']

/-- What `for user in $users` goes through. -/
def loopUsers (c : AzhopConfig) : List Text := words isBlank (substitution (userNames c))

/-- The names under which `create_passwords.sh` stores passwords for one user of
the list: the loop goes through the words of all names (`loopUsers_eq`). -/
def storedFor (t : Tools) (u : User) : List Text := (words isBlank u.name.toList).map (secret_name t)

/-- The name in `kvSecretAdminPassword` and in `kvSecretDBPassword`. -/
def kvSecret (account : Text) : Text := account ++ password

/-! ## Readers -/

/-- `secretname` of the playbooks that create users and of `nodearray_lookup.yml`:
`regex_replace` is mapped over the characters. -/
def secretname (user : Text) : Text := (user.flatMap fun c => if allowed c then [c] else []) ++ password

/-- `-n {{..}}` in a playbook. -/
def playbook (t : Tools) (name : Text) : List Text := t.shlex name

/-- `-n ${adminuser}-password` in `build.sh` and `install.sh`. -/
def buildSh (adminuser : Text) : List Text := words isBlank (substitution adminuser ++ password)

/-- `-n $secret_name` in the script `azhopGetSecretScript`. -/
def getSecret (t : Tools) (user : Text) : List Text := words isBlank (secret_name t user)

/-- `build.sh`, `get_secret`, `cccluster.yml` and the other playbooks that use
`admin_user` as it is, and `nodearray_lookup.yml`. -/
def adminReaders (t : Tools) (admin_user : Text) : List (List Text) :=
  [buildSh admin_user, getSecret t admin_user, playbook t (admin_user ++ password), playbook t (secretname admin_user)]

/-- `get_secret` and the tasks of the Slurm role. -/
def databaseReaders (t : Tools) (database_user : Text) : List (List Text) :=
  [getSecret t database_user, playbook t (database_user ++ password)]

/-- `get_secret`, `create_user.yml`, `create_local_user.yml` and `create_local_user_cc.yml`. -/
def userReaders (t : Tools) (user : Text) : List (List Text) := [getSecret t user, playbook t (secretname user)]

/-! ## Agreement -/

/-- The password is stored under one legal name, and each reader asks for it. -/
def Agrees (stored : List Text) (asked : List (List Text)) : Prop :=
  ∃ n, stored = [n] ∧ Legal n ∧ ∀ a ∈ asked, a = [n]

def SecretsAgree (t : Tools) (c : AzhopConfig) : Prop :=
  Agrees [kvSecret c.admin_user.toList] (adminReaders t c.admin_user.toList) ∧
  (Bicep.createsDatabase c = true →
    Agrees [kvSecret (Bicep.slurm_admin_user c).toList] (databaseReaders t (Bicep.slurm_admin_user c).toList)) ∧
  ∀ u ∈ c.users, Agrees (storedFor t u) (userReaders t u.name.toList)

/-- A name no copy has to change. -/
def Plain (name : Text) : Prop := ∀ c ∈ name, allowed c = true

/-- One word, which the shell does not take for an option of `echo` when a
blank follows it. -/
def OneWord (name : Text) : Prop := ∃ w, words isBlank name = [w] ∧ (isOption w = true → w <:+ name)

/-! ## Characters -/

theorem isBlank_of_allowed {c : Char} (h : allowed c = true) : isBlank c = false := by
  by_contra hb
  simp only [isBlank, Bool.not_eq_false, Bool.or_eq_true, decide_eq_true_eq] at hb
  rcases hb with (rfl | rfl) | rfl <;> exact absurd h (by decide)

theorem not_allowed_of_isBlank (c : Char) (h : isBlank c = true) : allowed c = false := by
  cases ha : allowed c with
  | true => rw [isBlank_of_allowed ha] at h; cases h
  | false => rfl

theorem password_allowed : ∀ c ∈ password, allowed c = true := List.all_eq_true.1 rfl

theorem password_solid : ∀ c ∈ password, isBlank c = false := fun c hc => isBlank_of_allowed (password_allowed c hc)

theorem legal_append_password {l : Text} : Legal (l ++ password) ↔ Plain l := by
  constructor
  · intro h c hc
    exact h.2 c (List.mem_append_left _ hc)
  · intro h
    refine ⟨by simp [password], fun c hc => ?_⟩
    rcases List.mem_append.1 hc with hc | hc
    · exact h c hc
    · exact password_allowed c hc

theorem plain_tr (l : Text) : Plain (tr l) := fun _ hc => (List.mem_filter.1 hc).2

theorem tr_of_plain {l : Text} (h : Plain l) : tr l = l := List.filter_eq_self.2 h

theorem tr_append (l s : Text) : tr (l ++ s) = tr l ++ tr s := List.filter_append ..

theorem tr_password : tr password = password := tr_of_plain password_allowed

/-- Deleting in the playbooks is deleting in the shell. -/
theorem secretname_eq (user : Text) : secretname user = tr user ++ password := by
  unfold secretname tr
  congr 1
  induction user with
  | nil => rfl
  | cons c user ih =>
    rw [List.flatMap_cons, ih, List.filter_cons]
    split <;> rfl

theorem substitution_of_solid {l : Text} (h : ∀ c ∈ l, isBlank c = false) : substitution l = l := by
  refine List.rdropWhile_eq_self_iff.2 fun hne hn => ?_
  have hb := h _ (List.getLast_mem hne)
  rw [of_decide_eq_true hn] at hb
  cases hb

theorem words_substitution (l : Text) : words isBlank (substitution l) = words isBlank l :=
  words_rdropWhile (fun c hc => by rw [of_decide_eq_true hc]; rfl) l

/-! ## `echo` -/

theorem isOption_cons {w : Text} (h : isOption w = true) :
    ∃ flags, w = '-' :: flags ∧ ∀ f ∈ flags, f = 'n' ∨ f = 'e' ∨ f = 'E' := by
  unfold isOption at h
  split at h
  · rename_i c flags
    refine ⟨c :: flags, rfl, fun f hf => ?_⟩
    simpa [or_assoc] using List.all_eq_true.1 h f hf
  · cases h

/-- No option of `echo` ends like a password's name. -/
theorem isOption_append_password (l : Text) : isOption (l ++ password) = false := by
  by_contra h
  obtain ⟨flags, he, hflags⟩ := isOption_cons ((Bool.not_eq_false _).mp h)
  have hd : 'd' ∈ flags := by
    have hm : 'd' ∈ '-' :: flags := he ▸ List.mem_append_right l (by decide)
    exact (List.mem_cons.1 hm).resolve_left (by decide)
  rcases hflags 'd' hd with h | h | h <;> exact absurd h (by decide)

theorem echo_single (t : Tools) (l : Text) : echo t [l ++ password] = l ++ password := by
  simp [echo, isOption_append_password]

theorem escapes_password (t : Tools) : t.escapes password = password := t.escapes_plain password (by decide)

/-- A first word that is an option is not printed. -/
theorem echo_pair (t : Tools) (w : Text) :
    echo t [w, password] = if isOption w = true then password else w ++ ' ' :: password := by
  have hp : isOption password = false := isOption_append_password []
  by_cases hw : isOption w = true
  · simp [echo, hw, hp, escapes_password, List.intercalate]
  · simp [echo, hw, List.intercalate]

/-- A word without blanks stands alone before `-password`. -/
theorem secret_name_solid (t : Tools) {w : Text} (h : ∀ c ∈ w, isBlank c = false) :
    secret_name t w = tr w ++ password := by
  have hw : words isBlank (w ++ password) = [w ++ password] := by
    refine words_solid (fun c hc => ?_) (by simp [password])
    rcases List.mem_append.1 hc with hc | hc
    · exact h c hc
    · exact password_solid c hc
  rw [secret_name, hw, echo_single, tr_append, tr_password]

theorem secret_name_plain (t : Tools) {w : Text} (h : Plain w) : secret_name t w = w ++ password := by
  rw [secret_name_solid t fun c hc => isBlank_of_allowed (h c hc), tr_of_plain h]

/-! ## The writers -/

/-- Each word of each name gets a password. -/
theorem loopUsers_eq (c : AzhopConfig) : loopUsers c = c.users.flatMap fun u => words isBlank u.name.toList := by
  have h := words_lines (show isBlank '\n' = true from rfl) (c.users.map fun u => u.name.toList)
  rw [List.flatMap_map, List.flatMap_map] at h
  rw [loopUsers, words_substitution]
  exact h

/-! ## Agreement, by account -/

theorem words_legal {l : Text} (h : Legal l) : words isBlank l = [l] :=
  words_solid (fun c hc => isBlank_of_allowed (h.2 c hc)) h.1

/-- Every reader of a plain name asks for what Bicep stored. -/
theorem readers_plain (t : Tools) {l : Text} (h : Plain l) :
    ∀ a ∈ adminReaders t l ++ databaseReaders t l, a = [kvSecret l] := by
  have hlegal : Legal (l ++ password) := legal_append_password.2 h
  have hbuild : buildSh l = [l ++ password] := by
    rw [buildSh, substitution_of_solid fun c hc => isBlank_of_allowed (h c hc), words_legal hlegal]
  have hget : getSecret t l = [l ++ password] := by
    rw [getSecret, secret_name_plain t h, words_legal hlegal]
  have hplay : playbook t (l ++ password) = [l ++ password] := t.shlex_legal _ hlegal
  have hname : secretname l = l ++ password := by rw [secretname_eq, tr_of_plain h]
  intro a ha
  simp only [adminReaders, databaseReaders, hname, hbuild, hget, hplay] at ha
  simpa [kvSecret] using ha

theorem agrees_kvSecret_iff {l : Text} {asked : List (List Text)} (h : Plain l → ∀ a ∈ asked, a = [kvSecret l]) :
    Agrees [kvSecret l] asked ↔ Plain l := by
  constructor
  · rintro ⟨n, hn, hlegal, -⟩
    rw [← (List.cons.inj hn).1] at hlegal
    exact legal_append_password.1 hlegal
  · intro hp
    exact ⟨kvSecret l, rfl, legal_append_password.2 hp, h hp⟩

theorem tr_of_words {l w : Text} (h : words isBlank l = [w]) : tr w = tr l := by
  have hf := filter_words not_allowed_of_isBlank l
  rwa [h, List.flatten_singleton] at hf

/-- The name of a user with one word is its characters Key Vault takes. -/
theorem storedFor_of_word (t : Tools) {u : User} {w : Text} (h : words isBlank u.name.toList = [w]) :
    storedFor t u = [tr u.name.toList ++ password] := by
  have hw : ∀ c ∈ w, isBlank c = false := (mem_words (l := u.name.toList) (by rw [h]; exact List.mem_singleton_self w)).2
  rw [storedFor, h, List.map_singleton, secret_name_solid t hw, tr_of_words h]

theorem option_plain {w : Text} (h : isOption w = true) : Plain w := by
  obtain ⟨flags, rfl, hflags⟩ := isOption_cons h
  intro c hc
  rcases List.mem_cons.1 hc with rfl | hc
  · rfl
  · rcases hflags c hc with rfl | rfl | rfl <;> rfl

/-- `get_secret` finds the word of a name unless `echo` swallows it. -/
theorem secret_name_of_word (t : Tools) {l w : Text} (h : words isBlank l = [w]) :
    secret_name t l = tr l ++ password ↔ (isOption w = true → w <:+ l) := by
  have hne : password ≠ [] := List.cons_ne_nil _ _
  have htr : tr w = tr l := tr_of_words h
  rcases scan_of_words h with ⟨hs, hscan⟩ | ⟨hs, hscan⟩
  · refine iff_of_true ?_ fun _ => hs
    rw [secret_name, words_append_solid l password_solid hne, hscan, List.nil_append, echo_single, tr_append, tr_password,
      htr]
  · -- a blank comes after the word, so that `-password` is a word of its own
    rw [secret_name, words_append_solid l password_solid hne, hscan, List.nil_append, List.singleton_append, echo_pair]
    by_cases ho : isOption w = true
    · rw [if_pos ho, tr_password, ← htr, tr_of_plain (option_plain ho)]
      refine iff_of_false (fun he => ?_) fun hi => hs (hi ho)
      have hw : w = [] := by
        have := congrArg List.length he
        simpa using this
      rw [hw] at ho
      cases ho
    · rw [if_neg ho]
      refine iff_of_true ?_ fun hi => absurd hi ho
      have hblank : tr (' ' :: password) = password := by decide
      rw [tr_append, hblank, htr]

theorem agrees_user_iff (t : Tools) (u : User) :
    Agrees (storedFor t u) (userReaders t u.name.toList) ↔ OneWord u.name.toList := by
  have hlegal : Legal (tr u.name.toList ++ password) := legal_append_password.2 (plain_tr _)
  constructor
  · rintro ⟨n, hn, -, hask⟩
    obtain ⟨w, hw⟩ : ∃ w, words isBlank u.name.toList = [w] := by
      have hlen := congrArg List.length hn
      rw [storedFor, List.length_map] at hlen
      exact List.length_eq_one_iff.1 hlen
    refine ⟨w, hw, (secret_name_of_word t hw).1 ?_⟩
    rw [storedFor_of_word t hw] at hn
    have hget : getSecret t u.name.toList = [n] := hask _ (by simp [userReaders])
    have hplain : Plain (secret_name t u.name.toList) := plain_tr _
    rw [(List.cons.inj hn).1]
    have hne : secret_name t u.name.toList ≠ [] := by
      intro he
      rw [getSecret, he] at hget
      cases hget
    rw [getSecret, words_legal ⟨hne, hplain⟩] at hget
    exact (List.cons.inj hget).1
  · rintro ⟨w, hw, ho⟩
    refine ⟨_, storedFor_of_word t hw, hlegal, fun a ha => ?_⟩
    have hname := (secret_name_of_word t hw).2 ho
    rcases List.mem_cons.1 ha with rfl | ha
    · rw [getSecret, hname, words_legal hlegal]
    · rw [List.mem_singleton.1 ha, playbook, secretname_eq, t.shlex_legal _ hlegal]

/-! ## Agreement, by configuration -/

/-- Writers and readers agree when the accounts Bicep stores are plain and each
user is one word. -/
theorem secrets_agree_iff (t : Tools) (c : AzhopConfig) :
    SecretsAgree t c ↔ Plain c.admin_user.toList ∧
      (Bicep.createsDatabase c = true → Plain (Bicep.slurm_admin_user c).toList) ∧
      ∀ u ∈ c.users, OneWord u.name.toList := by
  have hadmin := agrees_kvSecret_iff (l := c.admin_user.toList) fun hp a ha =>
    readers_plain t hp a (List.mem_append_left _ ha)
  have hdatabase := agrees_kvSecret_iff (l := (Bicep.slurm_admin_user c).toList) fun hp a ha =>
    readers_plain t hp a (List.mem_append_right _ ha)
  unfold SecretsAgree
  rw [hadmin, hdatabase]
  simp only [agrees_user_iff]

/-! ## The marketplace -/

/-- The `adminUser` the form of the marketplace takes: `^[a-zA-Z][a-zA-Z0-9_]{5,19}$`. -/
def adminUser : Text → Bool
  | [] => false
  | c :: l => c.isAlpha && l.all (fun d => d.isAlphanum || d = '_') && (5 ≤ l.length && l.length ≤ 19)

/-- Of the names the form takes, those with an underscore are not plain. -/
theorem plain_iff_of_adminUser {name : Text} (h : adminUser name = true) : Plain name ↔ '_' ∉ name := by
  cases name with
  | nil => cases h
  | cons c l =>
    simp only [adminUser, Bool.and_eq_true, List.all_eq_true, Bool.or_eq_true, decide_eq_true_eq] at h
    obtain ⟨⟨hc, hl⟩, -⟩ := h
    have hall : ∀ d ∈ c :: l, d.isAlphanum = true ∨ d = '_' := by
      intro d hd
      rcases List.mem_cons.1 hd with rfl | hd
      · exact Or.inl (by simp [Char.isAlphanum, hc])
      · exact hl d hd
    constructor
    · intro hp hm
      exact absurd (hp '_' hm) (by decide)
    · intro hn d hd
      rcases hall d hd with ha | rfl
      · simp [allowed, ha]
      · exact absurd hd hn

/-- Tools that see no backslash and no quote. -/
def tools : Tools where
  escapes := id
  escapes_plain _ _ := rfl
  shlex := words isBlank
  shlex_legal _ h := words_legal h

def hpcAdmin : AzhopConfig := { smallConfig with admin_user := "hpc_admin" }

/-- The administrator `hpc_admin`, which the marketplace takes: Key Vault does
not take `hpc_admin-password`, and `get_secret` asks for `hpcadmin-password`. -/
theorem hpc_admin_disagrees : adminUser hpcAdmin.admin_user.toList = true ∧
    secret_name tools hpcAdmin.admin_user.toList ≠ kvSecret hpcAdmin.admin_user.toList ∧
    ¬ SecretsAgree tools hpcAdmin := by
  have hname : hpcAdmin.admin_user.toList = ['h', 'p', 'c', '_', 'a', 'd', 'm', 'i', 'n'] := rfl
  have hform : adminUser hpcAdmin.admin_user.toList = true := by rw [hname]; decide
  have hsolid : ∀ c ∈ hpcAdmin.admin_user.toList, isBlank c = false := by
    rw [hname]
    simp [isBlank]
  have hnot : ¬ Plain hpcAdmin.admin_user.toList := by
    rw [plain_iff_of_adminUser hform, hname]
    decide
  refine ⟨hform, ?_, fun h => ?_⟩
  · rw [secret_name_solid tools hsolid, hname]
    decide
  · obtain ⟨n, hn, hlegal, -⟩ := h.1
    rw [← (List.cons.inj hn).1] at hlegal
    exact hnot (legal_append_password.1 hlegal)

end AzHop.Secrets
