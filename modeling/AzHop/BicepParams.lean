import AzHop.Lib.JsonEdit
import Mathlib.Data.List.DropRight
/-!
# The Bicep parameters file

`bicep_init` of `build.sh` edits `<resource_group>.parameters.json` in place
and fills in the secrets an earlier run may have left there. From a deployer it
first replaces every `jumpbox` of the file's text by `deployer`.

`completes_iff` says for which files the four secrets end up set, the stored
ones unchanged and a second run without effect. `renamesOnly_iff` says for
which files the replacement is the renaming of the section.
-/
namespace AzHop.BicepParams
open Lib.Json Lib.Replace

abbrev Text := List Char

/-! ## The script -/

/-- `AZHOP_FROM`. -/
inductive AzhopFrom
  | from_local
  | from_deployer
deriving DecidableEq

def jumpbox : Text := ['j', 'u', 'm', 'p', 'b', 'o', 'x']
def deployer : Text := ['d', 'e', 'p', 'l', 'o', 'y', 'e', 'r']
def parameters : Text :=
  ['p', 'a', 'r', 'a', 'm', 'e', 't', 'e', 'r', 's']
def value : Text :=
  ['v', 'a', 'l', 'u', 'e']
def loggedUserObjectId : Text :=
  ['l', 'o', 'g', 'g', 'e', 'd', 'U', 's', 'e', 'r', 'O', 'b', 'j', 'e', 'c', 't', 'I', 'd']
def autogenerateSecrets : Text :=
  ['a', 'u', 't', 'o', 'g', 'e', 'n', 'e', 'r', 'a', 't', 'e', 'S', 'e', 'c', 'r', 'e', 't', 's']
def branchName : Text :=
  ['b', 'r', 'a', 'n', 'c', 'h', 'N', 'a', 'm', 'e']
def azhopConfig : Text :=
  ['a', 'z', 'h', 'o', 'p', 'C', 'o', 'n', 'f', 'i', 'g']
def key_vault_readers : Text :=
  ['k', 'e', 'y', '_', 'v', 'a', 'u', 'l', 't', '_', 'r', 'e', 'a', 'd', 'e', 'r', 's']
def adminPassword : Text :=
  ['a', 'd', 'm', 'i', 'n', 'P', 'a', 's', 's', 'w', 'o', 'r', 'd']
def databaseAdminPassword : Text :=
  ['d', 'a', 't', 'a', 'b', 'a', 's', 'e', 'A', 'd', 'm', 'i', 'n', 'P', 'a', 's', 's', 'w', 'o', 'r', 'd']
def adminSshPublicKey : Text :=
  ['a', 'd', 'm', 'i', 'n', 'S', 's', 'h', 'P', 'u', 'b', 'l', 'i', 'c', 'K', 'e', 'y']
def adminSshPrivateKey : Text :=
  ['a', 'd', 'm', 'i', 'n', 'S', 's', 'h', 'P', 'r', 'i', 'v', 'a', 't', 'e', 'K', 'e', 'y']

/-- `.parameters.NAME.value` -/
def param (name : Text) : List Text := [parameters, name, value]

/-- `$(...)`: without NUL characters and the newlines at the end. -/
def substitute (output : Text) : Text := (output.filter (· ≠ '\x00')).rdropWhile (· = '\n')

/-- What `jq -r` prints. -/
def raw : Value → Text
  | .string s => s
  | v => pretty 0 v

/-- `[ "$(jq -r ...)" == "null" ]` -/
def reads_null (v : Value) : Bool := substitute (raw v) = ['n', 'u', 'l', 'l']

/-- `jq PATH FILE` -/
def jq (path : List Text) (file : Text) : Option Value := (read file).bind (getpath · path)

/-- `jq EDIT FILE > TMP` and `cp TMP FILE`. -/
def jq_edit (path : List Text) (v : Value) (file : Text) : Option Text :=
  ((read file).bind (setpath · path v)).map write

/-- The text as a value: booleans are no strings. -/
def paramValue (v : Text) : Value :=
  if v = "true".toList ∨ v = "True".toList then .bool true
  else if v = "false".toList ∨ v = "False".toList then .bool false
  else .string v

def set_bicep_param_value (path : List Text) (v file : Text) : Option Text := jq_edit path (paramValue v) file

def set_bicep_azhopconfig (config_json file : Text) : Option Text :=
  (read config_json).bind (jq_edit (param azhopConfig) · file)

/-- `$(openssl rand -base64 24)` -/
structure Password where
  text : Text
  length_eq : text.length = 32
  base64 : ∀ c ∈ text, c.isAlphanum = true ∨ c = '+' ∨ c = '/'

/-- The key files of the admin user, in `AZHOP_ROOT`. -/
structure Keys where
  id_rsa : Option Text
  id_rsa_pub : Option Text

/-- What a run meets: how it was started, the signed-in user, the git branch,
the configuration as JSON, and what its random generators give. -/
structure Env where
  azhop_from : AzhopFrom
  logged_user_objectId : Text
  branch : Text
  config_json : Text
  admin_rand : Password
  database_rand : Password
  ssh_keygen : Text × Text

/-- `$(cat file)`. -/
def cat (file : Option Text) : Text := substitute (file.getD [])

/-- A step of the script under an `if`. -/
def when (c : Bool) (step : Text → Option Text) (file : Text) : Option Text := if c then step file else some file

def param_json : Text := write (.object [
  ("$schema".toList,
    .string "https://schema.management.azure.com/schemas/2015-01-01/deploymentParameters.json#".toList),
  ("contentVersion".toList, .string "1.0.0.0".toList),
  (parameters, .object [
    (autogenerateSecrets, .object [(value, .bool true)]),
    (loggedUserObjectId, .object [(value, .string [])]),
    (branchName, .object [(value, .string "main".toList)])])])

/-- The parameters that do not depend on what the file has. -/
def prepare (env : Env) (file : Text) : Option Text := do
  let file ← when (env.azhop_from = .from_local)
    (set_bicep_param_value (param loggedUserObjectId) env.logged_user_objectId) file
  let file ← set_bicep_param_value (param autogenerateSecrets) "false".toList file
  let file ← set_bicep_param_value (param branchName) env.branch file
  set_bicep_azhopconfig env.config_json file

/-- `sed -i 's/jumpbox/deployer/g'` -/
def rename : Text → Text := replaceAll jumpbox deployer

def deployer_branch (env : Env) : Text → Option Text :=
  when (env.azhop_from = .from_deployer) fun file =>
    set_bicep_param_value (param azhopConfig ++ [key_vault_readers]) env.logged_user_objectId (rename file)

def fill_passwords (env : Env) (file : Text) : Option Text := do
  let admin ← jq (param adminPassword) file
  let file ← when (reads_null admin) (set_bicep_param_value (param adminPassword) env.admin_rand.text) file
  let _database ← jq (param databaseAdminPassword) file
  -- the test of the first password again
  when (reads_null admin) (set_bicep_param_value (param databaseAdminPassword) env.database_rand.text) file

/-- `ssh-keygen` where there is no key. -/
def keygen (env : Env) (keys : Keys) : Keys :=
  if keys.id_rsa.isNone then ⟨some env.ssh_keygen.1, some env.ssh_keygen.2⟩ else keys

def fill_keys (env : Env) (keys : Keys) (file : Text) : Option (Text × Keys) := do
  let public_key ← jq (param adminSshPublicKey) file
  if reads_null public_key then
    let keys := keygen env keys
    let file ← set_bicep_param_value (param adminSshPublicKey) (cat keys.id_rsa_pub) file
    let file ← set_bicep_param_value (param adminSshPrivateKey) (cat keys.id_rsa) file
    return (file, keys)
  else return (file, keys)

/-- The file and the keys it leaves; `none` where a command fails. -/
def bicep_init (env : Env) (keys : Keys) (file : Option Text) : Option (Text × Keys) := do
  let file ← prepare env (file.getD param_json)
  let file ← deployer_branch env file
  let file ← fill_passwords env file
  fill_keys env keys file

/-! ## What an edit changes -/

/-- The parameters `bicep_init` reads or sets. -/
def used : List Text :=
  [loggedUserObjectId, autogenerateSecrets, branchName, azhopConfig, adminPassword, databaseAdminPassword,
    adminSshPublicKey, adminSshPrivateKey]

/-- A parameters file: every parameter is an object with a value, or missing. -/
def IsParams (file : Text) : Prop := ∀ name ∈ used, (jq (param name) file).isSome

/-- A configuration file is a mapping. -/
def IsConfig (config_json : Text) (config : Members) : Prop := read config_json = some (.object config)

theorem jq_edit_spec {path : List Text} {file : Text} (h : (jq path file).isSome) {v : Value} (hv : WellFormed v) :
    ∃ doc doc', read file = some doc ∧ setpath doc path v = some doc' ∧ WellFormed doc' ∧
      jq_edit path v file = some (write doc') := by
  cases hdoc : read file with
  | none => simp [jq, hdoc] at h
  | some doc =>
    have hset : (setpath doc path v).isSome := by
      rw [setpath_isSome]
      simpa [jq, hdoc] using h
    obtain ⟨doc', hdoc'⟩ := Option.isSome_iff_exists.1 hset
    refine ⟨doc, doc', rfl, hdoc', wellFormed_setpath (wellFormed_of_read hdoc) hv hdoc', ?_⟩
    simp [jq_edit, hdoc, hdoc']

theorem jq_write {doc : Value} (h : WellFormed doc) (path : List Text) : jq path (write doc) = getpath doc path := by
  rw [jq, read_write h]
  rfl

/-- What an edit of one parameter leaves: the others as they were. -/
structure Edited (name : Text) (v : Value) (file file' : Text) : Prop where
  same : jq (param name) file' = some v
  other : ∀ other, other ≠ name → jq (param other) file' = jq (param other) file
  written : ∃ doc, WellFormed doc ∧ file' = write doc

theorem edit_param {name : Text} {file : Text} (h : (jq (param name) file).isSome) {v : Value} (hv : WellFormed v) :
    ∃ file', jq_edit (param name) v file = some file' ∧ Edited name v file file' := by
  obtain ⟨doc, doc', hdoc, hset, hwf, hedit⟩ := jq_edit_spec h hv
  refine ⟨write doc', hedit, ?_, fun other hne => ?_, doc', hwf, rfl⟩
  · rw [jq_write hwf]
    exact getpath_setpath hset
  · rw [jq_write hwf, jq, hdoc]
    exact getpath_setpath_of_ne (Ne.symm hne) [parameters] [value] [value] hset

theorem Edited.isParams {file file' : Text} {name : Text} {v : Value} (h : Edited name v file file')
    (hfile : IsParams file) : IsParams file' := by
  intro other ho
  by_cases hne : other = name
  · rw [hne, h.same]
    rfl
  · rw [h.other other hne]
    exact hfile other ho

theorem wellFormed_paramValue (v : Text) : WellFormed (paramValue v) := by
  unfold paramValue
  split
  · exact wellFormed_bool true
  · split
    · exact wellFormed_bool false
    · exact wellFormed_string v

theorem paramValue_ne_null (v : Text) : paramValue v ≠ .null := by
  unfold paramValue
  split
  · exact fun h => by cases h
  · split <;> exact fun h => by cases h

/-- An edit that a test may skip. -/
theorem when_param {file : Text} (hfile : IsParams file) (name : Text) (hname : name ∈ used) (c : Bool) (v : Text) :
    ∃ file', when c (set_bicep_param_value (param name) v) file = some file' ∧ IsParams file' ∧
      (jq (param name) file' = if c then some (paramValue v) else jq (param name) file) ∧
      ∀ other, other ≠ name → jq (param other) file' = jq (param other) file := by
  cases c with
  | false => exact ⟨file, rfl, hfile, rfl, fun _ _ => rfl⟩
  | true =>
    obtain ⟨file', hedit, h⟩ := edit_param (hfile name hname) (wellFormed_paramValue v)
    exact ⟨file', hedit, h.isParams hfile, h.same, h.other⟩

/-- The parameters every run sets. -/
def replaced : List Text := [loggedUserObjectId, autogenerateSecrets, branchName, azhopConfig]

theorem prepare_spec {env : Env} {config : Members} (hconfig : IsConfig env.config_json config) {file : Text}
    (hfile : IsParams file) : ∃ file', prepare env file = some file' ∧ IsParams file' ∧
      (∃ doc, WellFormed doc ∧ file' = write doc) ∧ jq (param azhopConfig) file' = some (.object config) ∧
      ∀ name, name ∉ replaced → jq (param name) file' = jq (param name) file := by
  obtain ⟨file₁, h₁, hfile₁, -, hother₁⟩ := when_param hfile loggedUserObjectId (by decide)
    (env.azhop_from = .from_local) env.logged_user_objectId
  obtain ⟨file₂, h₂, hedited₂⟩ := edit_param (hfile₁ autogenerateSecrets (by decide)) (wellFormed_paramValue "false".toList)
  have hfile₂ := hedited₂.isParams hfile₁
  obtain ⟨file₃, h₃, hedited₃⟩ := edit_param (hfile₂ branchName (by decide)) (wellFormed_paramValue env.branch)
  have hfile₃ := hedited₃.isParams hfile₂
  obtain ⟨file₄, h₄, hedited₄⟩ := edit_param (hfile₃ azhopConfig (by decide)) (wellFormed_of_read hconfig)
  refine ⟨file₄, ?_, hedited₄.isParams hfile₃, hedited₄.written, hedited₄.same, fun name hname => ?_⟩
  · have h₄ : set_bicep_azhopconfig env.config_json file₃ = some file₄ := by
      rw [set_bicep_azhopconfig, hconfig]
      exact h₄
    simp only [prepare, Option.bind_eq_bind, h₁, Option.bind_some, set_bicep_param_value, h₂, h₃, h₄]
  · simp only [replaced, List.mem_cons, List.not_mem_nil, or_false, not_or] at hname
    obtain ⟨hl, ha, hb, hc⟩ := hname
    rw [hedited₄.other name hc, hedited₃.other name hb, hedited₂.other name ha, hother₁ name hl]

/-! ## The replacement in the file -/

theorem plain_rename : Plain 'j' ['u', 'm', 'p', 'b', 'o', 'x'] deployer where
  first := by decide
  pattern := by decide
  replacement := by decide

theorem read_rename {doc : Value} (h : WellFormed doc) :
    read (rename (write doc)) = some (dedup (mapStrings rename doc)) := plain_rename.read_replaceAll h.spelled

theorem rename_eq_self_iff (s : Text) : rename s = s ↔ ¬jumpbox <:+: s :=
  replaceAll_eq_self_iff (by decide) (by decide) s

/-- The keys on the paths of the script. -/
def script_keys : List Text := used ++ [parameters, value, key_vault_readers]

theorem rename_eq_iff {k : Text} (hk : k ∈ script_keys) (k' : Text) : rename k' = k ↔ k' = k := by
  have hkeys : ∀ k ∈ script_keys, ¬jumpbox <:+: k ∧ ¬deployer <:+: k := by decide
  exact replaceAll_eq_iff (by decide) (hkeys k hk).1 (hkeys k hk).2 k'

/-- What becomes of a stored value. -/
def edit (azhop_from : AzhopFrom) (v : Value) : Value :=
  if azhop_from = .from_deployer then dedup (mapStrings rename v) else v

theorem param_keys {name : Text} (h : name ∈ used) : ∀ k ∈ param name, k ∈ script_keys := by
  have hall : ∀ name ∈ used, ∀ k ∈ param name, k ∈ script_keys := by decide
  exact hall name h

theorem jq_rename {doc : Value} (h : WellFormed doc) (name : Text) (hname : name ∈ used) :
    jq (param name) (rename (write doc)) = (jq (param name) (write doc)).map fun v => dedup (mapStrings rename v) := by
  rw [jq_write h, jq, read_rename h]
  exact getpath_dedup_mapStrings h fun k hk => rename_eq_iff (param_keys hname k hk)

theorem renamed_spec {env : Env} (hfrom : env.azhop_from = .from_deployer) {doc : Value} (hwf : WellFormed doc)
    {config : Members} (hconfig : jq (param azhopConfig) (write doc) = some (.object config)) :
    ∃ doc', deployer_branch env (write doc) = some (write doc') ∧ WellFormed doc' ∧
      setpath (dedup (mapStrings rename doc)) (param azhopConfig ++ [key_vault_readers])
        (paramValue env.logged_user_objectId) = some doc' := by
  have hfile := jq_rename hwf azhopConfig (by decide)
  rw [hconfig, Option.map_some, mapStrings, dedup] at hfile
  have hreaders : (jq (param azhopConfig ++ [key_vault_readers]) (rename (write doc))).isSome := by
    rw [jq, read_rename hwf] at hfile ⊢
    rw [Option.bind_some] at hfile ⊢
    rw [getpath_append, hfile]
    rfl
  obtain ⟨doc₁, doc', hdoc₁, hset, hwf', hedit⟩ := jq_edit_spec hreaders (wellFormed_paramValue env.logged_user_objectId)
  rw [read_rename hwf] at hdoc₁
  cases hdoc₁
  refine ⟨doc', ?_, hwf', hset⟩
  rw [deployer_branch, when, if_pos (decide_eq_true hfrom)]
  exact hedit

theorem deployer_branch_spec {env : Env} {doc : Value} (hwf : WellFormed doc) (hfile : IsParams (write doc))
    {config : Members} (hconfig : jq (param azhopConfig) (write doc) = some (.object config)) :
    ∃ file', deployer_branch env (write doc) = some file' ∧ IsParams file' ∧
      ∀ name ∈ used, name ≠ azhopConfig →
        jq (param name) file' = (jq (param name) (write doc)).map (edit env.azhop_from) := by
  by_cases hfrom : env.azhop_from = .from_deployer
  · obtain ⟨doc', hbranch, hwf', hset⟩ := renamed_spec hfrom hwf hconfig
    have hother : ∀ name ∈ used, name ≠ azhopConfig →
        jq (param name) (write doc') = (jq (param name) (write doc)).map (edit env.azhop_from) := by
      intro name hname hne
      have hedit : edit env.azhop_from = fun v => dedup (mapStrings rename v) := by
        funext v
        rw [edit, if_pos hfrom]
      rw [hedit, ← jq_rename hwf name hname, jq_write hwf', jq, read_rename hwf]
      exact getpath_setpath_of_ne (Ne.symm hne) [parameters] [value, key_vault_readers] [value] hset
    refine ⟨write doc', hbranch, fun name hname => ?_, hother⟩
    by_cases hne : name = azhopConfig
    · have hazhop : (getpath doc' (param azhopConfig)).isSome := by
        have := getpath_setpath hset
        rw [getpath_append] at this
        obtain ⟨c, hc, -⟩ := Option.bind_eq_some_iff.1 this
        rw [hc]
        rfl
      rw [hne, jq_write hwf']
      exact hazhop
    · rw [hother name hname hne, Option.isSome_map]
      exact hfile name hname
  · refine ⟨write doc, ?_, hfile, fun name _ _ => ?_⟩
    · rw [deployer_branch, when, if_neg (by simpa using hfrom)]
    · have hedit : edit env.azhop_from = id := by
        funext v
        exact if_neg hfrom
      rw [hedit, Option.map_id]
      rfl

/-! ## The secrets -/

/-- The four secrets of the file. -/
@[ext]
structure Secrets where
  adminPassword : Value
  databaseAdminPassword : Value
  adminSshPublicKey : Value
  adminSshPrivateKey : Value

/-- The secrets a file has; `null` is one it does not have. -/
structure Stores (file : Text) (s : Secrets) : Prop where
  adminPassword : jq (param adminPassword) file = some s.adminPassword
  databaseAdminPassword : jq (param databaseAdminPassword) file = some s.databaseAdminPassword
  adminSshPublicKey : jq (param adminSshPublicKey) file = some s.adminSshPublicKey
  adminSshPrivateKey : jq (param adminSshPrivateKey) file = some s.adminSshPrivateKey

def Secrets.map (f : Value → Value) (s : Secrets) : Secrets :=
  ⟨f s.adminPassword, f s.databaseAdminPassword, f s.adminSshPublicKey, f s.adminSshPrivateKey⟩

/-- The secrets after the four tests. -/
def Secrets.fill (env : Env) (keys : Keys) (s : Secrets) : Secrets :=
  let admin := reads_null s.adminPassword
  let key := reads_null s.adminSshPublicKey
  { adminPassword := if admin then paramValue env.admin_rand.text else s.adminPassword
    databaseAdminPassword := if admin then paramValue env.database_rand.text else s.databaseAdminPassword
    adminSshPublicKey := if key then paramValue (cat (keygen env keys).id_rsa_pub) else s.adminSshPublicKey
    adminSshPrivateKey := if key then paramValue (cat (keygen env keys).id_rsa) else s.adminSshPrivateKey }

def keys_after (env : Env) (keys : Keys) (s : Secrets) : Keys :=
  if reads_null s.adminSshPublicKey then keygen env keys else keys

theorem Stores.unique {file : Text} {s t : Secrets} (hs : Stores file s) (ht : Stores file t) : s = t := by
  apply Secrets.ext
  · exact Option.some.inj (hs.adminPassword.symm.trans ht.adminPassword)
  · exact Option.some.inj (hs.databaseAdminPassword.symm.trans ht.databaseAdminPassword)
  · exact Option.some.inj (hs.adminSshPublicKey.symm.trans ht.adminSshPublicKey)
  · exact Option.some.inj (hs.adminSshPrivateKey.symm.trans ht.adminSshPrivateKey)

/-- A step that changes a parameter of its own kind only. -/
theorem Stores.of_map {file file' : Text} {s : Secrets} (h : Stores file s) (f : Value → Value)
    (hfile : ∀ name ∈ used, name ∉ replaced → jq (param name) file' = (jq (param name) file).map f) :
    Stores file' (s.map f) where
  adminPassword := by
    rw [hfile _ (by decide) (by decide), h.adminPassword]
    rfl
  databaseAdminPassword := by
    rw [hfile _ (by decide) (by decide), h.databaseAdminPassword]
    rfl
  adminSshPublicKey := by
    rw [hfile _ (by decide) (by decide), h.adminSshPublicKey]
    rfl
  adminSshPrivateKey := by
    rw [hfile _ (by decide) (by decide), h.adminSshPrivateKey]
    rfl

theorem fill_passwords_spec (env : Env) (keys : Keys) {file : Text} (hfile : IsParams file) {s : Secrets}
    (hs : Stores file s) : ∃ file', fill_passwords env file = some file' ∧ IsParams file' ∧
      Stores file' { s with
        adminPassword := (s.fill env keys).adminPassword
        databaseAdminPassword := (s.fill env keys).databaseAdminPassword } ∧
      jq (param azhopConfig) file' = jq (param azhopConfig) file := by
  obtain ⟨file₁, h₁, hfile₁, hsame₁, hother₁⟩ := when_param hfile adminPassword (by decide)
    (reads_null s.adminPassword) env.admin_rand.text
  obtain ⟨file₂, h₂, hfile₂, hsame₂, hother₂⟩ := when_param hfile₁ databaseAdminPassword (by decide)
    (reads_null s.adminPassword) env.database_rand.text
  have hdatabase : jq (param databaseAdminPassword) file₁ = some s.databaseAdminPassword := by
    rw [hother₁ _ (by decide), hs.databaseAdminPassword]
  refine ⟨file₂, ?_, hfile₂, ⟨?_, ?_, ?_, ?_⟩, ?_⟩
  · simp only [fill_passwords, Option.bind_eq_bind, hs.adminPassword, Option.bind_some, h₁, hdatabase, h₂]
  · rw [hother₂ _ (by decide), hsame₁, hs.adminPassword, Secrets.fill]
    split <;> rfl
  · rw [hsame₂, hdatabase, Secrets.fill]
    split <;> rfl
  · rw [hother₂ _ (by decide), hother₁ _ (by decide), hs.adminSshPublicKey]
  · rw [hother₂ _ (by decide), hother₁ _ (by decide), hs.adminSshPrivateKey]
  · rw [hother₂ _ (by decide), hother₁ _ (by decide)]

theorem fill_keys_spec (env : Env) (keys : Keys) {file : Text} (hfile : IsParams file) {s : Secrets}
    (hs : Stores file s) : ∃ file', fill_keys env keys file = some (file', keys_after env keys s) ∧ IsParams file' ∧
      Stores file' { s with
        adminSshPublicKey := (s.fill env keys).adminSshPublicKey
        adminSshPrivateKey := (s.fill env keys).adminSshPrivateKey } ∧
      jq (param azhopConfig) file' = jq (param azhopConfig) file := by
  by_cases hkey : reads_null s.adminSshPublicKey
  · obtain ⟨file₁, h₁, hedited₁⟩ := edit_param (hfile adminSshPublicKey (by decide))
      (wellFormed_paramValue (cat (keygen env keys).id_rsa_pub))
    have hfile₁ := hedited₁.isParams hfile
    obtain ⟨file₂, h₂, hedited₂⟩ := edit_param (hfile₁ adminSshPrivateKey (by decide))
      (wellFormed_paramValue (cat (keygen env keys).id_rsa))
    refine ⟨file₂, ?_, hedited₂.isParams hfile₁, ⟨?_, ?_, ?_, ?_⟩, ?_⟩
    · simp only [fill_keys, Option.bind_eq_bind, hs.adminSshPublicKey, Option.bind_some, hkey, if_true,
        set_bicep_param_value, h₁, h₂, keys_after]
      rfl
    · rw [hedited₂.other _ (by decide), hedited₁.other _ (by decide), hs.adminPassword]
    · rw [hedited₂.other _ (by decide), hedited₁.other _ (by decide), hs.databaseAdminPassword]
    · rw [hedited₂.other _ (by decide), hedited₁.same, Secrets.fill, if_pos hkey]
    · rw [hedited₂.same]
      simp [Secrets.fill, hkey]
    · rw [hedited₂.other _ (by decide), hedited₁.other _ (by decide)]
  · refine ⟨file, ?_, hfile, ⟨hs.adminPassword, hs.databaseAdminPassword, ?_, ?_⟩, rfl⟩
    · simp only [fill_keys, Option.bind_eq_bind, hs.adminSshPublicKey, Option.bind_some, hkey, keys_after]
      rfl
    · rw [hs.adminSshPublicKey, Secrets.fill, if_neg hkey]
    · rw [hs.adminSshPrivateKey]
      simp [Secrets.fill, hkey]

/-- A whole run: the stored secrets are edited with the rest of the file, then
the missing ones are filled in. -/
theorem bicep_init_spec (env : Env) (keys : Keys) {file : Text} (hfile : IsParams file) {config : Members}
    (hconfig : IsConfig env.config_json config) {s : Secrets} (hs : Stores file s) :
    ∃ file', bicep_init env keys (some file) = some (file', keys_after env keys (s.map (edit env.azhop_from))) ∧
      IsParams file' ∧ Stores file' ((s.map (edit env.azhop_from)).fill env keys) ∧
      ∀ prepared renamed, prepare env file = some prepared → deployer_branch env prepared = some renamed →
        jq (param azhopConfig) file' = jq (param azhopConfig) renamed := by
  obtain ⟨file₁, h₁, hfile₁, ⟨doc, hwf, rfl⟩, hconfig₁, hother₁⟩ := prepare_spec hconfig hfile
  obtain ⟨file₂, h₂, hfile₂, hother₂⟩ := deployer_branch_spec hwf hfile₁ hconfig₁
  have hs₂ : Stores file₂ (s.map (edit env.azhop_from)) := by
    refine hs.of_map (edit env.azhop_from) fun name hname hnot => ?_
    have hne : name ≠ azhopConfig := fun e => hnot (e ▸ by decide)
    rw [hother₂ name hname hne, hother₁ name hnot]
  obtain ⟨file₃, h₃, hfile₃, hs₃, hazhop₃⟩ := fill_passwords_spec env keys hfile₂ hs₂
  obtain ⟨file₄, h₄, hfile₄, hs₄, hazhop₄⟩ := fill_keys_spec env keys hfile₃ hs₃
  refine ⟨file₄, ?_, hfile₄, hs₄, ?_⟩
  · simp only [bicep_init, Option.bind_eq_bind, Option.getD_some, h₁, Option.bind_some, h₂, h₃]
    exact h₄
  · intro prepared renamed hp hr
    rw [h₁] at hp
    cases hp
    rw [h₂] at hr
    cases hr
    rw [hazhop₄, hazhop₃]

/-! ## Two runs -/

/-- All four are there. -/
def Secrets.AllSet (s : Secrets) : Prop :=
  s.adminPassword ≠ .null ∧ s.databaseAdminPassword ≠ .null ∧ s.adminSshPublicKey ≠ .null ∧ s.adminSshPrivateKey ≠ .null

/-- A secret that was there is the same. -/
def Kept (before after : Value) : Prop := before ≠ .null → after = before

def Secrets.Keeps (before after : Secrets) : Prop :=
  Kept before.adminPassword after.adminPassword ∧ Kept before.databaseAdminPassword after.databaseAdminPassword ∧
    Kept before.adminSshPublicKey after.adminSshPublicKey ∧ Kept before.adminSshPrivateKey after.adminSshPrivateKey

/-- A run over the file sets all the secrets and keeps the stored ones, and
another run changes none of them. -/
def Completes (env again : Env) (keys : Keys) (file : Text) : Prop :=
  ∃ before after out keys', Stores file before ∧ bicep_init env keys (some file) = some (out, keys') ∧
    Stores out after ∧ after.AllSet ∧ before.Keeps after ∧
    ∃ out' keys'', bicep_init again keys' (some out) = some (out', keys'') ∧ Stores out' after

/-- Not in the way of a new value. -/
def Fits (stored new : Value) : Prop := stored = .null ∨ stored = new

/-- No `jumpbox` for a deployer to replace. -/
def Untouched (azhop_from : AzhopFrom) (v : Value) : Prop :=
  azhop_from = .from_deployer → ∀ s ∈ strings v, ¬jumpbox <:+: s

/-- The files, key files and passwords for which the secrets end up complete. -/
structure Completable (env : Env) (keys : Keys) (s : Secrets) : Prop where
  passwords :
    if reads_null s.adminPassword then
      Fits s.adminPassword (paramValue env.admin_rand.text) ∧
      Fits s.databaseAdminPassword (paramValue env.database_rand.text) ∧
      Untouched env.azhop_from (paramValue env.admin_rand.text) ∧
      Untouched env.azhop_from (paramValue env.database_rand.text)
    else
      s.databaseAdminPassword ≠ .null ∧
      Untouched env.azhop_from s.adminPassword ∧ Untouched env.azhop_from s.databaseAdminPassword
  keys :
    if reads_null s.adminSshPublicKey then
      Fits s.adminSshPublicKey (paramValue (cat (keygen env keys).id_rsa_pub)) ∧
      Fits s.adminSshPrivateKey (paramValue (cat (keygen env keys).id_rsa)) ∧
      (reads_null (paramValue (cat (keygen env keys).id_rsa_pub)) ∨
        Untouched env.azhop_from (paramValue (cat (keygen env keys).id_rsa_pub)) ∧
        Untouched env.azhop_from (paramValue (cat (keygen env keys).id_rsa)))
    else
      s.adminSshPrivateKey ≠ .null ∧
      Untouched env.azhop_from s.adminSshPublicKey ∧ Untouched env.azhop_from s.adminSshPrivateKey

theorem edit_eq_self_iff (azhop_from : AzhopFrom) {v : Value} (h : WellFormed v) :
    edit azhop_from v = v ↔ Untouched azhop_from v := by
  unfold edit Untouched
  by_cases hfrom : azhop_from = .from_deployer
  · simp only [hfrom, if_true, forall_const]
    rw [dedup_mapStrings_eq_iff h]
    exact forall₂_congr fun s _ => rename_eq_self_iff s
  · simp [hfrom]

theorem edit_eq_null_iff (azhop_from : AzhopFrom) (v : Value) : edit azhop_from v = .null ↔ v = .null := by
  unfold edit
  split
  · cases v <;> simp [mapStrings, dedup]
  · rfl

theorem mem_substitute {c : Char} {output : Text} (h : c ∈ output) (hnul : c ≠ '\x00') (hnewline : c ≠ '\n') :
    c ∈ substitute output := by
  have hfilter : c ∈ output.filter (· ≠ '\x00') := List.mem_filter.2 ⟨h, by simpa using hnul⟩
  unfold substitute
  rw [← List.rdropWhile_append_rtakeWhile (p := fun c => c = '\n') (l := output.filter (· ≠ '\x00'))] at hfilter
  rcases List.mem_append.1 hfilter with hin | hin
  · exact hin
  · have := List.mem_rtakeWhile_imp hin
    exact absurd (by simpa using this) hnewline

/-- Text with a character that `null` does not have. -/
theorem reads_null_of_mem {c : Char} {v : Value} (h : c ∈ raw v) (hc : c ∉ ['n', 'u', 'l', 'l', '\x00', '\n']) :
    reads_null v = false := by
  simp only [List.mem_cons, List.not_mem_nil, or_false, not_or] at hc
  have hmem := mem_substitute h hc.2.2.2.2.1 hc.2.2.2.2.2
  rw [reads_null, decide_eq_false_iff_not]
  intro hnull
  rw [hnull] at hmem
  simp [hc] at hmem

theorem reads_null_null : reads_null .null = true := by decide

theorem reads_null_edit (azhop_from : AzhopFrom) (v : Value) : reads_null (edit azhop_from v) = reads_null v := by
  unfold edit
  split
  · cases v with
    | string s =>
      change reads_null (.string (rename s)) = reads_null (.string s)
      by_cases hin : jumpbox <:+: s
      · have hbefore : 'j' ∈ s := hin.subset (by decide)
        have hafter : 'd' ∈ rename s := (infix_replaceAll (by decide) hin).subset (by decide)
        rw [reads_null_of_mem (v := .string s) hbefore (by decide),
          reads_null_of_mem (v := .string (rename s)) hafter (by decide)]
      · rw [(rename_eq_self_iff s).2 hin]
    | array vs =>
      have hbracket : ∀ ws, '[' ∈ raw (.array ws) := fun ws => by cases ws <;> simp [raw, pretty]
      rw [mapStrings, dedup, reads_null_of_mem (hbracket vs) (by decide), reads_null_of_mem (hbracket _) (by decide)]
    | object ms =>
      have hbrace : ∀ fields, '{' ∈ raw (.object fields) := fun fields => by cases fields <;> simp [raw, pretty]
      rw [mapStrings, dedup, reads_null_of_mem (hbrace ms) (by decide), reads_null_of_mem (hbrace _) (by decide)]
    | _ => rfl
  · rfl

theorem Password.substitute_text (p : Password) : substitute p.text = p.text := by
  have hplain : ∀ c ∈ p.text, c ≠ '\x00' ∧ c ≠ '\n' := by
    intro c hc
    constructor
    · rintro rfl
      exact absurd (p.base64 _ hc) (by decide)
    · rintro rfl
      exact absurd (p.base64 _ hc) (by decide)
  have hfilter : p.text.filter (· ≠ '\x00') = p.text :=
    List.filter_eq_self.2 fun c hc => by simpa using (hplain c hc).1
  rw [substitute, hfilter, List.rdropWhile_eq_self_iff]
  intro hne
  simpa using (hplain _ (List.getLast_mem hne)).2

/-- A new password is not taken for a missing one. -/
theorem Password.reads_null (p : Password) : reads_null (paramValue p.text) = false := by
  unfold paramValue
  split
  · decide
  · split
    · decide
    · rw [BicepParams.reads_null, decide_eq_false_iff_not, raw, p.substitute_text]
      intro hnull
      have hlength := p.length_eq
      rw [hnull] at hlength
      cases hlength

/-- Two values filled in after a test of the first: set, kept, and the same
after a second run. -/
theorem guarded_iff (azhop_from : AzhopFrom) (a d : Value) {x y : Value} (x' y' : Value) (hx : x ≠ .null) (hy : y ≠ .null)
    (hagain : reads_null a = true → reads_null x = true → x' = x ∧ y' = y) :
    let admin := if reads_null (edit azhop_from a) then x else edit azhop_from a
    let database := if reads_null (edit azhop_from a) then y else edit azhop_from d
    (admin ≠ .null ∧ database ≠ .null ∧ Kept a admin ∧ Kept d database ∧
      (if reads_null (edit azhop_from admin) then x' else edit azhop_from admin) = admin ∧
      (if reads_null (edit azhop_from admin) then y' else edit azhop_from database) = database) ↔
    if reads_null a then
      Fits a x ∧ Fits d y ∧ (reads_null x ∨ edit azhop_from x = x ∧ edit azhop_from y = y)
    else d ≠ .null ∧ edit azhop_from a = a ∧ edit azhop_from d = d := by
  have hfits : ∀ stored new : Value, Kept stored new ↔ Fits stored new := by
    intro stored new
    unfold Kept Fits
    by_cases hnull : stored = .null
    · simp [hnull]
    · simp [hnull, eq_comm]
  by_cases ha : reads_null a = true
  · by_cases hnew : reads_null x = true
    · simp [reads_null_edit, ha, hnew, hx, hy, hfits, hagain ha hnew]
    · simp [reads_null_edit, ha, hnew, hx, hy, hfits]
  · have hanull : a ≠ .null := by
      rintro rfl
      exact ha reads_null_null
    have hedit : ∀ v, edit azhop_from v = v → edit azhop_from (edit azhop_from v) = edit azhop_from v := by
      intro v hv
      rw [hv, hv]
    simp only [reads_null_edit, ha, Bool.false_eq_true, if_false, ne_eq, edit_eq_null_iff, hanull, not_false_iff, true_and,
      Kept, forall_const]
    constructor
    · rintro ⟨hd, hkept, hkept', -, -⟩
      exact ⟨hd, hkept, hkept' hd⟩
    · rintro ⟨hd, hkept, hkept'⟩
      exact ⟨hd, hkept, fun _ => hkept', hedit a hkept, hedit d hkept'⟩

theorem wellFormed_of_jq {path : List Text} {file : Text} {v : Value} (h : jq path file = some v) : WellFormed v := by
  obtain ⟨doc, hdoc, hv⟩ := Option.bind_eq_some_iff.1 h
  exact wellFormed_getpath (wellFormed_of_read hdoc) hv

theorem keygen_keygen (env again : Env) (keys : Keys) : keygen again (keygen env keys) = keygen env keys := by
  have hsome : (keygen env keys).id_rsa.isNone = false := by
    unfold keygen
    split
    · rfl
    · exact Bool.eq_false_iff.2 ‹_›
  rw [keygen, hsome]
  rfl

/-- Two runs, as what they do to the secrets. -/
theorem completes_iff_fill {env again : Env} (hfrom : again.azhop_from = env.azhop_from) {keys : Keys} {file : Text}
    (hfile : IsParams file) {config config' : Members} (hconfig : IsConfig env.config_json config)
    (hconfig' : IsConfig again.config_json config') {s : Secrets} (hs : Stores file s) :
    Completes env again keys file ↔
      let s₁ := (s.map (edit env.azhop_from)).fill env keys
      s₁.AllSet ∧ s.Keeps s₁ ∧
        (s₁.map (edit env.azhop_from)).fill again (keys_after env keys (s.map (edit env.azhop_from))) = s₁ := by
  obtain ⟨file₁, hrun₁, hfile₁, hs₁, -⟩ := bicep_init_spec env keys hfile hconfig hs
  obtain ⟨file₂, hrun₂, -, hs₂, -⟩ := bicep_init_spec again (keys_after env keys (s.map (edit env.azhop_from))) hfile₁
    hconfig' hs₁
  rw [hfrom] at hrun₂ hs₂
  constructor
  · rintro ⟨before, after, out, keys', hbefore, hrun, hafter, hall, hkeeps, out', keys'', hrun', hagain⟩
    obtain rfl := hs.unique hbefore
    rw [hrun₁] at hrun
    cases hrun
    obtain rfl := hs₁.unique hafter
    rw [hrun₂] at hrun'
    cases hrun'
    exact ⟨hall, hkeeps, hs₂.unique hagain⟩
  · rintro ⟨hall, hkeeps, hsame⟩
    rw [hsame] at hs₂
    exact ⟨s, _, file₁, _, hs, hrun₁, hs₁, hall, hkeeps, file₂, _, hrun₂, hs₂⟩

theorem completes_iff {env again : Env} (hfrom : again.azhop_from = env.azhop_from) {keys : Keys} {file : Text}
    (hfile : IsParams file) {config config' : Members} (hconfig : IsConfig env.config_json config)
    (hconfig' : IsConfig again.config_json config') {s : Secrets} (hs : Stores file s) :
    Completes env again keys file ↔ Completable env keys s := by
  have hpasswords := guarded_iff env.azhop_from s.adminPassword s.databaseAdminPassword
    (paramValue again.admin_rand.text) (paramValue again.database_rand.text)
    (paramValue_ne_null env.admin_rand.text) (paramValue_ne_null env.database_rand.text)
    fun _ h => by
      rw [env.admin_rand.reads_null] at h
      cases h
  have hkeys := guarded_iff env.azhop_from s.adminSshPublicKey s.adminSshPrivateKey
    (paramValue (cat (keygen again (keys_after env keys (s.map (edit env.azhop_from)))).id_rsa_pub))
    (paramValue (cat (keygen again (keys_after env keys (s.map (edit env.azhop_from)))).id_rsa))
    (paramValue_ne_null (cat (keygen env keys).id_rsa_pub)) (paramValue_ne_null (cat (keygen env keys).id_rsa))
    fun ha _ => by
      have hafter : keys_after env keys (s.map (edit env.azhop_from)) = keygen env keys :=
        if_pos ((reads_null_edit _ _).trans ha)
      rw [hafter, keygen_keygen]
      exact ⟨rfl, rfl⟩
  have hcond₁ := edit_eq_self_iff env.azhop_from (wellFormed_of_jq hs.adminPassword)
  have hcond₂ := edit_eq_self_iff env.azhop_from (wellFormed_of_jq hs.databaseAdminPassword)
  have hcond₃ := edit_eq_self_iff env.azhop_from (wellFormed_of_jq hs.adminSshPublicKey)
  have hcond₄ := edit_eq_self_iff env.azhop_from (wellFormed_of_jq hs.adminSshPrivateKey)
  have hnew : ∀ v, edit env.azhop_from (paramValue v) = paramValue v ↔ Untouched env.azhop_from (paramValue v) :=
    fun v => edit_eq_self_iff env.azhop_from (wellFormed_paramValue v)
  simp only [hcond₁, hcond₂, hnew, env.admin_rand.reads_null, Bool.false_eq_true, false_or] at hpasswords
  simp only [hcond₃, hcond₄, hnew] at hkeys
  rw [completes_iff_fill hfrom hfile hconfig hconfig' hs]
  constructor
  · rintro ⟨⟨ha, hd, hu, hr⟩, ⟨hka, hkd, hku, hkr⟩, hsame⟩
    exact ⟨hpasswords.1 ⟨ha, hd, hka, hkd, congrArg Secrets.adminPassword hsame,
        congrArg Secrets.databaseAdminPassword hsame⟩,
      hkeys.1 ⟨hu, hr, hku, hkr, congrArg Secrets.adminSshPublicKey hsame, congrArg Secrets.adminSshPrivateKey hsame⟩⟩
  · rintro ⟨hp, hk⟩
    obtain ⟨ha, hd, hka, hkd, hsa, hsd⟩ := hpasswords.2 hp
    obtain ⟨hu, hr, hku, hkr, hsu, hsr⟩ := hkeys.2 hk
    exact ⟨⟨ha, hd, hu, hr⟩, ⟨hka, hkd, hku, hkr⟩, Secrets.ext hsa hsd hsu hsr⟩

/-! ## The renaming -/

/-- The parameters of a file besides the configuration. -/
def others (file : Text) : Members :=
  match (read file).bind (field · parameters) with
  | some (.object ps) => ps.filter (·.1 ≠ azhopConfig)
  | _ => []

/-- The configuration with its section `jumpbox` called `deployer`. -/
def renameSection (config : Members) : Members :=
  config.map fun m => (if m.1 = jumpbox then deployer else m.1, m.2)

/-- The configuration as the deployer gets it. -/
def deployed (env : Env) (config : Members) : Value :=
  .object (store (renameSection config) key_vault_readers (paramValue env.logged_user_objectId))

/-- The configuration that is stored has its section renamed and the reader
set, and the step leaves every other parameter of the prepared file. -/
def RenamesOnly (env : Env) (keys : Keys) (config : Members) (file : Text) : Prop :=
  ∃ prepared renamed out keys', prepare env file = some prepared ∧ deployer_branch env prepared = some renamed ∧
    others renamed = others prepared ∧
    bicep_init env keys (some file) = some (out, keys') ∧ jq (param azhopConfig) out = some (deployed env config)

/-- `jumpbox` is nowhere in the file but as the name of the section. -/
structure Renamable (config : Members) (prepared : Text) : Prop where
  others : ∀ s ∈ stringsMembers (others prepared), ¬jumpbox <:+: s
  keys : ∀ m ∈ config, m.1 = jumpbox ∨ ¬jumpbox <:+: m.1
  values : ∀ m ∈ config, m.1 = key_vault_readers ∨ ∀ s ∈ strings m.2, ¬jumpbox <:+: s
  one : ¬(jumpbox ∈ config.map Prod.fst ∧ deployer ∈ config.map Prod.fst)

theorem exists_stores {file : Text} (h : IsParams file) : ∃ s, Stores file s := by
  obtain ⟨a, ha⟩ := Option.isSome_iff_exists.1 (h adminPassword (by decide))
  obtain ⟨d, hd⟩ := Option.isSome_iff_exists.1 (h databaseAdminPassword (by decide))
  obtain ⟨u, hu⟩ := Option.isSome_iff_exists.1 (h adminSshPublicKey (by decide))
  obtain ⟨r, hr⟩ := Option.isSome_iff_exists.1 (h adminSshPrivateKey (by decide))
  exact ⟨⟨a, d, u, r⟩, ha, hd, hu, hr⟩

theorem rename_section_iff (k : Text) :
    rename k = (if k = jumpbox then deployer else k) ↔ k = jumpbox ∨ ¬jumpbox <:+: k := by
  by_cases hk : k = jumpbox
  · subst hk
    have hrename : rename jumpbox = deployer := by decide
    simp [hrename]
  · simp [hk, rename_eq_self_iff]

theorem fst_renameSection (config : Members) :
    (renameSection config).map Prod.fst = (config.map Prod.fst).map fun k => if k = jumpbox then deployer else k := by
  simp [renameSection]

/-- The names after the renaming are different exactly where the two sections are not both there. -/
theorem nodup_renameSection {config : Members} (h : (config.map Prod.fst).Nodup) :
    ((renameSection config).map Prod.fst).Nodup ↔ ¬(jumpbox ∈ config.map Prod.fst ∧ deployer ∈ config.map Prod.fst) := by
  rw [fst_renameSection, List.nodup_map_iff_inj_on h]
  have hne : deployer ≠ jumpbox := by decide
  constructor
  · rintro hinj ⟨hj, hd⟩
    exact hne (hinj deployer hd jumpbox hj (by simp [hne]))
  · intro hboth x hx y hy hxy
    by_cases hxj : x = jumpbox
    · by_cases hyj : y = jumpbox
      · rw [hxj, hyj]
      · simp only [hxj, hyj, if_true, if_false] at hxy
        exact absurd ⟨hxj ▸ hx, hxy ▸ hy⟩ hboth
    · by_cases hyj : y = jumpbox
      · simp only [hxj, hyj, if_true, if_false] at hxy
        exact absurd ⟨hyj ▸ hy, hxy ▸ hx⟩ hboth
      · simpa [hxj, hyj] using hxy

theorem mem_keys_map {config : Members} {g : Text → Text} {k : Text} (hg : ∀ k', g k' = k ↔ k' = k) :
    k ∈ (config.map Prod.fst).map g ↔ k ∈ config.map Prod.fst := by
  rw [List.mem_map]
  constructor
  · rintro ⟨k', hk', he⟩
    exact (hg k').1 he ▸ hk'
  · exact fun hk => ⟨k, hk, (hg k).2 rfl⟩

theorem fst_mapMembers (config : Members) :
    (mapMembers rename config).map Prod.fst = (config.map Prod.fst).map rename := by
  rw [mapMembers_eq_map, List.map_map, List.map_map]
  rfl

theorem map_dedup_mapMembers (config : Members) :
    (mapMembers rename config).map (fun m => (m.1, dedup m.2)) =
      config.map fun m => (rename m.1, dedup (mapStrings rename m.2)) := by
  rw [mapMembers_eq_map, List.map_map]
  rfl

/-- The same number of members on both sides: no two keys became one. -/
theorem merged_of_store_eq {config : Members} {reader : Value}
    (h : store (dedupMembers [] (mapMembers rename config)) key_vault_readers reader =
      store (renameSection config) key_vault_readers reader) :
    dedupMembers [] (mapMembers rename config) = config.map fun m => (rename m.1, dedup (mapStrings rename m.2)) := by
  have hsection : ∀ k, (if k = jumpbox then deployer else k) = key_vault_readers ↔ k = key_vault_readers := by
    intro k
    by_cases hk : k = jumpbox
    · subst hk
      decide
    · rw [if_neg hk]
  have hkeys : key_vault_readers ∈ (dedupMembers [] (mapMembers rename config)).map Prod.fst ↔
      key_vault_readers ∈ (renameSection config).map Prod.fst := by
    rw [mem_keys_dedupMembers, fst_mapMembers, fst_renameSection, mem_keys_map (rename_eq_iff (by decide)),
      mem_keys_map hsection]
    simp
  have hlength : (dedupMembers [] (mapMembers rename config)).length = config.length := by
    have hstore := congrArg List.length h
    have hrenamed : (renameSection config).length = config.length := List.length_map _
    rw [length_store, length_store, hrenamed] at hstore
    by_cases hmem : key_vault_readers ∈ (renameSection config).map Prod.fst
    · rwa [if_pos (hkeys.2 hmem), if_pos hmem] at hstore
    · rw [if_neg (mt hkeys.1 hmem), if_neg hmem] at hstore
      omega
  rcases dedupMembers_eq_or_lt [] (mapMembers rename config) with hmap | hlt
  · rw [hmap, List.nil_append, map_dedup_mapMembers]
  · rw [hlength, mapMembers_eq_map, List.length_map, List.length_nil] at hlt
    omega

/-- The stored configuration is the renamed one. -/
theorem config_iff {config : Members} (hwf : WellFormed (.object config)) (reader : Value) :
    store (dedupMembers [] (mapMembers rename config)) key_vault_readers reader =
        store (renameSection config) key_vault_readers reader ↔
      (∀ m ∈ config, m.1 = jumpbox ∨ ¬jumpbox <:+: m.1) ∧
      (∀ m ∈ config, m.1 = key_vault_readers ∨ ∀ s ∈ strings m.2, ¬jumpbox <:+: s) ∧
      ¬(jumpbox ∈ config.map Prod.fst ∧ deployer ∈ config.map Prod.fst) := by
  obtain ⟨hnodup, hvalues⟩ := wellFormed_object_iff.1 hwf
  have hvalue : ∀ m ∈ config, dedup (mapStrings rename m.2) = m.2 ↔ ∀ s ∈ strings m.2, ¬jumpbox <:+: s := by
    intro m hm
    rw [dedup_mapStrings_eq_iff (hvalues m hm)]
    exact forall₂_congr fun s _ => rename_eq_self_iff s
  have hreaders : ∀ k, rename k = key_vault_readers ↔ k = key_vault_readers := rename_eq_iff (by decide)
  -- where no two keys became one, the members are those of the configuration, each changed
  have hmembers : dedupMembers [] (mapMembers rename config) =
        config.map (fun m => (rename m.1, dedup (mapStrings rename m.2))) →
      (store (dedupMembers [] (mapMembers rename config)) key_vault_readers reader =
        store (renameSection config) key_vault_readers reader ↔
      (∀ m ∈ config, m.1 = jumpbox ∨ ¬jumpbox <:+: m.1) ∧
      ∀ m ∈ config, m.1 = key_vault_readers ∨ ∀ s ∈ strings m.2, ¬jumpbox <:+: s) := by
    intro hmap
    have hafter := nodup_dedupMembers [] (mapMembers rename config) List.nodup_nil
    rw [hmap] at hafter ⊢
    rw [renameSection, store_map_eq_iff hafter, ← forall₂_and]
    refine forall₂_congr fun m hm => ?_
    rw [rename_section_iff, hreaders, hvalue m hm]
  have hsame : (∀ m ∈ config, m.1 = jumpbox ∨ ¬jumpbox <:+: m.1) →
      (mapMembers rename config).map Prod.fst = (renameSection config).map Prod.fst := by
    intro hkeys
    rw [fst_mapMembers, fst_renameSection, List.map_map, List.map_map]
    exact List.map_congr_left fun m hm => (rename_section_iff m.1).2 (hkeys m hm)
  constructor
  · intro heq
    have hmap := merged_of_store_eq heq
    obtain ⟨hkeys, hvals⟩ := (hmembers hmap).1 heq
    have hafter := nodup_dedupMembers [] (mapMembers rename config) List.nodup_nil
    rw [hmap, ← map_dedup_mapMembers, List.map_map] at hafter
    exact ⟨hkeys, hvals, (nodup_renameSection hnodup).1 (hsame hkeys ▸ hafter)⟩
  · rintro ⟨hkeys, hvals, hone⟩
    have hfresh : ((mapMembers rename config).map Prod.fst).Nodup := hsame hkeys ▸ (nodup_renameSection hnodup).2 hone
    have hmap := dedupMembers_of_nodup [] (mapMembers rename config) hfresh
    rw [List.nil_append, map_dedup_mapMembers] at hmap
    exact (hmembers hmap).2 ⟨hkeys, hvals⟩

theorem parameters_of_config {doc : Value} {config : Members}
    (h : getpath doc (param azhopConfig) = some (.object config)) : ∃ ps, field doc parameters = some (.object ps) := by
  obtain ⟨p, hp, h⟩ := Option.bind_eq_some_iff.1 h
  cases p with
  | object ps => exact ⟨ps, hp⟩
  | _ => cases h

theorem others_write {doc : Value} (h : WellFormed doc) {ps : Members} (hps : field doc parameters = some (.object ps)) :
    others (write doc) = ps.filter (·.1 ≠ azhopConfig) := by
  rw [others, read_write h, Option.bind_some, hps]

/-- The other parameters after the deployer's step. -/
theorem others_renamed {doc doc' v : Value} (hwf : WellFormed doc) (hwf' : WellFormed doc') {config : Members}
    (hconfig : getpath doc (param azhopConfig) = some (.object config))
    (hset : setpath (dedup (mapStrings rename doc)) (param azhopConfig ++ [key_vault_readers]) v = some doc') :
    others (write doc') = dedupMembers [] (mapMembers rename (others (write doc))) := by
  obtain ⟨ps, hps⟩ := parameters_of_config hconfig
  obtain ⟨c, ps', hc, hinner, hps'⟩ := field_setpath hset
  rw [field_dedup_mapStrings hwf (rename_eq_iff (by decide)), hps] at hc
  cases hc
  obtain ⟨inner, rfl⟩ := setpath_object hinner
  rw [others_write hwf' hps', others_write hwf hps, filter_store, if_pos rfl,
    filter_dedupMembers (rename_eq_iff (by decide)), List.filter_nil]

theorem wellFormed_others {doc : Value} (hwf : WellFormed doc) {config : Members}
    (hconfig : getpath doc (param azhopConfig) = some (.object config)) : WellFormed (.object (others (write doc))) := by
  obtain ⟨ps, hps⟩ := parameters_of_config hconfig
  obtain ⟨hnodup, hvalues⟩ := wellFormed_object_iff.1 (wellFormed_field hwf hps)
  rw [others_write hwf hps]
  exact wellFormed_object_iff.2 ⟨(List.filter_sublist.map Prod.fst).nodup hnodup,
    fun m hm => hvalues m (List.mem_filter.1 hm).1⟩

/-- What a run from a deployer stores, and what its step leaves of the other parameters. -/
theorem deployer_run {env : Env} (hfrom : env.azhop_from = .from_deployer) (keys : Keys) {config : Members}
    (hconfig : IsConfig env.config_json config) {file : Text} (hfile : IsParams file) :
    ∃ prepared renamed out keys', prepare env file = some prepared ∧ deployer_branch env prepared = some renamed ∧
      WellFormed (.object (others prepared)) ∧ others renamed = dedupMembers [] (mapMembers rename (others prepared)) ∧
      bicep_init env keys (some file) = some (out, keys') ∧
      jq (param azhopConfig) out = some (.object (store (dedupMembers [] (mapMembers rename config))
        key_vault_readers (paramValue env.logged_user_objectId))) := by
  obtain ⟨file₁, h₁, -, ⟨doc, hwf, rfl⟩, hconfig₁, -⟩ := prepare_spec hconfig hfile
  obtain ⟨doc', hbranch, hwf', hset⟩ := renamed_spec hfrom hwf hconfig₁
  obtain ⟨s, hs⟩ := exists_stores hfile
  obtain ⟨out, hrun, -, -, hout⟩ := bicep_init_spec env keys hfile hconfig hs
  have hconfig₂ := hconfig₁
  rw [jq_write hwf] at hconfig₂
  refine ⟨write doc, write doc', out, _, h₁, hbranch, wellFormed_others hwf hconfig₂,
    others_renamed hwf hwf' hconfig₂ hset, hrun, ?_⟩
  have hbefore : getpath (dedup (mapStrings rename doc)) (param azhopConfig) =
      some (.object (dedupMembers [] (mapMembers rename config))) := by
    have h := jq_rename hwf azhopConfig (by decide)
    rwa [hconfig₁, jq, read_rename hwf] at h
  rw [hout _ _ h₁ hbranch, jq_write hwf', getpath_setpath_append hset, hbefore]
  rfl

theorem renamesOnly_iff {env : Env} (hfrom : env.azhop_from = .from_deployer) (keys : Keys) {config : Members}
    (hconfig : IsConfig env.config_json config) {file prepared : Text} (hfile : IsParams file)
    (hprepared : prepare env file = some prepared) : RenamesOnly env keys config file ↔ Renamable config prepared := by
  obtain ⟨_, renamed, out, keys', h₁, hbranch, hwf, hothers, hrun, hstored⟩ := deployer_run hfrom keys hconfig hfile
  rw [h₁] at hprepared
  cases hprepared
  have hleft : others renamed = others prepared ↔ ∀ s ∈ stringsMembers (others prepared), ¬jumpbox <:+: s := by
    have h := dedup_mapStrings_eq_iff (f := rename) hwf
    rw [mapStrings, dedup, Value.object.injEq, ← hothers] at h
    rw [h]
    exact forall₂_congr fun s _ => rename_eq_self_iff s
  have hright := config_iff (wellFormed_of_read hconfig) (paramValue env.logged_user_objectId)
  constructor
  · rintro ⟨prepared, renamed, out', keys', hp, hr, ho, hrun', ha⟩
    rw [h₁] at hp
    cases hp
    rw [hbranch] at hr
    cases hr
    rw [hrun] at hrun'
    cases hrun'
    rw [hstored, deployed, Option.some.injEq, Value.object.injEq] at ha
    obtain ⟨hkeys, hvals, hone⟩ := hright.1 ha
    exact ⟨hleft.1 ho, hkeys, hvals, hone⟩
  · rintro ⟨ho, hkeys, hvals, hone⟩
    refine ⟨prepared, renamed, out, keys', h₁, hbranch, hleft.2 ho, hrun, ?_⟩
    rw [hstored, deployed, hright.2 ⟨hkeys, hvals, hone⟩]

/-! ## Files -/

def letters : Password :=
  ⟨List.replicate 32 'a', rfl, fun c hc => Or.inl (by rw [List.eq_of_mem_replicate hc]; rfl)⟩

/-- A run with a configuration. -/
def run (azhop_from : AzhopFrom) (config : Members) : Env where
  azhop_from := azhop_from
  logged_user_objectId := ['u']
  branch := ['m', 'a', 'i', 'n']
  config_json := write (.object config)
  admin_rand := letters
  database_rand := letters
  ssh_keygen := (['k'], ['p'])

def stored (ps : Members) : Text := write (.object [(parameters, .object ps)])

/-- A file with the first password only, as from a run that stopped. -/
def passwordOnly : Members := [(adminPassword, .object [(value, .string ['x'])])]

/-- The passwords of an earlier run. -/
def passwords : Members :=
  [(adminPassword, .object [(value, .string ['x'])]), (databaseAdminPassword, .object [(value, .string ['y'])])]

def resource_group : Text := ['r', 'e', 's', 'o', 'u', 'r', 'c', 'e', '_', 'g', 'r', 'o', 'u', 'p']
def admin_user : Text := ['a', 'd', 'm', 'i', 'n', '_', 'u', 's', 'e', 'r']

/-- A section and a resource group with its name. -/
def jumpboxGroup : Members :=
  [(resource_group, .string ('h' :: '-' :: jumpbox)), (admin_user, .string ['h', 'p', 'c']), (jumpbox, .object [])]

def jumpboxOnly : Members :=
  [(resource_group, .string ['h']), (admin_user, .string ['h', 'p', 'c']), (jumpbox, .object [])]

theorem isParams_stored {ps : Members} (hwf : WellFormed (.object [(parameters, .object ps)]))
    (h : ∀ name ∈ used, (getpath (.object [(parameters, .object ps)]) (param name)).isSome) : IsParams (stored ps) := by
  intro name hname
  rw [stored, jq_write hwf]
  exact h name hname

theorem isParams_empty : IsParams (stored []) :=
  isParams_stored ⟨2, by simp [Readable, ReadableMembers]⟩ (by decide)

theorem isConfig_run (azhop_from : AzhopFrom) {config : Members} (h : WellFormed (.object config)) :
    IsConfig (run azhop_from config).config_json config := read_write h

theorem wellFormed_jumpboxOnly : WellFormed (.object jumpboxOnly) :=
  ⟨2, by simp [jumpboxOnly, Readable, ReadableMembers, jumpbox, resource_group, admin_user]⟩

/-- The second password is left `null` where the first is there. -/
theorem not_completes_passwordOnly :
    ¬Completes (run .from_local jumpboxOnly) (run .from_local jumpboxOnly) ⟨none, none⟩ (stored passwordOnly) := by
  have hwf : WellFormed (.object [(parameters, .object passwordOnly)]) :=
    ⟨3, by simp [passwordOnly, Readable, ReadableMembers]⟩
  have hconfig := isConfig_run .from_local wellFormed_jumpboxOnly
  have hs : Stores (stored passwordOnly) ⟨.string ['x'], .null, .null, .null⟩ :=
    ⟨jq_write hwf _, jq_write hwf _, jq_write hwf _, jq_write hwf _⟩
  rw [completes_iff_fill rfl (isParams_stored hwf (by decide)) hconfig hconfig hs]
  exact fun h => h.1.2.1 rfl

/-- The stored passwords are kept, and keys are made. -/
theorem completes_passwords :
    Completes (run .from_deployer jumpboxOnly) (run .from_deployer jumpboxOnly) ⟨none, none⟩ (stored passwords) := by
  have hwf : WellFormed (.object [(parameters, .object passwords)]) :=
    ⟨4, by simp [passwords, Readable, ReadableMembers, adminPassword, databaseAdminPassword]⟩
  have hconfig := isConfig_run .from_deployer wellFormed_jumpboxOnly
  have hs : Stores (stored passwords) ⟨.string ['x'], .string ['y'], .null, .null⟩ :=
    ⟨jq_write hwf _, jq_write hwf _, jq_write hwf _, jq_write hwf _⟩
  have huntouched : ∀ c : Char, Untouched .from_deployer (.string [c]) := fun c _ =>
    List.forall_mem_singleton.2 fun h => absurd h.length_le (by simp [jumpbox])
  refine (completes_iff rfl (isParams_stored hwf (by decide)) hconfig hconfig hs).2 ⟨?_, ?_⟩
  · exact ⟨fun h => (by cases h), huntouched 'x', huntouched 'y'⟩
  · exact ⟨Or.inl rfl, Or.inl rfl, Or.inr ⟨huntouched 'p', huntouched 'k'⟩⟩

/-- The resource group is renamed with the section. -/
theorem not_renamesOnly_jumpboxGroup :
    ¬RenamesOnly (run .from_deployer jumpboxGroup) ⟨none, none⟩ jumpboxGroup (stored []) := by
  have hwf : WellFormed (.object jumpboxGroup) :=
    ⟨2, by simp [jumpboxGroup, Readable, ReadableMembers, jumpbox, resource_group, admin_user]⟩
  have hfrom : (run .from_deployer jumpboxGroup).azhop_from = .from_deployer := rfl
  obtain ⟨_, _, out, keys', -, -, -, -, hrun, hstored⟩ :=
    deployer_run hfrom ⟨none, none⟩ (isConfig_run .from_deployer hwf) isParams_empty
  rintro ⟨_, _, out', keys'', -, -, -, hrun', ha⟩
  rw [hrun] at hrun'
  cases hrun'
  rw [hstored, deployed, Option.some.injEq, Value.object.injEq] at ha
  have hvalues := ((config_iff hwf _).1 ha).2.1
  have hgroup := hvalues (resource_group, .string ('h' :: '-' :: jumpbox)) (by simp [jumpboxGroup])
  revert hgroup
  simp only [strings]
  decide

def prepared_jumpboxOnly : Members :=
  [(autogenerateSecrets, .object [(value, .bool false)]),
    (branchName, .object [(value, .string ['m', 'a', 'i', 'n'])]),
    (azhopConfig, .object [(value, .object jumpboxOnly)])]

theorem renamesOnly_jumpboxOnly :
    RenamesOnly (run .from_deployer jumpboxOnly) ⟨none, none⟩ jumpboxOnly (stored []) := by
  have hprepared : prepare (run .from_deployer jumpboxOnly) (stored []) = some (stored prepared_jumpboxOnly) := by
    decide +kernel
  have hwf' : WellFormed (.object [(parameters, .object prepared_jumpboxOnly)]) :=
    ⟨5, by simp [prepared_jumpboxOnly, jumpboxOnly, Readable, ReadableMembers, autogenerateSecrets, branchName,
      azhopConfig, jumpbox, resource_group, admin_user]⟩
  have hothers : others (stored prepared_jumpboxOnly) = prepared_jumpboxOnly.filter (·.1 ≠ azhopConfig) :=
    others_write hwf' rfl
  refine (renamesOnly_iff rfl ⟨none, none⟩ (isConfig_run .from_deployer wellFormed_jumpboxOnly) isParams_empty
    hprepared).2 ⟨?_, ?_, ?_, ?_⟩
  · rw [hothers]
    decide
  · decide
  · decide
  · decide

end AzHop.BicepParams
