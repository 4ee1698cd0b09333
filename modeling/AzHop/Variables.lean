import AzHop.Agreement
/-!
# The playbook variables

Both backends end by writing `group_vars/all.yml` for the playbooks: Terraform
renders `global_variables.tmpl` from `outputs.tf`, Bicep returns
`azhopGlobalConfig`. Here are the variables that say something about the
configuration, as each backend computes them; those that only carry a generated
name or an identity of the subscription are left out.

An address or a name that Azure allocates is an `Allocated`, so that two maps
can be compared without knowing it. `variables_agree_iff` says on which
configurations the two maps are the same.
-/
namespace AzHop
open Lib.Objects

/-- The variables both backends give the playbooks. -/
inductive Variable
  | compute_subnetid
  | ad_join_user
  | domain_name
  | ldap_server
  | homedir_mountpoint
  | anf_home_opts
  | ondemand_fqdn
  | database_fqdn
  | database_user
  | jumpbox_ssh_port
  deriving DecidableEq

/-- What Azure allocates to a machine or a server of the deployment. -/
inductive Allocated
  | ondemandFqdn
  | ondemandPrivateIp
  | mysqlFqdn
  deriving DecidableEq

/-- A text of the configuration, or what Azure allocates. -/
inductive Value
  | text (s : String)
  | azure (a : Allocated)
  deriving DecidableEq

/-- The variables with their values. -/
abbrev Variables := List (Variable × Value)

/-- The options of a home directory on ANF and on Azure Files, the same text in both backends. -/
def anfOptions : String := "rw,hard,rsize=262144,wsize=262144,vers=3,tcp,_netdev"

def azurefilesOptions : String := "vers=4,minorversion=1,sec=sys"

namespace Bicep

/-- `config.homedir_type`. -/
def homedir_type (c : AzhopConfig) : HomeType := c.mounts.home.type.getD .existing

/-- `config.slurm.admin_user`. -/
def slurm_admin_user (c : AzhopConfig) : String := (c.database.bind (·.user)).getD "sqladmin"

/-- The fields every configuration has. -/
def globalFields (c : AzhopConfig) (d : Deployment) (username compute : String) : Variables :=
  [(.compute_subnetid, .text (c.resource_group ++ "/" ++ d.vnet_name ++ "/" ++ compute)),
   (.ad_join_user, .text username),
   (.domain_name, .text d.domain.name),
   (.ldap_server, .text (d.domain.ldap_server ++ "." ++ d.domain.name)),
   (.homedir_mountpoint, .text c.mounts.home.mountpoint),
   (.ondemand_fqdn,
      if d.vars.deployOnDemand then
        if d.vars.enablePublicIP then .azure .ondemandFqdn else .azure .ondemandPrivateIp
      else .text ""),
   (.database_fqdn, if d.vars.createDatabase then .azure .mysqlFqdn else .text ""),
   (.database_user, .text (slurm_admin_user c)),
   (.jumpbox_ssh_port, .text (toString d.vars.incomingSSHPort))]

/-- `config.homedir_type == '<type>' ? { anf_home_opts: <options> } : {}`. -/
def homeBlock (c : AzhopConfig) (type : HomeType) (options : Option String) : Option Variables :=
  Lib.Objects.optional (homedir_type c = type) Variable.anf_home_opts (options.map Value.text)

/-- `azhopGlobalConfig`: `options` is read for an existing home directory only. -/
def azhopGlobalConfig (c : AzhopConfig) (d : Deployment) : Option Variables := do
  let username ← d.domain.domain_join_user.username
  let compute ← get? d.subnets .compute
  let anf ← homeBlock c .anf (some anfOptions)
  let azurefiles ← homeBlock c .azurefiles (some azurefilesOptions)
  let existing ← homeBlock c .existing c.mounts.home.options
  return unionAll [globalFields c d username compute.name, anf, azurefiles, existing]

end Bicep

namespace Terraform

/-- `use_existing_ad ? configuration_yml["domain"].<..> : default`. -/
def ofDomain (c : AzhopConfig) (read : Domain → Option String) (default : String) : Option String :=
  if use_existing_ad c then c.domain.bind read else some default

def domain_name (c : AzhopConfig) : Option String := ofDomain c (·.name) "hpc.azure"

def admin_username (c : AzhopConfig) : String := c.admin_user

def domain_join_user (c : AzhopConfig) : Option String :=
  ofDomain c (fun d => d.domain_join_user.bind (·.username)) (admin_username c)

def ad_name (c : AzhopConfig) : String := (c.ad.bind (·.name)).getD "ad"

def ldap_server (c : AzhopConfig) : Option String :=
  ofDomain c (fun d => (d.existing_dc_details.bind (·.domain_controller_names)).bind (·[0]?)) (ad_name c)

def homedir_mountpoint (c : AzhopConfig) : String := c.mounts.home.mountpoint

/-- `config_nfs_home_opts` is read without a default, whatever the type. -/
def homedir_options (c : AzhopConfig) : Option String :=
  c.mounts.home.options.map fun config_nfs_home_opts =>
    match homedir_type c with
    | .anf => anfOptions
    | .azurefiles => azurefilesOptions
    | .existing => config_nfs_home_opts

def ondemand_fqdn (c : AzhopConfig) : Value :=
  if allow_public_ip c && create_ondemand c then .azure .ondemandFqdn
  else match c.ondemand.bind (·.fqdn) with
    | some fqdn => .text fqdn
    | none => if create_ondemand c then .azure .ondemandPrivateIp else .text ""

def database_fqdn (c : AzhopConfig) : Option Value :=
  if create_database c then some (.azure .mysqlFqdn)
  else if use_existing_database c then (c.database.bind (·.fqdn)).map .text
  else some (.text "")

def database_user (c : AzhopConfig) : String :=
  if create_database c then "sqladmin"
  else if use_existing_database c then (c.database.bind (·.user)).getD "sqladmin"
  else "sqladmin"

/-- `try(split("/", vnet_id)[i], "foo")`. -/
def vnetIdPart (c : AzhopConfig) (i : Nat) : String :=
  (c.network.vnet.id.bind (fun id => (id.splitOn "/")[i]?)).getD "foo"

/-- The resource group and the name of the vnet, created or looked up. -/
def vnetGroup (c : AzhopConfig) : String := if create_vnet c then c.resource_group else vnetIdPart c 4

def vnetName (c : AzhopConfig) : String :=
  if create_vnet c then c.network.vnet.name.getD "hpcvnet" else vnetIdPart c 8

def compute_subnetid (c : AzhopConfig) : String :=
  let name := c.network.vnet.subnets.compute.name.getD "compute"
  if create_compute_subnet c then vnetGroup c ++ "/" ++ vnetName c ++ "/" ++ name
  else vnetIdPart c 4 ++ "/" ++ vnetIdPart c 8 ++ "/" ++ name

/-- `global_variables.tmpl` with the values of `outputs.tf`. -/
def global_variables (c : AzhopConfig) : Option Variables := do
  let domain_join_user ← domain_join_user c
  let domain_name ← domain_name c
  let ldap_server ← ldap_server c
  let homedir_options ← homedir_options c
  let database_fqdn ← database_fqdn c
  return [
    (.compute_subnetid, .text (compute_subnetid c)),
    (.ad_join_user, .text domain_join_user),
    (.domain_name, .text domain_name),
    (.ldap_server, .text (ldap_server ++ "." ++ domain_name)),
    (.homedir_mountpoint, .text (homedir_mountpoint c)),
    (.anf_home_opts, .text homedir_options),
    (.ondemand_fqdn, ondemand_fqdn c),
    (.database_fqdn, database_fqdn),
    (.database_user, .text (database_user c)),
    (.jumpbox_ssh_port, .text (toString (jumpbox_ssh_port c)))]

end Terraform

/-! ## Agreement -/

/-- The two maps have the same value for every variable both define. -/
def Variables.Agree (a b : Variables) : Prop := ∀ k, k ∈ keys a → k ∈ keys b → get? a k = get? b k

/-- The configurations that use what both backends have: Bicep creates every
subnet and every database it uses, and only Bicep makes another machine than
the jumpbox the entry point. The schema admits no empty machine name. -/
structure SharedFeatures (c : AzhopConfig) : Prop extends BothSupport c where
  created_compute : Terraform.create_compute_subnet c = true
  own_database : Terraform.use_existing_database c = false
  no_ccportal_deployer : c.cyclecloud.use_as_deployer.getD false = false
  ad_named : Terraform.ad_name c ≠ ""

/-- The inputs on which the conditionals of the two backends choose alike. -/
structure SameChoices (c : AzhopConfig) : Prop where
  directory : Terraform.create_dns_records c = true
  domain_name : Terraform.use_existing_ad c = false → (c.domain.bind (·.name)).getD "hpc.azure" = "hpc.azure"
  database : (c.slurm.map (·.accounting_enabled)).getD false = true → c.queue_manager = "slurm"
  database_user : (c.database.bind (·.user)).getD "sqladmin" = "sqladmin"
  ondemand_fqdn : Terraform.allow_public_ip c = false → c.ondemand.bind (·.fqdn) = none

section
variable {c : AzhopConfig} {d : Bicep.Deployment} {b t : Variables}

namespace Bicep

/-- The options of the home directory, one block of the union for each type. -/
def homeOptions (c : AzhopConfig) : Option String :=
  match homedir_type c with
  | .anf => some anfOptions
  | .azurefiles => some azurefilesOptions
  | .existing => c.mounts.home.options

theorem homeBlock_self {type : HomeType} (ht : homedir_type c = type) (options : Option String) :
    homeBlock c type options = options.map fun opts => [(.anf_home_opts, .text opts)] := by
  simp [homeBlock, Lib.Objects.optional, ht, Function.comp_def]

theorem homeBlock_other {type : HomeType} (ht : homedir_type c ≠ type) (options : Option String) :
    homeBlock c type options = some [] := by
  simp [homeBlock, Lib.Objects.optional, ht]

theorem globalConfig_eq (h : azhopGlobalConfig c d = some b) :
    ∃ username compute opts, d.domain.domain_join_user.username = some username ∧
      get? d.subnets .compute = some compute ∧ homeOptions c = some opts ∧
      b = globalFields c d username compute.name ++ [(.anf_home_opts, .text opts)] := by
  simp only [azhopGlobalConfig, Option.bind_eq_bind, Option.bind_eq_some_iff, Option.pure_def, Option.some.injEq] at h
  obtain ⟨username, hu, compute, hc, anf, ha, azurefiles, hf, existing, he, rfl⟩ := h
  refine ⟨username, compute, ?_⟩
  unfold homeOptions
  cases ht : homedir_type c with
  | anf =>
    rw [homeBlock_self ht] at ha
    rw [homeBlock_other (by simp [ht])] at hf he
    cases ha; cases hf; cases he
    exact ⟨_, hu, hc, rfl, rfl⟩
  | azurefiles =>
    rw [homeBlock_self ht] at hf
    rw [homeBlock_other (by simp [ht])] at ha he
    cases ha; cases hf; cases he
    exact ⟨_, hu, hc, rfl, rfl⟩
  | existing =>
    rw [homeBlock_self ht] at he
    rw [homeBlock_other (by simp [ht])] at ha hf
    obtain ⟨opts, ho, rfl⟩ := Option.map_eq_some_iff.1 he
    cases ha; cases hf
    exact ⟨opts, hu, hc, ho, rfl⟩

/-- What the maps read from a deployment, in terms of the configuration. -/
structure Reads (c : AzhopConfig) (d : Deployment) : Prop where
  vnet_name : c.network.vnet.name = some d.vnet_name
  createDatabase : d.vars.createDatabase =
    (c.queue_manager = "slurm" && (c.slurm.map (·.accounting_enabled)).getD false)
  enablePublicIP : d.vars.enablePublicIP = Terraform.allow_public_ip c
  incomingSSHPort : d.vars.incomingSSHPort = incomingSSHPort c
  createAD : d.vars.createAD = Terraform.create_ad c
  useExistingAD : d.vars.useExistingAD = Terraform.use_existing_ad c
  domain : domainEntry c d.vars = some d.domain

theorem useExistingAD_eq {x : Bool} (h : useExistingAD c = some x) : x = Terraform.use_existing_ad c := by
  unfold useExistingAD at h
  unfold Terraform.use_existing_ad
  split at h
  · rename_i dom hd
    simp [hd, h]
  · rename_i hd
    cases h
    simp [hd]

theorem reads_of (h : azhop c = some d) : Reads c d := by
  simp only [azhop, Option.bind_eq_bind, Option.bind_eq_some_iff, Option.pure_def, Option.some.injEq] at h
  obtain ⟨v, hv, n, hn, _, -, e, he, _, -, _, -, rfl⟩ := h
  simp only [vars, Option.bind_eq_bind, Option.bind_eq_some_iff, Option.pure_def, Option.some.injEq] at hv
  obtain ⟨x, hx, _, -, rfl⟩ := hv
  have hex := useExistingAD_eq hx
  exact ⟨hn, rfl, rfl, rfl, by rw [hex]; rfl, hex, he⟩

theorem compute_name {s : Subnet} (h : azhop c = some d) (hs : get? d.subnets .compute = some s) :
    s.name = c.network.vnet.subnets.compute.name.getD "compute" := by
  obtain ⟨e, he, -, hk, hx⟩ := mem_build (azhop_parts h).subnets (mem_of_get? hs)
  simp only [subnetEntries, List.mem_cons, List.not_mem_nil, or_false] at he
  rcases he with rfl | rfl | rfl | rfl | rfl | rfl | rfl | rfl | rfl | rfl <;> cases hk
  simp only [subnet, Option.map_eq_some_iff, Option.bind_eq_bind, Option.bind_eq_some_iff, Option.pure_def,
    Option.some.injEq] at hx
  obtain ⟨_, ⟨_, -, rfl⟩, rfl⟩ := hx
  rfl

/-- `config.domain.name`. -/
def domainName (c : AzhopConfig) : Option String :=
  match c.domain with
  | some d => d.name
  | none => some "hpc.azure"

theorem domainName_isSome_iff : (domainName c).isSome = true ↔ ∀ d, c.domain = some d → d.name.isSome = true := by
  unfold domainName
  cases c.domain <;> simp

theorem domainName_eq {name : String} (h : domainName c = some name) :
    name = (c.domain.bind (·.name)).getD "hpc.azure" ∧ (c.domain.isSome = true → (c.domain.bind (·.name)).isSome = true) := by
  unfold domainName at h
  cases hd : c.domain with
  | none =>
    rw [hd] at h
    cases h
    exact ⟨rfl, fun hs => absurd hs Bool.false_ne_true⟩
  | some d =>
    simp only [hd] at h
    simp [h]

/-- `config.domain` with the controllers of the deployment. -/
theorem domainEntry_deployed {v : Vars} (hc : v.createAD = true) : domainEntry c v = (domainName c).map fun name =>
    { name, domain_join_user := ⟨c.admin_user, "foo", "foo", "foo"⟩,
      domain_controlers := if v.highAvailabilityForAD then [Terraform.ad_name c, (c.ad.bind (·.ha_name)).getD "ad2"]
        else [Terraform.ad_name c],
      ldap_server := Terraform.ad_name c } := by
  unfold domainEntry domainName
  cases c.domain with
  | none => simp [hc, Terraform.ad_name]
  | some d => cases hn : d.name <;> simp [hn, hc, Terraform.ad_name]

/-- The same without any controller. -/
theorem domainEntry_absent {v : Vars} (hc : v.createAD = false) (hx : v.useExistingAD = false) :
    domainEntry c v = (domainName c).map fun name =>
      { name, domain_join_user := { username := "" }, domain_controlers := [], ldap_server := "" } := by
  unfold domainEntry domainName
  cases c.domain with
  | none => simp [hc, hx]
  | some d => cases hn : d.name <;> simp [hn, hc, hx]

/-- With existing controllers all that is copied from the section must be there. -/
theorem domainEntry_existing_iff {v : Vars} {e : DomainEntry} (hc : v.createAD = false) (hx : v.useExistingAD = true) :
    domainEntry c v = some e ↔ ∃ d, c.domain = some d ∧ d.name = some e.name ∧
      (d.domain_join_user = some e.domain_join_user ∧ e.domain_join_user.username.isSome = true ∧
        e.domain_join_user.password_key_vault_name.isSome = true ∧
        e.domain_join_user.password_key_vault_resource_group_name.isSome = true ∧
        e.domain_join_user.password_key_vault_secret_name.isSome = true) ∧
      ∃ details, d.existing_dc_details = some details ∧ details.domain_controller_names = some e.domain_controlers ∧
        e.domain_controlers[0]? = some e.ldap_server := by
  cases hd : c.domain with
  | none =>
    simp [domainEntry, hd, hc, hx]
  | some d =>
    simp only [domainEntry, hd, hc, hx, Bool.false_eq_true, if_false, if_true, Option.bind_eq_bind, Option.bind_eq_some_iff,
      Option.pure_def, Option.some.injEq]
    constructor
    · rintro ⟨name, hn, d', rfl, ⟨_, _, _, _⟩, hu, username, rfl, vault, rfl, group, rfl, secret, rfl, details, hdet, names,
        hnames, ldap, hl, rfl⟩
      exact ⟨d, rfl, hn, ⟨hu, rfl, rfl, rfl, rfl⟩, details, hdet, hnames, hl⟩
    · obtain ⟨name, ⟨username, vault, group, secret⟩, names, ldap⟩ := e
      rintro ⟨d', rfl, hn, ⟨hu, hun, hvault, hgroup, hsecret⟩, details, hdet, hnames, hl⟩
      obtain ⟨username, rfl⟩ := Option.isSome_iff_exists.1 hun
      obtain ⟨vault, rfl⟩ := Option.isSome_iff_exists.1 hvault
      obtain ⟨group, rfl⟩ := Option.isSome_iff_exists.1 hgroup
      obtain ⟨secret, rfl⟩ := Option.isSome_iff_exists.1 hsecret
      exact ⟨name, hn, d, rfl, _, hu, username, rfl, vault, rfl, group, rfl, secret, rfl, details, hdet, names, hnames, ldap,
        hl, rfl⟩

/-- `config.domain` once its name is read. -/
theorem domainEntry_eq {v : Vars} {e : DomainEntry} (h : domainEntry c v = some e) :
    e.name = (c.domain.bind (·.name)).getD "hpc.azure" ∧ (c.domain.isSome = true → (c.domain.bind (·.name)).isSome = true) ∧
    if v.createAD then e.domain_join_user.username = some c.admin_user ∧ e.ldap_server = Terraform.ad_name c
    else if v.useExistingAD then
      e.domain_join_user.username = c.domain.bind (fun d => d.domain_join_user.bind (·.username)) ∧
      some e.ldap_server = c.domain.bind (fun d => (d.existing_dc_details.bind (·.domain_controller_names)).bind (·[0]?))
    else e.domain_join_user.username = some "" ∧ e.ldap_server = "" := by
  cases hc : v.createAD with
  | true =>
    rw [domainEntry_deployed hc] at h
    obtain ⟨name, hname, rfl⟩ := Option.map_eq_some_iff.1 h
    exact ⟨(domainName_eq hname).1, (domainName_eq hname).2, rfl, rfl⟩
  | false =>
    cases hx : v.useExistingAD with
    | true =>
      obtain ⟨d, hd, hn, ⟨hu, -⟩, details, hdet, hnames, hl⟩ := (domainEntry_existing_iff hc hx).1 h
      simp [hd, hn, hu, hdet, hnames, hl]
    | false =>
      rw [domainEntry_absent hc hx] at h
      obtain ⟨name, hname, rfl⟩ := Option.map_eq_some_iff.1 h
      exact ⟨(domainName_eq hname).1, (domainName_eq hname).2, rfl, rfl⟩

end Bicep

/-! ### One variable at a time -/

theorem compute_subnetid_agrees (hs : SharedFeatures c) (h : Bicep.azhop c = some d) {s : Bicep.Subnet}
    (hc : get? d.subnets .compute = some s) :
    c.resource_group ++ "/" ++ d.vnet_name ++ "/" ++ s.name = Terraform.compute_subnetid c := by
  simp [Terraform.compute_subnetid, Terraform.vnetGroup, Terraform.vnetName, hs.created_compute, hs.created_vnet,
    (Bicep.reads_of h).vnet_name, Bicep.compute_name h hc]

theorem jumpbox_ssh_port_agrees (hs : SharedFeatures c) : Bicep.incomingSSHPort c = Terraform.jumpbox_ssh_port c := by
  simp [Bicep.incomingSSHPort, hs.no_deployer, hs.no_ccportal_deployer, Bicep.jumpboxSshPort, Bicep.sshPort,
    Terraform.jumpbox_ssh_port]

theorem anf_home_opts_agrees {opts opts' : String} (h : Bicep.homeOptions c = some opts)
    (h' : Terraform.homedir_options c = some opts') : opts = opts' := by
  obtain ⟨options, ho, rfl⟩ := Option.map_eq_some_iff.1 h'
  unfold Bicep.homeOptions Bicep.homedir_type at h
  unfold Terraform.homedir_type
  cases ht : c.mounts.home.type.getD .existing <;> simp_all

/-- Terraform asks for accounting only, Bicep also for Slurm as the queue manager. -/
theorem database_fqdn_agrees_iff (hs : SharedFeatures c) (h : Bicep.azhop c = some d) {v : Value}
    (hv : Terraform.database_fqdn c = some v) :
    (if d.vars.createDatabase then Value.azure .mysqlFqdn else .text "") = v ↔
      ((c.slurm.map (·.accounting_enabled)).getD false = true → c.queue_manager = "slurm") := by
  unfold Terraform.database_fqdn Terraform.create_database at hv
  rw [(Bicep.reads_of h).createDatabase]
  simp only [hs.own_database, Bool.not_false, Bool.and_true, Bool.false_eq_true, if_false] at hv
  cases ha : (c.slurm.map (·.accounting_enabled)).getD false with
  | false =>
    rw [ha] at hv
    cases hv
    simp
  | true =>
    rw [ha] at hv
    cases hv
    by_cases hq : c.queue_manager = "slurm" <;> simp [hq]

theorem database_user_agrees_iff (hs : SharedFeatures c) :
    Bicep.slurm_admin_user c = Terraform.database_user c ↔ (c.database.bind (·.user)).getD "sqladmin" = "sqladmin" := by
  unfold Bicep.slurm_admin_user Terraform.database_user
  simp [hs.own_database]

theorem ondemand_fqdn_agrees_iff (h : Bicep.azhop c = some d) :
    (if d.vars.deployOnDemand then if d.vars.enablePublicIP then Value.azure .ondemandFqdn else .azure .ondemandPrivateIp
      else .text "") = Terraform.ondemand_fqdn c ↔
      (Terraform.allow_public_ip c = false → c.ondemand.bind (·.fqdn) = none) := by
  rw [(Bicep.vars_of h).deployOnDemand, (Bicep.reads_of h).enablePublicIP]
  unfold Terraform.ondemand_fqdn Terraform.create_ondemand Bicep.deployOnDemand
  cases ho : c.ondemand with
  | none => simp
  | some o =>
    cases hp : Terraform.allow_public_ip c with
    | true => simp
    | false => cases hf : o.fqdn <;> simp [hf]

/-- Who runs the domain controllers, as Terraform computes it, and what the
domain entry of Bicep is then. -/
theorem domain_agrees_iff (hs : SharedFeatures c) (h : Bicep.azhop c = some d) {username user name server : String}
    (hu : d.domain.domain_join_user.username = some username) (hu' : Terraform.domain_join_user c = some user)
    (hn' : Terraform.domain_name c = some name) (hl' : Terraform.ldap_server c = some server) :
    (username = user ∧ d.domain.name = name ∧ d.domain.ldap_server ++ "." ++ d.domain.name = server ++ "." ++ name) ↔
      Terraform.create_dns_records c = true ∧
        (Terraform.use_existing_ad c = false → (c.domain.bind (·.name)).getD "hpc.azure" = "hpc.azure") := by
  have hr := Bicep.reads_of h
  obtain ⟨hname, hsome, hrest⟩ := Bicep.domainEntry_eq hr.domain
  rw [hr.createAD, hr.useExistingAD] at hrest
  unfold Terraform.create_dns_records
  cases hx : Terraform.use_existing_ad c with
  | true =>
    -- both read everything from the domain section
    have hc : Terraform.create_ad c = false := by simp [Terraform.create_ad, hx]
    simp only [Terraform.domain_join_user, Terraform.domain_name, Terraform.ldap_server, Terraform.ofDomain, hx,
      if_true] at hu' hn' hl'
    simp only [hc, hx, if_true, if_false, Bool.false_eq_true, hu, hu', hl', Option.some.injEq] at hrest
    rw [hn', Option.getD_some] at hname
    simp [hrest, hname]
  | false =>
    simp only [Terraform.domain_join_user, Terraform.domain_name, Terraform.ldap_server, Terraform.ofDomain, hx,
      if_false, Bool.false_eq_true, Option.some.injEq] at hu' hn' hl'
    subst hu' hn' hl'
    cases hc : Terraform.create_ad c with
    | true =>
      simp only [hc, if_true, hu, Option.some.injEq] at hrest
      rw [hrest.1, hrest.2, ← hname]
      simp [Terraform.admin_username]
    | false =>
      -- no domain controller at all: Bicep leaves the server's name empty
      simp only [hc, hx, if_false, Bool.false_eq_true] at hrest
      constructor
      · rintro ⟨-, hn, hl⟩
        rw [hrest.2, hn, String.append_left_inj, String.append_left_inj] at hl
        exact absurd hl.symm hs.ad_named
      · rintro ⟨hf, -⟩
        exact absurd hf (by simp)

/-- The two maps are the same exactly where the conditionals choose alike. -/
theorem variables_agree_iff (hs : SharedFeatures c) (h : Bicep.azhop c = some d)
    (hb : Bicep.azhopGlobalConfig c d = some b) (ht : Terraform.global_variables c = some t) :
    Variables.Agree b t ↔ SameChoices c := by
  obtain ⟨username, compute, opts, hu, hc, ho, rfl⟩ := Bicep.globalConfig_eq hb
  simp only [Terraform.global_variables, Option.bind_eq_bind, Option.bind_eq_some_iff, Option.pure_def,
    Option.some.injEq] at ht
  obtain ⟨user, hu', name, hn', server, hl', opts', ho', fqdn, hf', rfl⟩ := ht
  have hdomain := domain_agrees_iff hs h hu hu' hn' hl'
  have hcompute := compute_subnetid_agrees hs h hc
  have hport := jumpbox_ssh_port_agrees hs
  have hfqdn := database_fqdn_agrees_iff hs h hf'
  have huser := database_user_agrees_iff hs
  have hond := ondemand_fqdn_agrees_iff h
  constructor
  · intro hag
    have hk : ∀ k, get? (Bicep.globalFields c d username compute.name ++ [(.anf_home_opts, .text opts)]) k = _ :=
      fun k => hag k (by cases k <;> simp [Bicep.globalFields]) (by cases k <;> simp)
    obtain ⟨hdir, hname⟩ := hdomain.1 ⟨Value.text.inj (Option.some.inj (hk .ad_join_user)),
      Value.text.inj (Option.some.inj (hk .domain_name)), Value.text.inj (Option.some.inj (hk .ldap_server))⟩
    exact
      { directory := hdir
        domain_name := hname
        database := hfqdn.1 (Option.some.inj (hk .database_fqdn))
        database_user := huser.1 (Value.text.inj (Option.some.inj (hk .database_user)))
        ondemand_fqdn := hond.1 (Option.some.inj (hk .ondemand_fqdn)) }
  · intro hsame k _ _
    obtain ⟨hjoin, hname, hserver⟩ := hdomain.2 ⟨hsame.directory, hsame.domain_name⟩
    cases k with
    | compute_subnetid => exact congrArg (some <| Value.text ·) hcompute
    | ad_join_user => exact congrArg (some <| Value.text ·) hjoin
    | domain_name => exact congrArg (some <| Value.text ·) hname
    | ldap_server => exact congrArg (some <| Value.text ·) hserver
    | homedir_mountpoint => rfl
    | anf_home_opts => exact congrArg (some <| Value.text ·) (anf_home_opts_agrees ho ho')
    | ondemand_fqdn => exact congrArg some (hond.2 hsame.ondemand_fqdn)
    | database_fqdn => exact congrArg some (hfqdn.2 hsame.database)
    | database_user => exact congrArg (some <| Value.text ·) (huser.2 hsame.database_user)
    | jumpbox_ssh_port =>
      exact congrArg (fun p : Int => some (Value.text (toString p))) ((Bicep.reads_of h).incomingSSHPort.trans hport)

end

/-- The deployment's own domain controller, with every default. -/
def ownDcConfig : AzhopConfig :=
  { smallConfig with authentication := none, ad := some { vm_size := "Standard_B2ms" } }

theorem ownDc_shared : SharedFeatures ownDcConfig :=
  { created_vnet := rfl, no_lustre := rfl, no_deployer := rfl, created_compute := rfl, own_database := rfl,
    no_ccportal_deployer := rfl, ad_named := by simp [Terraform.ad_name, ownDcConfig] }

theorem variables_agree_own_dc : ∃ d b t, Bicep.azhop ownDcConfig = some d ∧
    Bicep.azhopGlobalConfig ownDcConfig d = some b ∧ Terraform.global_variables ownDcConfig = some t ∧
    Variables.Agree b t :=
  ⟨_, _, _, rfl, rfl, rfl, (variables_agree_iff ownDc_shared rfl rfl rfl).2
    { directory := rfl, domain_name := fun _ => rfl, database := fun h => absurd h Bool.false_ne_true,
      database_user := rfl, ondemand_fqdn := fun _ => rfl }⟩

/-- The same with a domain name of one's own. -/
def ownDomainConfig : AzhopConfig :=
  { ownDcConfig with domain := some { name := "contoso.local", use_existing_dc := some false } }

/-- Bicep joins `contoso.local`, Terraform `hpc.azure`. -/
theorem own_domain_differs : SharedFeatures ownDomainConfig ∧ ∃ d b t, Bicep.azhop ownDomainConfig = some d ∧
    Bicep.azhopGlobalConfig ownDomainConfig d = some b ∧ Terraform.global_variables ownDomainConfig = some t ∧
    ¬ Variables.Agree b t := by
  refine ⟨{ ownDc_shared with }, _, _, _, rfl, rfl, rfl, fun hag => ?_⟩
  have hname : some (Value.text "contoso.local") = some (Value.text "hpc.azure") := hag .domain_name (by decide) (by decide)
  simp at hname

end AzHop
