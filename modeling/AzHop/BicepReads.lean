import AzHop.Variables
/-!
# Properties the Bicep template reads

ARM stops with an error at a property that an object does not have. The
template asks `contains` first at most places and not at others, where it
relies on the schema or on the condition it is under. `evaluates_iff` lists
what a configuration must have for the template to get through: a section
alone does not do where the schema requires none of its properties.
-/
namespace AzHop.Bicep
open Lib.Objects

/-- `contains(azhopConfig, '<section>') ? azhopConfig.<section>.name : default`. -/
def nameOf (section? : Option Named) (default : String) : Option String :=
  match section? with
  | some s => s.name
  | none => some default

/-- What the variables, the module parameters and the outputs come to. -/
structure Evaluation where
  deployment : Deployment
  key_vault_name : String
  storage_account_name : String
  globalConfig : Variables

def evaluate (resourcePostfix : String) (c : AzhopConfig) : Option Evaluation := do
  let deployment ← azhop c
  let key_vault_name ← nameOf c.azure_key_vault ("kv" ++ resourcePostfix)
  let storage_account_name ← nameOf c.azure_storage_account ("azhop" ++ resourcePostfix)
  let globalConfig ← azhopGlobalConfig c deployment
  return { deployment, key_vault_name, storage_account_name, globalConfig }

/-! ## What is read -/

def existingDc (c : AzhopConfig) : Bool := (c.domain.bind (·.use_existing_dc)).getD false

/-- `createAD`, `createDatabase` as functions of the configuration. -/
def createsDc (c : AzhopConfig) : Bool := !existingDc c && userAuth c = .ad

def createsDatabase (c : AzhopConfig) : Bool :=
  c.queue_manager = "slurm" && (c.slurm.map (·.accounting_enabled)).getD false

/-- The subnets whose address prefix is read. -/
def readsSubnet (c : AzhopConfig) : SubnetKey → Bool
  | .frontend | .admin | .compute => true
  | .database => createsDatabase c
  | .netapp => create_anf c
  | .lustre => deployLustre c
  | .ad => createsDc c
  | .bastion => c.network.vnet.subnets.bastion.isSome
  | .outbounddns => c.network.vnet.subnets.outbounddns.isSome
  | .gateway => c.network.vnet.subnets.gateway.isSome

def addressed (s : Subnets) (k : SubnetKey) : Bool := ((s.get? k).bind (·.address_prefixes)).isSome

/-- The properties of `domain` read for an existing domain controller. -/
structure ExistingDcOk (d : Domain) : Prop where
  domain_join_user : ∃ u, d.domain_join_user = some u ∧ u.username.isSome = true ∧
    u.password_key_vault_name.isSome = true ∧ u.password_key_vault_resource_group_name.isSome = true ∧
    u.password_key_vault_secret_name.isSome = true
  existing_dc_details : ∃ e names, d.existing_dc_details = some e ∧ e.domain_controller_ip_addresses.isSome = true ∧
    e.domain_controller_names = some names ∧ names ≠ []

/-- Everything the template reads is there. -/
structure ReadsOk (c : AzhopConfig) : Prop where
  domain : ∀ d, c.domain = some d → d.name.isSome = true ∧ d.use_existing_dc.isSome = true
  existing_dc : ∀ d, c.domain = some d → d.use_existing_dc = some true → ExistingDcOk d
  vnet : c.network.vnet.name.isSome = true ∧ c.network.vnet.address_space.isSome = true
  subnets : ∀ k, readsSubnet c k = true → addressed c.network.vnet.subnets k = true
  ad : createsDc c = true ∨ highAvailabilityForAD c = true → (c.ad.bind (·.vm_size)).isSome = true
  grafana : deployGrafana c = true → c.grafana.isSome = true
  azure_key_vault : ∀ s, c.azure_key_vault = some s → s.name.isSome = true
  azure_storage_account : ∀ s, c.azure_storage_account = some s → s.name.isSome = true
  options : homedir_type c = .existing → c.mounts.home.options.isSome = true

variable {c : AzhopConfig} {v : Vars}

theorem nameOf_isSome_iff {section? : Option Named} {default : String} :
    (nameOf section? default).isSome = true ↔ ∀ s, section? = some s → s.name.isSome = true := by
  cases section? <;> simp [nameOf]

/-- The variables are there when `use_existing_dc` is, and the addresses it asks for. -/
theorem exists_vars_iff : (∃ v, vars c = some v) ↔
    (∀ d, c.domain = some d → d.use_existing_dc.isSome = true) ∧
    ∀ d, c.domain = some d → d.use_existing_dc = some true →
      (d.existing_dc_details.bind (·.domain_controller_ip_addresses)).isSome = true := by
  cases hd : c.domain with
  | none => simp [vars, useExistingAD, domain_controller_ip_addresses, hd]
  | some d =>
    cases hx : d.use_existing_dc with
    | none => simp [vars, useExistingAD, hd, hx]
    | some x =>
      cases x with
      | false => simp [vars, useExistingAD, domain_controller_ip_addresses, hd, hx]
      | true =>
        cases hi : d.existing_dc_details.bind (·.domain_controller_ip_addresses) with
        | none => simp [vars, useExistingAD, domain_controller_ip_addresses, hd, hx, hi]
        | some ips => simp [vars, useExistingAD, domain_controller_ip_addresses, hd, hx, hi]

/-- The variables as functions of the configuration. -/
structure Switches (c : AzhopConfig) (v : Vars) : Prop where
  useExistingAD : v.useExistingAD = existingDc c
  createAD : v.createAD = createsDc c
  createDatabase : v.createDatabase = createsDatabase c
  create_anf : v.create_anf = create_anf c
  deployLustre : v.deployLustre = deployLustre c
  deployGrafana : v.deployGrafana = deployGrafana c
  deployOnDemand : v.deployOnDemand = c.ondemand.isSome
  deployDeployer : v.deployDeployer = c.deployer.isSome
  deployJumpbox : v.deployJumpbox = c.jumpbox.isSome
  highAvailabilityForAD : v.highAvailabilityForAD = highAvailabilityForAD c

theorem switches_of (h : vars c = some v) : Switches c v := by
  simp only [vars, Option.bind_eq_bind, Option.bind_eq_some_iff, Option.pure_def, Option.some.injEq] at h
  obtain ⟨x, hx, _, -, rfl⟩ := h
  have hex : x = existingDc c := useExistingAD_eq hx
  exact ⟨hex, by rw [hex]; rfl, rfl, rfl, rfl, rfl, rfl, rfl, rfl, rfl⟩

theorem subnet_isSome {default : String} {s : SubnetClass} : (subnet default s).isSome = s.address_prefixes.isSome := by
  unfold subnet
  cases s.address_prefixes <;> rfl

theorem fixedSubnet_isSome {name : String} {apply_nsg : Bool} {s : SubnetClass} :
    (fixedSubnet name apply_nsg s).isSome = s.address_prefixes.isSome := by
  unfold fixedSubnet
  cases s.address_prefixes <;> rfl

theorem section_isSome {s : Option SubnetClass} {f : SubnetClass → Option Subnet}
    (hf : ∀ x, (f x).isSome = x.address_prefixes.isSome) : (s.bind f).isSome = (s.bind (·.address_prefixes)).isSome := by
  cases s with
  | none => rfl
  | some x => exact hf x

theorem subnets_isSome_iff (hv : Switches c v) : (subnets v c.network.vnet.subnets).isSome = true ↔
    ∀ k, readsSubnet c k = true → addressed c.network.vnet.subnets k = true := by
  rw [subnets, build_isSome_iff]
  simp only [subnetEntries, List.forall_mem_cons, List.not_mem_nil, Option.isSome_map, subnet_isSome,
    section_isSome (fun x => subnet_isSome), section_isSome (fun x => fixedSubnet_isSome), hv.createDatabase,
    hv.create_anf, hv.deployLustre, hv.createAD]
  constructor
  · rintro ⟨h1, h2, h3, h4, h5, h6, h7, h8, h9, h10, -⟩ k hk
    cases k with
    | frontend => exact h1 trivial
    | admin => exact h2 trivial
    | netapp => exact h5 hk
    | ad => exact h7 hk
    | compute => exact h3 trivial
    | bastion => exact h8 hk
    | lustre => exact h6 hk
    | gateway => exact h10 hk
    | outbounddns => exact h9 hk
    | database => exact h4 hk
  · intro h
    exact ⟨fun _ => h .frontend rfl, fun _ => h .admin rfl, fun _ => h .compute rfl, h .database, h .netapp, h .lustre,
      h .ad, h .bastion, h .outbounddns, h .gateway, fun _ he => absurd he id⟩

theorem adVm_isSome {name : Ad → Option String} {default : String} :
    (adVm c name default).isSome = (c.ad.bind (·.vm_size)).isSome := by
  unfold adVm
  cases ha : c.ad with
  | none => rfl
  | some ad => cases hs : ad.vm_size <;> simp [hs]

theorem vms_isSome_iff (hv : Switches c v) : (vms c v).isSome = true ↔
    (createsDc c = true ∨ highAvailabilityForAD c = true → (c.ad.bind (·.vm_size)).isSome = true) ∧
    (deployGrafana c = true → c.grafana.isSome = true) := by
  rw [vms, build_isSome_iff]
  simp only [vmEntries, List.forall_mem_cons, List.not_mem_nil, Option.isSome_map, adVm_isSome, hv.createAD,
    hv.deployOnDemand, hv.deployDeployer, hv.deployJumpbox, hv.deployGrafana, hv.highAvailabilityForAD, Option.isSome_some]
  constructor
  · rintro ⟨-, -, -, had, -, had2, -, hg, -⟩
    exact ⟨fun h => h.elim had had2, hg⟩
  · rintro ⟨had, hg⟩
    exact ⟨id, fun _ => trivial, fun _ => trivial, fun h => had (.inl h), id, fun h => had (.inr h), id, hg,
      fun _ he => absurd he id⟩

/-- `config.domain` needs a name, and for an existing controller all its details but the addresses. -/
theorem domainEntry_isSome_iff (hv : Switches c v) : (domainEntry c v).isSome = true ↔
    (∀ d, c.domain = some d → d.name.isSome = true) ∧
    (existingDc c = true → ∃ d, c.domain = some d ∧
      (∃ u, d.domain_join_user = some u ∧ u.username.isSome = true ∧ u.password_key_vault_name.isSome = true ∧
        u.password_key_vault_resource_group_name.isSome = true ∧ u.password_key_vault_secret_name.isSome = true) ∧
      ∃ e names, d.existing_dc_details = some e ∧ e.domain_controller_names = some names ∧ names ≠ []) := by
  cases hx : existingDc c with
  | false =>
    -- only the name is read from the section
    have hown : (domainEntry c v).isSome = (domainName c).isSome := by
      cases hc : v.createAD with
      | true => rw [domainEntry_deployed hc, Option.isSome_map]
      | false => rw [domainEntry_absent hc (hv.useExistingAD.trans hx), Option.isSome_map]
    rw [hown, domainName_isSome_iff]
    simp
  | true =>
    have hc : v.createAD = false := by simp [hv.createAD, createsDc, hx]
    simp only [Option.isSome_iff_exists, domainEntry_existing_iff hc (hv.useExistingAD.trans hx)]
    constructor
    · rintro ⟨⟨name, join, names, ldap⟩, d, hd, hn, ⟨hu, huser⟩, details, hdet, hnames, hl⟩
      refine ⟨fun d' hd' => ⟨name, ?_⟩, fun _ => ⟨d, hd, ⟨join, hu, ?_⟩, details, names, hdet, hnames, ?_⟩⟩
      · cases hd.symm.trans hd'
        exact hn
      · simpa only [Option.isSome_iff_exists] using huser
      · rintro rfl
        cases hl
    · rintro ⟨hname, h⟩
      obtain ⟨d, hd, ⟨u, hu, huser⟩, details, names, hdet, hnames, hne⟩ := h trivial
      obtain ⟨name, hn⟩ := hname d hd
      obtain ⟨first, rest, rfl⟩ := List.exists_cons_of_ne_nil hne
      refine ⟨⟨name, u, first :: rest, first⟩, d, hd, hn, ⟨hu, ?_⟩, details, hdet, hnames, rfl⟩
      simpa only [Option.isSome_iff_exists] using huser

theorem username_isSome {e : DomainEntry} (h : domainEntry c v = some e) :
    ∃ u, e.domain_join_user.username = some u := by
  cases hc : v.createAD with
  | true =>
    rw [domainEntry_deployed hc] at h
    obtain ⟨name, -, rfl⟩ := Option.map_eq_some_iff.1 h
    exact ⟨_, rfl⟩
  | false =>
    cases hx : v.useExistingAD with
    | true =>
      obtain ⟨d, -, -, ⟨-, hu, -⟩, -⟩ := (domainEntry_existing_iff hc hx).1 h
      exact Option.isSome_iff_exists.1 hu
    | false =>
      rw [domainEntry_absent hc hx] at h
      obtain ⟨name, -, rfl⟩ := Option.map_eq_some_iff.1 h
      exact ⟨_, rfl⟩

/-- Given the deployment, `azhopGlobalConfig` reads the options of an existing home directory only. -/
theorem globalConfig_isSome_iff {d : Deployment} (h : azhop c = some d) :
    (azhopGlobalConfig c d).isSome = true ↔ (homedir_type c = .existing → c.mounts.home.options.isSome = true) := by
  have hu := username_isSome (reads_of h).domain
  have hc : ∃ s, get? d.subnets .compute = some s :=
    Option.isSome_iff_exists.1 ((get?_isSome_iff _ _).2 ((mem_subnets h .compute).2 trivial))
  obtain ⟨u, hu⟩ := hu
  obtain ⟨s, hc⟩ := hc
  simp only [azhopGlobalConfig, hu, hc, Option.bind_eq_bind, Option.bind_some]
  cases ht : homedir_type c with
  | anf =>
    rw [homeBlock_self ht, homeBlock_other (by simp [ht]), homeBlock_other (by simp [ht])]
    simp
  | azurefiles =>
    rw [homeBlock_self ht, homeBlock_other (by simp [ht]), homeBlock_other (by simp [ht])]
    simp
  | existing =>
    rw [homeBlock_self ht, homeBlock_other (by simp [ht]), homeBlock_other (by simp [ht])]
    cases ho : c.mounts.home.options <;> simp

/-! ## The whole template -/

theorem azhop_isSome_iff : (azhop c).isSome = true ↔ ∃ v, vars c = some v ∧ c.network.vnet.name.isSome = true ∧
    c.network.vnet.address_space.isSome = true ∧ (domainEntry c v).isSome = true ∧
    (subnets v c.network.vnet.subnets).isSome = true ∧ (vms c v).isSome = true := by
  simp only [azhop, Option.bind_eq_bind, Option.isSome_iff_exists, Option.bind_eq_some_iff, Option.pure_def,
    Option.some.injEq]
  constructor
  · rintro ⟨_, v, hv, n, hn, a, ha, e, he, s, hs, m, hm, -⟩
    exact ⟨v, hv, ⟨n, hn⟩, ⟨a, ha⟩, ⟨e, he⟩, ⟨s, hs⟩, ⟨m, hm⟩⟩
  · rintro ⟨v, hv, ⟨n, hn⟩, ⟨a, ha⟩, ⟨e, he⟩, ⟨s, hs⟩, ⟨m, hm⟩⟩
    exact ⟨_, v, hv, n, hn, a, ha, e, he, s, hs, m, hm, rfl⟩

theorem evaluate_isSome_iff {resourcePostfix : String} : (evaluate resourcePostfix c).isSome = true ↔
    ∃ d, azhop c = some d ∧ (∀ s, c.azure_key_vault = some s → s.name.isSome = true) ∧
      (∀ s, c.azure_storage_account = some s → s.name.isSome = true) ∧
      (homedir_type c = .existing → c.mounts.home.options.isSome = true) := by
  rw [Option.isSome_iff_exists]
  simp only [evaluate, Option.bind_eq_bind, Option.bind_eq_some_iff, Option.pure_def, Option.some.injEq]
  constructor
  · rintro ⟨_, d, hd, _, hk, _, hs, _, hg, -⟩
    exact ⟨d, hd, nameOf_isSome_iff.1 (Option.isSome_iff_exists.2 ⟨_, hk⟩),
      nameOf_isSome_iff.1 (Option.isSome_iff_exists.2 ⟨_, hs⟩),
      (globalConfig_isSome_iff hd).1 (Option.isSome_iff_exists.2 ⟨_, hg⟩)⟩
  · rintro ⟨d, hd, hk, hs, hg⟩
    obtain ⟨k, hk⟩ := Option.isSome_iff_exists.1 (nameOf_isSome_iff.2 hk)
    obtain ⟨s, hs⟩ := Option.isSome_iff_exists.1 (nameOf_isSome_iff.2 hs)
    obtain ⟨g, hg⟩ := Option.isSome_iff_exists.1 ((globalConfig_isSome_iff hd).2 hg)
    exact ⟨_, d, hd, k, hk, s, hs, g, hg, rfl⟩

/-- Where everything that is read is there, the template evaluates. -/
theorem evaluates_of_readsOk {resourcePostfix : String} (h : ReadsOk c) : (evaluate resourcePostfix c).isSome = true := by
  have hvars : ∃ v, vars c = some v := by
    refine exists_vars_iff.2 ⟨fun d hd => (h.domain d hd).2, fun d hd hx => ?_⟩
    obtain ⟨e, _, he, hips, -⟩ := (h.existing_dc d hd hx).existing_dc_details
    simpa [he] using hips
  obtain ⟨v, hv⟩ := hvars
  have hsw := switches_of hv
  have hentry : (domainEntry c v).isSome = true := by
    refine (domainEntry_isSome_iff hsw).2 ⟨fun d hd => (h.domain d hd).1, fun hx => ?_⟩
    cases hd : c.domain with
    | none => simp [existingDc, hd] at hx
    | some d =>
      obtain ⟨x, hux⟩ := Option.isSome_iff_exists.1 (h.domain d hd).2
      have hxt : x = true := by simpa [existingDc, hd, hux] using hx
      have hdc := h.existing_dc d hd (hxt ▸ hux)
      obtain ⟨e, names, he, -, hnames⟩ := hdc.existing_dc_details
      exact ⟨d, rfl, hdc.domain_join_user, e, names, he, hnames⟩
  have hd : (azhop c).isSome = true := azhop_isSome_iff.2 ⟨v, hv, h.vnet.1, h.vnet.2, hentry,
    (subnets_isSome_iff hsw).2 h.subnets, (vms_isSome_iff hsw).2 ⟨h.ad, h.grafana⟩⟩
  obtain ⟨d, hd⟩ := Option.isSome_iff_exists.1 hd
  exact evaluate_isSome_iff.2 ⟨d, hd, h.azure_key_vault, h.azure_storage_account, h.options⟩

/-- A template that evaluates has found everything it read. -/
theorem readsOk_of_evaluates {resourcePostfix : String} (h : (evaluate resourcePostfix c).isSome = true) : ReadsOk c := by
  obtain ⟨d, hd, hk, hs, ho⟩ := evaluate_isSome_iff.1 h
  obtain ⟨v, hv, hname, haddr, hentry, hsubnets, hvms⟩ := azhop_isSome_iff.1 (Option.isSome_iff_exists.2 ⟨d, hd⟩)
  have hsw := switches_of hv
  obtain ⟨hflag, hips⟩ := exists_vars_iff.1 ⟨v, hv⟩
  obtain ⟨hdname, hdc⟩ := (domainEntry_isSome_iff hsw).1 hentry
  exact
    { domain := fun x hx => ⟨hdname x hx, hflag x hx⟩
      existing_dc := by
        intro x hx hux
        obtain ⟨x', hx', huser, e, names, he, hnames⟩ := hdc (by simp [existingDc, hx, hux])
        rw [hx] at hx'
        cases hx'
        have hips' := hips x hx hux
        rw [he] at hips'
        exact ⟨huser, e, names, he, hips', hnames⟩
      vnet := ⟨hname, haddr⟩
      subnets := (subnets_isSome_iff hsw).1 hsubnets
      ad := ((vms_isSome_iff hsw).1 hvms).1
      grafana := ((vms_isSome_iff hsw).1 hvms).2
      azure_key_vault := hk
      azure_storage_account := hs
      options := ho }

/-- The template evaluates exactly on the configurations that have what it reads. -/
theorem evaluates_iff (resourcePostfix : String) (c : AzhopConfig) :
    (evaluate resourcePostfix c).isSome = true ↔ ReadsOk c :=
  ⟨readsOk_of_evaluates, evaluates_of_readsOk⟩

/-- A domain section with a name only, which the schema accepts: `use_existing_dc` defaults to false there. -/
def domainNameConfig : AzhopConfig := { smallConfig with domain := some { name := "hpc.azure" } }

theorem domain_name_not_evaluated : evaluate "x" domainNameConfig = none := rfl

end AzHop.Bicep
