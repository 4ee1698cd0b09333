import AzHop.Bicep
/-!
# References inside the Bicep deployment

Every security group, subnet and port list that a rule, a VM or a module names
should be one the deployment creates. A rule block does not consult the
condition under which the things it names are created, so this holds exactly
when four switches agree with each other (`refs_ok_iff`).
-/
namespace AzHop.Bicep
open Lib.Objects

/-! ## Names used by a row -/

theorem sideAsgs_subset (v : Vars) (s : Side) {a : Asg} (h : a ∈ sideAsgs v.nsgTargetForDC s) :
    a ∈ sideAsgs (.asg .asg_ad) s := by
  cases s with
  | dc =>
    simp only [Vars.nsgTargetForDC] at h
    split at h
    · cases h
    · exact h
  | _ => exact h

theorem rowAsgs_subset (v : Vars) (r : Row) {a : Asg} (h : a ∈ rowAsgs v.nsgTargetForDC r) :
    a ∈ rowAsgs (.asg .asg_ad) r := by
  rcases List.mem_append.1 h with h | h
  · exact List.mem_append_left _ (sideAsgs_subset v _ h)
  · exact List.mem_append_right _ (sideAsgs_subset v _ h)

/-! ## What is emitted -/

/-- The rows of all blocks. -/
def templateRows : Rows :=
  [nsg_rules.«default», nsg_rules.ad, nsg_rules.ad_anf, nsg_rules.internet, nsg_rules.hub, nsg_rules.bastion,
    nsg_rules.gateway, nsg_rules.anf, nsg_rules.lustre, nsg_rules.grafana, nsg_rules.ondemand, nsg_rules.mysql,
    nsg_rules.deployer].flatten

set_option maxRecDepth 10000 in
/-- No two rows of the template have the same name. -/
theorem templateRows_names_nodup : (keys templateRows).Nodup := nodup_of_nameCode (by decide +kernel)

set_option maxRecDepth 10000 in
theorem templateRows_allowFirst : AllowFirst templateRows := by unfold AllowFirst; decide

def template : Template Vars where
  blocks := nsgBlocks
  rows := templateRows
  rows_eq _ := rfl
  names_nodup := templateRows_names_nodup
  allow_first := templateRows_allowFirst

theorem mem_nsgRules {v : Vars} {x : String × Row} :
    x ∈ nsgRules v ↔ ∃ b ∈ nsgBlocks v, b.1 = true ∧ x ∈ b.2 :=
  template.mem_rules

theorem mem_templateRows {v : Vars} {x : String × Row} (h : x ∈ nsgRules v) : x ∈ templateRows := template.mem_rows h

theorem nsgRules_allowFirst (v : Vars) : AllowFirst (nsgRules v) := template.rules_allowFirst v

/-- Where each part of a deployment comes from. -/
structure Parts (c : AzhopConfig) (d : Deployment) : Prop where
  vars : vars c = some d.vars
  subnets : subnets d.vars c.network.vnet.subnets = some d.subnets
  vms : vms c d.vars = some d.vms
  asg_names : d.asg_names = asg_names d.vars
  service_ports : d.service_ports = service_ports d.vars
  nsgRules : d.nsgRules = nsgRules d.vars
  modules : d.modules = (gated (moduleEntries c d.vars)).flatten

theorem azhop_parts {c : AzhopConfig} {d : Deployment} (h : azhop c = some d) : Parts c d := by
  simp only [azhop, Option.bind_eq_bind, Option.bind_eq_some_iff, Option.pure_def, Option.some.injEq] at h
  obtain ⟨v, hv, _, -, _, -, _, -, ss, hss, vs, hvs, rfl⟩ := h
  exact ⟨hv, hss, hvs, rfl, rfl, rfl, rfl⟩

/-- The subnets the deployment has. -/
theorem mem_subnets {c : AzhopConfig} {d : Deployment} (h : azhop c = some d) (k : SubnetKey) :
    k ∈ keys d.subnets ↔ match k with
      | .frontend | .admin | .compute => True
      | .database => d.vars.createDatabase = true
      | .netapp => d.vars.create_anf = true
      | .lustre => d.vars.deployLustre = true
      | .ad => d.vars.createAD = true
      | .bastion => c.network.vnet.subnets.bastion.isSome = true
      | .outbounddns => c.network.vnet.subnets.outbounddns.isSome = true
      | .gateway => c.network.vnet.subnets.gateway.isSome = true := by
  rw [mem_keys_build (azhop_parts h).subnets]
  cases k <;> simp [subnetEntries]

/-- The security groups the deployment has. -/
theorem mem_asg_names (v : Vars) (a : Asg) :
    a ∈ asg_names v ↔ match a with
      | .asg_ssh | .asg_jumpbox | .asg_sched | .asg_cyclecloud | .asg_cyclecloud_client | .asg_nfs_client => True
      | .asg_lustre_client => v.deployLustre = true
      | .asg_grafana | .asg_telegraf => v.deployGrafana = true
      | .asg_rdp | .asg_ad | .asg_ad_client => v.userAuth = .ad
      | .asg_ondemand => v.deployOnDemand = true
      | .asg_mysql_client => v.createDatabase = true
      | .asg_deployer => v.deployDeployer = true ∨ v.cycleCloudAsDeployer = true
      | .asg_mariadb_client => False := by
  cases a <;> simp [asg_names]

/-! ## Integrity -/

structure RefsOk (d : Deployment) : Prop where
  rule_asgs : ∀ x ∈ d.nsgRules, ∀ a ∈ rowAsgs d.vars.nsgTargetForDC x.2, a ∈ d.asg_names
  rule_subnets : ∀ x ∈ d.nsgRules, ∀ k ∈ rowSubnets x.2, k ∈ keys d.subnets
  rule_ports : ∀ x ∈ d.nsgRules, x.2.ports ∈ keys d.service_ports
  vm_asgs : ∀ x ∈ d.vms, ∀ a ∈ x.2.asgs, a ∈ d.asg_names
  vm_subnets : ∀ x ∈ d.vms, x.2.subnet ∈ keys d.subnets
  module_subnets : ∀ x ∈ d.modules, ∀ k ∈ x.2, k ∈ keys d.subnets

/-- The switches that must agree. -/
structure SwitchesAgree (c : AzhopConfig) : Prop where
  grafana : deployGrafana c = true → deployOnDemand c = true
  gateway : created c.vpn_gateway = true → deployOnDemand c = true ∧ c.network.vnet.subnets.gateway.isSome = true
  bastion : created c.bastion = true → c.network.vnet.subnets.bastion.isSome = true
  ad_ha : highAvailabilityForAD c = true → useExistingAD c = some false ∧ userAuth c = .ad

section
variable {c : AzhopConfig} {d : Deployment}

/-- The variables as functions of the configuration. -/
structure VarsOf (c : AzhopConfig) (v : Vars) : Prop where
  deployLustre : v.deployLustre = deployLustre c
  deployGrafana : v.deployGrafana = deployGrafana c
  deployOnDemand : v.deployOnDemand = deployOnDemand c
  deploy_gateway : v.deploy_gateway = created c.vpn_gateway
  deploy_bastion : v.deploy_bastion = created c.bastion
  highAvailabilityForAD : v.highAvailabilityForAD = highAvailabilityForAD c
  useExistingAD : useExistingAD c = some v.useExistingAD
  userAuth : v.userAuth = userAuth c

theorem vars_of (h : azhop c = some d) : VarsOf c d.vars := by
  have hv := (azhop_parts h).vars
  simp only [vars, Option.bind_eq_bind, Option.bind_eq_some_iff, Option.pure_def, Option.some.injEq] at hv
  obtain ⟨ex, hex, ips, -, hv⟩ := hv
  rw [← hv]
  exact ⟨rfl, rfl, rfl, rfl, rfl, rfl, hex, rfl⟩

/-- A block whose groups, subnets and port lists are those of `as`, `ks` and
`ps` is sound when these exist. -/
theorem block_ok {v : Vars} {ks : List SubnetKey} (b : Rows) (as : List Asg) (ss : List SubnetKey)
    (hb : ∀ x ∈ b, (∀ a ∈ rowAsgs (.asg .asg_ad) x.2, a ∈ as) ∧ ∀ k ∈ rowSubnets x.2, k ∈ ss)
    (has : ∀ a ∈ as, a ∈ asg_names v) (hss : ∀ k ∈ ss, k ∈ ks) {x : String × Row} (hx : x ∈ b) :
    (∀ a ∈ rowAsgs v.nsgTargetForDC x.2, a ∈ asg_names v) ∧ ∀ k ∈ rowSubnets x.2, k ∈ ks :=
  ⟨fun a ha => has a ((hb x hx).1 a (rowAsgs_subset v x.2 ha)), fun k hk => hss k ((hb x hx).2 k hk)⟩

/-- Where the switches agree, every row names what exists. -/
theorem rows_ok (h : azhop c = some d) (hs : SwitchesAgree c) {x : String × Row} (hx : x ∈ d.nsgRules) :
    (∀ a ∈ rowAsgs d.vars.nsgTargetForDC x.2, a ∈ asg_names d.vars) ∧ ∀ k ∈ rowSubnets x.2, k ∈ keys d.subnets := by
  have hv := vars_of h
  have has := mem_asg_names d.vars
  have hks := mem_subnets h
  rw [(azhop_parts h).nsgRules, mem_nsgRules] at hx
  obtain ⟨b, hb, hc, hx⟩ := hx
  simp only [nsgBlocks, List.mem_cons, List.not_mem_nil, or_false] at hb
  rcases hb with rfl | rfl | rfl | rfl | rfl | rfl | rfl | rfl | rfl | rfl | rfl | rfl | rfl <;> dsimp only at hc hx
  · exact block_ok nsg_rules.«default» [.asg_ssh, .asg_jumpbox, .asg_sched, .asg_cyclecloud, .asg_cyclecloud_client] [.compute]
      (by decide) (by simp [has]) (by simp [hks]) hx
  · exact block_ok nsg_rules.ad [.asg_ad, .asg_ad_client, .asg_rdp, .asg_jumpbox] [.compute]
      (by decide) (by simpa [has] using hc) (by simp [hks]) hx
  · have hc' : d.vars.userAuth = .ad ∧ d.vars.create_anf = true := by simpa using hc
    exact block_ok nsg_rules.ad_anf [.asg_ad] [.netapp] (by decide) (by simp [has, hc'.1]) (by simp [hks, hc'.2]) hx
  · exact block_ok nsg_rules.internet [.asg_jumpbox] [.frontend] (by decide) (by simp [has]) (by simp [hks]) hx
  · exact block_ok nsg_rules.hub [] [] (by decide) (by simp) (by simp) hx
  · exact block_ok nsg_rules.bastion [] [.bastion]
      (by decide) (by simp) (by simp [hks, hs.bastion (hv.deploy_bastion ▸ hc)]) hx
  · have hgw' := hs.gateway (hv.deploy_gateway ▸ hc)
    exact block_ok nsg_rules.gateway [.asg_ondemand] [.gateway]
      (by decide) (by simp [has, hv.deployOnDemand, hgw'.1]) (by simp [hks, hgw'.2]) hx
  · exact block_ok nsg_rules.anf [.asg_nfs_client] [.compute, .netapp]
      (by decide) (by simp [has]) (by simp [hks, hc]) hx
  · exact block_ok nsg_rules.lustre [.asg_lustre_client] [.compute, .lustre]
      (by decide) (by simp [has, hc]) (by simp [hks, hc]) hx
  · exact block_ok nsg_rules.grafana [.asg_telegraf, .asg_grafana, .asg_ondemand] [.compute]
      (by decide) (by simp [has, hc, hv.deployOnDemand, hs.grafana (hv.deployGrafana ▸ hc)]) (by simp [hks]) hx
  · exact block_ok nsg_rules.ondemand [.asg_ondemand, .asg_cyclecloud] [.compute]
      (by decide) (by simp [has, hc]) (by simp [hks]) hx
  · exact block_ok nsg_rules.mysql [.asg_mysql_client] [.database]
      (by decide) (by simp [has, hc]) (by simp [hks, hc]) hx
  · exact block_ok nsg_rules.deployer [.asg_deployer, .asg_ssh] [.admin]
      (by decide) (by simp [has, hc]) (by simp [hks]) hx

theorem mem_clientAsgs {cond : Bool} {a b : Asg} : a ∈ clientAsgs cond b ↔ a = b ∧ cond = true := by
  cases cond <;> simp [clientAsgs]

theorem adVm_eq {name : Ad → Option String} {default : String} {x : VmEntry} (h : adVm c name default = some x) :
    x.subnet = .ad ∧ x.asgs = [.asg_ad, .asg_rdp, .asg_ad_client] := by
  simp only [adVm, Option.bind_eq_bind, Option.bind_eq_some_iff, Option.pure_def, Option.some.injEq] at h
  obtain ⟨ad, -, sku, -, rfl⟩ := h
  exact ⟨rfl, rfl⟩

/-- A domain controller needs the controllers to be the deployment's own. -/
theorem adVm_ok (h : azhop c = some d) (had : d.vars.createAD = true) {name : Ad → Option String}
    {default : String} {x : VmEntry} (hx : adVm c name default = some x) :
    (∀ a ∈ x.asgs, a ∈ asg_names d.vars) ∧ x.subnet ∈ keys d.subnets := by
  obtain ⟨hsub, hasg⟩ := adVm_eq hx
  have hu : d.vars.userAuth = .ad := by simpa using (Bool.and_eq_true_iff.1 had).2
  refine ⟨?_, ?_⟩
  · simp [hasg, mem_asg_names, hu]
  · simpa [hsub, mem_subnets h] using had

theorem vms_ok (h : azhop c = some d) (hs : SwitchesAgree c) {n : String} {vm : VmEntry} (hx : (n, vm) ∈ d.vms) :
    (∀ a ∈ vm.asgs, a ∈ asg_names d.vars) ∧ vm.subnet ∈ keys d.subnets := by
  have hv := vars_of h
  have has := mem_asg_names d.vars
  have hks := mem_subnets h
  obtain ⟨e, he, hc, -, hx⟩ := mem_build (azhop_parts h).vms hx
  simp only [vmEntries, List.mem_cons, List.not_mem_nil, or_false] at he
  rcases he with rfl | rfl | rfl | rfl | rfl | rfl | rfl | rfl <;> dsimp only at hc hx
  · obtain ⟨o, -, rfl⟩ := Option.map_eq_some_iff.1 hx
    simp [mem_clientAsgs, Vars.telegraf, Vars.adClient, or_imp, forall_and, has, hks, hc]
  · obtain rfl := Option.some.inj hx
    cases hcc : d.vars.cycleCloudAsDeployer <;> cases ho : d.vars.deployOnDemand <;>
      simp [mem_clientAsgs, Vars.telegraf, Vars.adClient, or_imp, forall_and, has, hks, hcc]
  · obtain rfl := Option.some.inj hx
    simp [mem_clientAsgs, Vars.telegraf, Vars.adClient, or_imp, forall_and, has, hks]
  · exact adVm_ok h hc hx
  · obtain ⟨o, -, rfl⟩ := Option.map_eq_some_iff.1 hx
    simp [mem_clientAsgs, Vars.telegraf, or_imp, forall_and, has, hks, hc]
  · -- the second controller has its own switch
    obtain ⟨hne, hu⟩ := hs.ad_ha (hv.highAvailabilityForAD ▸ hc)
    rw [hv.useExistingAD, Option.some.injEq] at hne
    exact adVm_ok h (by simp [Vars.createAD, hne, hv.userAuth, hu]) hx
  · obtain ⟨o, -, rfl⟩ := Option.map_eq_some_iff.1 hx
    simp [mem_clientAsgs, Vars.telegraf, or_imp, forall_and, has, hks]
  · obtain ⟨o, -, rfl⟩ := Option.map_eq_some_iff.1 hx
    simp [mem_clientAsgs, Vars.adClient, or_imp, forall_and, has, hks, hc]

theorem modules_ok (h : azhop c = some d) (hs : SwitchesAgree c) {x : String × List SubnetKey} (hx : x ∈ d.modules) :
    ∀ k ∈ x.2, k ∈ keys d.subnets := by
  have hv := vars_of h
  have hks := mem_subnets h
  rw [(azhop_parts h).modules, gated, List.mem_flatten] at hx
  obtain ⟨l, hl, hx⟩ := hx
  obtain ⟨b, hb, rfl⟩ := List.mem_map.1 hl
  split at hx
  · rename_i hc
    simp only [moduleEntries, List.mem_cons, List.not_mem_nil, or_false] at hb
    rcases hb with rfl | rfl | rfl | rfl | rfl | rfl | rfl | rfl <;> dsimp only at hc hx <;>
      obtain rfl := List.mem_singleton.1 hx
    · simp [hks, hs.bastion (hv.deploy_bastion ▸ hc)]
    · simp [hks]
    · simp [hks]
    · simp [hks, hc]
    · simp [hks, (hs.gateway (hv.deploy_gateway ▸ hc)).2]
    · simp [hks, hc]
    · simp [hks, hc]
    · simp [hks]
  · cases hx

theorem mem_service_ports (v : Vars) {k : PortKey} (h : k ≠ .Public_Ssh ∧ k ≠ .Sched) :
    k ∈ keys (service_ports v) := by
  cases k <;> simp_all [service_ports]

set_option maxRecDepth 10000 in
theorem ports_ok (v : Vars) {x : String × Row} (hx : x ∈ nsgRules v) : x.2.ports ∈ keys (service_ports v) := by
  have hall : ∀ x ∈ templateRows, x.2.ports ≠ .Public_Ssh ∧ x.2.ports ≠ .Sched := by decide
  exact mem_service_ports v (hall x (mem_templateRows hx))

theorem refs_ok_of_agree (h : azhop c = some d) (hs : SwitchesAgree c) : RefsOk d := by
  have ha := (azhop_parts h).asg_names
  have hp := (azhop_parts h).service_ports
  have hr := (azhop_parts h).nsgRules
  exact
    { rule_asgs := fun x hx => by rw [ha]; exact (rows_ok h hs hx).1
      rule_subnets := fun x hx => (rows_ok h hs hx).2
      rule_ports := fun x hx => by rw [hp]; exact ports_ok _ (hr ▸ hx)
      vm_asgs := fun x hx => by rw [ha]; exact (vms_ok h hs hx).1
      vm_subnets := fun x hx => (vms_ok h hs hx).2
      module_subnets := fun x hx => modules_ok h hs hx }

theorem resolve_of_mem {s : Side} (hs : ∀ k ∈ sideSubnets s, k ∈ keys d.subnets) : ∃ t, resolve d s = some t := by
  cases s with
  | subnet k =>
    obtain ⟨x, hx⟩ := Option.isSome_iff_exists.1 ((get?_isSome_iff d.subnets k).2 (hs k List.mem_cons_self))
    exact ⟨_, by simp [resolve, hx]; rfl⟩
  | _ => exact ⟨_, rfl⟩

/-- With sound references `network.bicep` resolves every rule. -/
theorem securityRules_of_refs_ok (hr : RefsOk d) : ∃ rules, securityRules d = some rules := by
  apply mapM_of_forall
  intro x hx
  obtain ⟨ps, hps⟩ := Option.isSome_iff_exists.1 ((get?_isSome_iff _ _).2 (hr.rule_ports x hx))
  obtain ⟨s, hs⟩ := resolve_of_mem (fun k hk => hr.rule_subnets x hx k (List.mem_append_left _ hk))
  obtain ⟨t, ht⟩ := resolve_of_mem (fun k hk => hr.rule_subnets x hx k (List.mem_append_right _ hk))
  exact ⟨_, by simp [securityRule, hps, hs, ht]; rfl⟩

/-- A row of a block whose condition holds is emitted. -/
theorem emitted (h : azhop c = some d) (b : Bool × Rows) (hb : b ∈ nsgBlocks d.vars) (hc : b.1 = true)
    {x : String × Row} (hx : x ∈ b.2) : x ∈ d.nsgRules := by
  rw [(azhop_parts h).nsgRules]
  exact mem_nsgRules.2 ⟨b, hb, hc, hx⟩

theorem agree_of_refs_ok (h : azhop c = some d) (hr : RefsOk d) : SwitchesAgree c := by
  have hv := vars_of h
  have hvm := (azhop_parts h).vms
  have hond : Asg.asg_ondemand ∈ d.asg_names → deployOnDemand c = true := by
    intro hmem
    rw [(azhop_parts h).asg_names, mem_asg_names] at hmem
    rw [← hv.deployOnDemand]
    exact hmem
  constructor
  · intro hc
    have hrow := emitted h (d.vars.deployGrafana, nsg_rules.grafana) (by simp [nsgBlocks]) (hv.deployGrafana.trans hc)
      (x := ("AllowGrafanaIn", ⟨510, .Inbound, .Allow, .Tcp, .Grafana, .asg .asg_ondemand, .asg .asg_grafana⟩))
      (by simp [nsg_rules.grafana])
    exact hond (hr.rule_asgs _ hrow _ (by simp [rowAsgs, sideAsgs]))
  · intro hc
    have hrow := emitted h (d.vars.deploy_gateway, nsg_rules.gateway) (by simp [nsgBlocks]) (hv.deploy_gateway.trans hc)
      (List.mem_singleton_self _)
    refine ⟨hond (hr.rule_asgs _ hrow _ (by simp [rowAsgs, sideAsgs])), ?_⟩
    exact (mem_subnets h .gateway).1 (hr.rule_subnets _ hrow _ (by simp [rowSubnets, sideSubnets]))
  · intro hc
    have hrow := emitted h (d.vars.deploy_bastion, nsg_rules.bastion) (by simp [nsgBlocks]) (hv.deploy_bastion.trans hc)
      List.mem_cons_self
    exact (mem_subnets h .bastion).1 (hr.rule_subnets _ hrow _ (by simp [rowSubnets, sideSubnets]))
  · intro hc
    have hkey : "ad2" ∈ keys d.vms := by
      rw [mem_keys_build hvm]
      exact ⟨(d.vars.highAvailabilityForAD, "ad2", adVm c Ad.ha_name "ad2"), by simp [vmEntries],
        hv.highAvailabilityForAD.trans hc, rfl⟩
    obtain ⟨⟨n, vm⟩, hmem, rfl⟩ := List.mem_map.1 hkey
    have hsub : vm.subnet = .ad := by
      obtain ⟨e, he, -, hn, hx⟩ := mem_build hvm hmem
      simp only [vmEntries, List.mem_cons, List.not_mem_nil, or_false] at he
      rcases he with rfl | rfl | rfl | rfl | rfl | rfl | rfl | rfl <;> simp at hn
      exact (adVm_eq hx).1
    have hin := hr.vm_subnets _ hmem
    rw [hsub, mem_subnets h] at hin
    obtain ⟨hne, hu⟩ := Bool.and_eq_true_iff.1 hin
    exact ⟨by simpa [hv.useExistingAD] using hne, by simpa [hv.userAuth] using hu⟩

/-- The references of a deployment are sound exactly when the switches agree. -/
theorem refs_ok_iff (h : azhop c = some d) : RefsOk d ↔ SwitchesAgree c :=
  ⟨agree_of_refs_ok h, refs_ok_of_agree h⟩

end

theorem refs_ok_iff_small : ∃ d, azhop smallConfig = some d ∧ (RefsOk d ↔ SwitchesAgree smallConfig) :=
  ⟨_, rfl, refs_ok_iff rfl⟩

/-- Grafana without Open OnDemand, the default for `monitoring`. -/
def grafanaConfig : AzhopConfig :=
  { smallConfig with monitoring := none, grafana := some { vm_size := "Standard_D2as_v5" } }

/-- The rule `AllowGrafanaIn` names `asg-ondemand`, which is not created. -/
theorem grafana_refs_broken : ∃ d, azhop grafanaConfig = some d ∧ ¬ RefsOk d := by
  refine ⟨_, rfl, fun hr => ?_⟩
  have hg := (agree_of_refs_ok (c := grafanaConfig) rfl hr).grafana rfl
  exact Bool.false_ne_true hg

end AzHop.Bicep
