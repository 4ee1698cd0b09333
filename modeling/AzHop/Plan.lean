import AzHop.Terraform
/-!
# The instances of the Terraform root module

A resource of the root module has as many instances as its `count` or
`for_each` says, which the locals compute from the configuration. An expression
that takes instance `[0]` of a resource, or a key of a map of resources, is an
error when there is no such instance, and Terraform finds out only for the
configuration it plans.

Here are the blocks of `src/tf` that refer to instances or are referred to,
with the number of their own instances (`count`) and the references each
instance evaluates (`refs`): a reference in the branch of a conditional that is
not taken is not evaluated. `plan_ok_iff` says for which configurations every
evaluated reference has its instance.
-/
namespace AzHop.Terraform
open Lib.Objects

/-! ## More switches -/

/-- `optout_telemetry`: telemetry is on by default. -/
def optout_telemetry (c : AzhopConfig) : Bool := c.optout_telemetry.getD false

/-- `log_analytics.create`. -/
def create_log_analytics_workspace (c : AzhopConfig) : Bool := (c.log_analytics.map (·.create)).getD false

/-- `log_analytics_workspace_id != null`: the template string with a null part
is an error, and `try` makes it null. -/
def use_existing_ws (c : AzhopConfig) : Bool :=
  !create_log_analytics_workspace c && (c.log_analytics.bind (·.resource_group)).isSome &&
    (c.log_analytics.bind (·.name)).isSome

/-- There is a workspace for the logs, created or given. -/
def monitor (c : AzhopConfig) : Bool := create_log_analytics_workspace c || use_existing_ws c

/-- The monitoring agent is installed. -/
def ama_install (c : AzhopConfig) : Bool := (c.monitoring.bind (·.azure_monitor_agent)).getD true && monitor c

/-- `alerting.admin_email`, or an address that stands for none. -/
def alert_email (c : AzhopConfig) : String := (c.alerting.bind (·.admin_email)).getD "admin.mail@contoso.com"

/-- Alerts need a workspace and an address to send them to. -/
def create_alerts (c : AzhopConfig) : Bool :=
  monitor c && alert_email c ≠ "admin.mail@contoso.com" && (c.alerting.map (·.enabled)).getD false

/-- `use_existing_rg`. -/
def use_existing_rg (c : AzhopConfig) : Bool := c.use_existing_rg.getD false

/-- `try(split("/", vnet_id)[4], resource_group)`. -/
def vnet_resource_group (c : AzhopConfig) : String :=
  (c.network.vnet.id.bind (fun id => (id.splitOn "/")[4]?)).getD c.resource_group

/-- The resource group is created unless it exists already. -/
def create_rg (c : AzhopConfig) : Bool :=
  !use_existing_rg c && (create_vnet c || vnet_resource_group c ≠ c.resource_group)

/-- `create_<key>_subnet`. -/
def create_subnet (c : AzhopConfig) : SubnetKey → Bool
  | .frontend => create_frontend_subnet c
  | .admin => create_admin_subnet c
  | .netapp => create_netapp_subnet c
  | .ad => create_ad_subnet c
  | .compute => create_compute_subnet c
  | .bastion => create_bastion_subnet c
  | .gateway => create_gateway_subnet c
  | .outbounddns => create_outbounddns_subnet c
  | .database => create_database_subnet c
  | .lustre => false

/-! ## Machines -/

/-- The virtual machines of the root module. -/
inductive Machine
  | ad
  | ad2
  | ccportal
  | grafana
  | jumpbox
  | ondemand
  | scheduler
  deriving DecidableEq

/-- `count` of a machine, as a condition. -/
def create_machine (c : AzhopConfig) : Machine → Bool
  | .ad => create_ad c
  | .ad2 => ad_ha c
  | .ccportal | .scheduler => true
  | .grafana => create_grafana c
  | .jumpbox => jumpbox_enabled c
  | .ondemand => create_ondemand c

/-- The subnet of the network interface of a machine. -/
def machine_subnet : Machine → SubnetKey
  | .ad | .ad2 => .ad
  | .jumpbox | .ondemand => .frontend
  | .ccportal | .grafana | .scheduler => .admin

/-- The machines with an `AzureMonitorLinuxAgent` and alerts. -/
def monitored : Machine → Bool
  | .ad | .ad2 => false
  | _ => true

/-- `asg_associations`; the second controller uses those of the first. -/
def asg_associations (c : AzhopConfig) : Machine → List Asg
  | .ad | .ad2 => [.asg_ad, .asg_rdp, .asg_ad_client]
  | .ccportal => [.asg_ssh, .asg_cyclecloud] ++ (if create_grafana c then [.asg_telegraf] else []) ++
      if use_ad c then [.asg_ad_client] else []
  | .grafana => [.asg_ssh, .asg_grafana, .asg_telegraf, .asg_nfs_client] ++ if use_ad c then [.asg_ad_client] else []
  | .jumpbox => [.asg_ssh, .asg_jumpbox] ++ if create_grafana c then [.asg_telegraf] else []
  | .ondemand => [.asg_ssh, .asg_ondemand, .asg_nfs_client, .asg_sched, .asg_cyclecloud_client] ++
      (if create_grafana c then [.asg_telegraf] else []) ++ (if lustre_enabled then [.asg_lustre_client] else []) ++
      if use_ad c then [.asg_ad_client] else []
  | .scheduler => [.asg_ssh, .asg_sched, .asg_cyclecloud_client, .asg_nfs_client] ++
      (if create_grafana c then [.asg_telegraf] else []) ++ (if use_ad c then [.asg_ad_client] else []) ++
      if use_database c then [.asg_mysql_client] else []

/-! ## Blocks -/

/-- The `azurerm_private_dns_srv_record`s. -/
inductive SrvRecord
  | ldap_tcp
  | kpasswd_tcp
  | kerberos_tcp
  | gc_tcp
  | kerberos_udp
  | kpasswd_udp
  | ldap_tcpdc_msdcs
  | kerberos_tcpdc_msdcs
  | ldap_tcp_gc_msdcs
  | ldap_tcppdc_msdcs
  | ldapdefault_first_site_name_sitesdc_msdcs
  | kerberosdefault_first_site_name_sitesdc_msdcs
  | ldapdefault_first_site_name_sitesgc_msdcs

/-- The blocks, by file. `data_` marks a data source; the other names are those
of the resources, after their types where a type is used once. -/
inductive Address
  -- variables_local.tf
  | locals
  -- main.tf
  | data_rg
  | rg
  | storage_account
  | telemetry
  -- network.tf
  | data_vnet
  | vnet
  | data_subnet (k : SubnetKey)
  | subnet (k : SubnetKey)
  -- network_security_group.tf
  | asgs
  | data_asgs
  | data_subnets
  | nsg_common
  | nsg_association (k : SubnetKey)
  -- ad.tf, ccportal.tf, grafana.tf, jumpbox.tf, ondemand.tf, scheduler.tf
  | data_key_vault
  | data_key_vault_secret
  | pip (m : Machine)
  | nic (m : Machine)
  | vm (m : Machine)
  | asg_association (m : Machine)
  | monitor_agent (m : Machine)
  | dcra_metrics (m : Machine)
  | dcra_insights (m : Machine)
  | volume_alert (m : Machine)
  | ccportal_datadisk
  | ccportal_rg
  | ccportal_service_alert
  -- anf.tf, azurefiles.tf
  | netapp_account
  | netapp_pool
  | netapp_volume
  | anf_alert
  | nfsfiles
  | nfs_files_home
  -- keyvault.tf, monitor.tf, mysql.tf
  | key_vault
  | workspace
  | action_group
  | vm_data_collection_rule
  | vm_insights_collection_rule
  | vm_availability_alert
  | mysql
  | db_password
  | database_password
  -- nat_gateway.tf
  | natgateway
  | pip_natgateway
  | natgateway_pip_association
  | natgateway_association (k : SubnetKey)
  -- network_peering.tf
  | data_peernetwork
  | azhop_to_peer
  | peer_to_azhop
  -- private_dns.tf
  | private_dns_zone
  | dns_link
  | a_record_ad
  | a_record_ad2
  | srv_record (s : SrvRecord)
  -- private_dns_resolver.tf, sig.tf
  | dns_resolver
  | outbound_endpoint
  | forwarding_ruleset
  | resolver_vnet_link
  | sig
  -- outputs.tf
  | inventory
  | global_variables
  | connect_script
  | packer_pip

/-- The number of instances of a block. -/
def count (c : AzhopConfig) : Address → Nat
  | .locals | .storage_account | .ccportal_datadisk | .ccportal_rg | .key_vault => 1
  | .inventory | .global_variables | .connect_script | .packer_pip => 1
  | .data_rg => if create_rg c then 0 else 1
  | .rg => if create_rg c then 1 else 0
  | .telemetry => if optout_telemetry c then 0 else 1
  | .data_vnet => if create_vnet c then 0 else 1
  | .vnet => if create_vnet c then 1 else 0
  | .data_subnet k => if create_subnet c k then 0 else match k with
    | .frontend | .admin | .netapp | .compute => 1
    | .database => if no_database_subnet c then 0 else 1
    | .ad => if create_ad c then 1 else 0
    | .bastion => if no_bastion_subnet c then 0 else 1
    | .gateway => if no_gateway_subnet c then 0 else 1
    | .outbounddns => if create_ad c then (if no_outbounddns_subnet c then 0 else 1) else 0
    | .lustre => 0
  | .subnet k => if create_subnet c k then match k with
    | .bastion => if no_bastion_subnet c then 0 else 1
    | .gateway => if no_gateway_subnet c then 0 else 1
    | .outbounddns => if no_outbounddns_subnet c then 0 else 1
    | _ => 1
    else 0
  | .asgs => if create_nsg c then (asgs c).length else 0
  | .data_asgs => if create_nsg c then 0 else (asgs c).length
  | .data_subnets => (subnets c).length
  | .nsg_common => if create_nsg c then 1 else 0
  | .nsg_association k => if k ∈ nsgAssociations c then 1 else 0
  | .data_key_vault | .data_key_vault_secret => if use_existing_ad c then 1 else 0
  | .pip m => match m with
    | .jumpbox | .ondemand => if allow_public_ip c && create_machine c m then 1 else 0
    | _ => 0
  | .nic m | .vm m => if create_machine c m then 1 else 0
  | .asg_association m => if create_machine c m then (asg_associations c m).dedup.length else 0
  | .monitor_agent m => if monitored m && create_machine c m && ama_install c then 1 else 0
  | .dcra_metrics m | .dcra_insights m => if monitored m && create_machine c m && monitor c then 1 else 0
  | .volume_alert m => if monitored m && create_machine c m && create_alerts c then 1 else 0
  | .netapp_account | .netapp_pool | .netapp_volume => if create_anf c then 1 else 0
  | .anf_alert => if create_anf c && create_alerts c then 1 else 0
  | .nfsfiles | .nfs_files_home => if create_nfsfiles c then 1 else 0
  | .workspace => if create_log_analytics_workspace c then 1 else 0
  | .vm_data_collection_rule | .vm_insights_collection_rule => if monitor c then 1 else 0
  | .ccportal_service_alert | .action_group | .vm_availability_alert => if create_alerts c then 1 else 0
  | .mysql | .db_password | .database_password => if create_database c then 1 else 0
  | .natgateway | .pip_natgateway | .natgateway_pip_association => if create_nat_gateway c then 1 else 0
  | .natgateway_association k => match k with
    | .frontend | .admin | .compute | .ad => if create_nat_gateway c && create_subnet c k then 1 else 0
    | _ => 0
  | .data_peernetwork | .azhop_to_peer | .peer_to_azhop => (vnet_peering c).length
  | .private_dns_zone | .dns_link => if create_private_dns c then 1 else 0
  | .a_record_ad | .srv_record _ => if create_dns_records c then 1 else 0
  | .a_record_ad2 => if ad_ha c then 1 else 0
  | .dns_resolver | .outbound_endpoint => if create_outbounddns_subnet c || create_dnsfw_rules c then 1 else 0
  | .forwarding_ruleset | .resolver_vnet_link => if create_dnsfw_rules c then 1 else 0
  | .sig => if create_sig c then 1 else 0

/-! ## References -/

/-- A reference to an instance: of a block with a count, or of a map by key.
The resources `azurerm_application_security_group.asg` are `managed`, the data
sources of that name are not. -/
inductive Ref
  | idx (a : Address) (i : Nat)
  | asg (managed : Bool) (key : Asg)
  | subnets (key : SubnetKey)
  | ports (key : PortKey)

/-- What an expression refers to is in the plan. -/
def Present (c : AzhopConfig) : Ref → Prop
  | .idx a i => i < count c a
  | .asg managed key => key ∈ if create_nsg c = managed then keys (asgs c) else []
  | .subnets key => key ∈ keys (subnets c)
  | .ports key => key ∈ keys (nsg_destination_ports c)

/-- `local.create_rg ? azurerm_resource_group.rg[0] : data.azurerm_resource_group.rg[0]`. -/
def rg_ref (c : AzhopConfig) : List Ref := if create_rg c then [.idx .rg 0] else [.idx .data_rg 0]

/-- The two branches of the same choice for `azurerm_virtual_network.azhop`. -/
def vnet_ref (c : AzhopConfig) : List Ref := if create_vnet c then [.idx .vnet 0] else [.idx .data_vnet 0]

/-- The two branches of a local such as `frontend_subnet`. -/
def subnet_ref (c : AzhopConfig) (k : SubnetKey) : List Ref :=
  if create_subnet c k then [.idx (.subnet k) 0] else [.idx (.data_subnet k) 0]

/-- The machines without a count are referred to without an index. -/
def machine_ref (block : Machine → Address) : Machine → List Ref
  | .ccportal | .scheduler => []
  | m => [.idx (block m) 0]

/-- `local.allow_public_ip ? jumpbox-pip[0] : (local.jumpbox_enabled ? jumpbox-nic[0] : ..)`. -/
def jumpbox_ref (c : AzhopConfig) : List Ref :=
  if allow_public_ip c then [.idx (.pip .jumpbox) 0]
  else if jumpbox_enabled c then [.idx (.nic .jumpbox) 0] else []

/-- What `local.ad_nsg_index` names. -/
def ad_target (c : AzhopConfig) : Target := if use_existing_ad c then .any else .asg .asg_ad

/-- What a row looks up. -/
def rule_refs (c : AzhopConfig) (r : Row) : List Ref :=
  .ports r.ports :: (rowAsgs (ad_target c) r).map (.asg true) ++ (rowSubnets r).map .subnets

/-- The references an instance of a block evaluates. -/
def refs (c : AzhopConfig) : Address → List Ref
  | .locals =>
    (if use_existing_ad c then [.idx .data_key_vault_secret 0] else []) ++
      if use_existing_ad c then [] else if create_ad c then
        (if ad_ha c then [.idx (.nic .ad) 0, .idx (.nic .ad2) 0] else [.idx (.nic .ad) 0]) else []
  | .data_rg | .rg | .data_vnet | .data_subnet _ | .data_key_vault | .db_password => []
  | .storage_account => rg_ref c ++ if locked_down_network c then subnet_ref c .admin ++ subnet_ref c .compute else []
  | .vnet | .telemetry | .pip _ | .ccportal_datadisk | .ccportal_rg | .netapp_account | .workspace | .action_group
  | .natgateway | .pip_natgateway | .private_dns_zone | .sig => rg_ref c
  | .subnet _ => vnet_ref c
  | .asgs => if create_nsg c then rg_ref c else [.idx .data_rg 0]
  | .data_asgs => if create_nsg c then [.idx .rg 0] else []
  | .data_subnets => if create_vnet c then rg_ref c ++ [.idx .vnet 0] else [.idx .data_vnet 0]
  | .nsg_common => rg_ref c ++ if create_nsg c then (nsg_rules c).flatMap (fun x => rule_refs c x.2) else []
  | .nsg_association k => subnet_ref c k ++ [.idx .nsg_common 0]
  | .data_key_vault_secret => [.idx .data_key_vault 0]
  | .nic m => rg_ref c ++ subnet_ref c (machine_subnet m) ++ match m with
    | .jumpbox | .ondemand => if allow_public_ip c then [.idx (.pip m) 0] else []
    | _ => []
  | .vm m => rg_ref c ++ machine_ref .nic m
  | .asg_association m => machine_ref .nic m ++ (asg_associations c m).map (.asg (create_nsg c))
  | .monitor_agent m => machine_ref .vm m
  | .dcra_metrics m => machine_ref .vm m ++ [.idx .vm_data_collection_rule 0]
  | .dcra_insights m => machine_ref .vm m ++ [.idx .vm_insights_collection_rule 0]
  | .volume_alert m => rg_ref c ++ machine_ref .vm m ++ [.idx .action_group 0]
  | .ccportal_service_alert | .vm_availability_alert => rg_ref c ++ [.idx .action_group 0]
  | .netapp_pool => [.idx .netapp_account 0]
  | .netapp_volume => [.idx .netapp_account 0, .idx .netapp_pool 0] ++ subnet_ref c .netapp
  | .anf_alert => [.idx .netapp_account 0, .idx .netapp_volume 0, .idx .action_group 0]
  | .nfsfiles => rg_ref c ++ subnet_ref c .admin ++ subnet_ref c .compute ++ subnet_ref c .frontend
  | .nfs_files_home => [.idx .nfsfiles 0]
  | .key_vault => rg_ref c ++ subnet_ref c .admin
  | .vm_data_collection_rule | .vm_insights_collection_rule =>
    rg_ref c ++ if use_existing_ws c then [] else [.idx .workspace 0]
  | .mysql => rg_ref c ++ [.idx .db_password 0] ++ subnet_ref c .database
  | .database_password => [.idx .mysql 0, .idx .db_password 0]
  | .natgateway_pip_association => [.idx .natgateway 0, .idx .pip_natgateway 0]
  | .natgateway_association k => [.subnets k, .idx .natgateway 0]
  | .data_peernetwork => []
  -- `azurerm_virtual_network.azhop[0]`, whether or not the network is an existing one
  | .azhop_to_peer => rg_ref c ++ [.idx .vnet 0] ++ (List.range (vnet_peering c).length).map (.idx .data_peernetwork)
  | .peer_to_azhop => rg_ref c ++ [.idx .vnet 0]
  | .dns_link => [.idx .private_dns_zone 0] ++ vnet_ref c
  | .a_record_ad | .a_record_ad2 | .srv_record _ => [.idx .private_dns_zone 0]
  | .dns_resolver => rg_ref c ++ vnet_ref c
  | .outbound_endpoint => [.idx .dns_resolver 0] ++ subnet_ref c .outbounddns
  | .forwarding_ruleset => [.idx .dns_resolver 0, .idx .outbound_endpoint 0]
  | .resolver_vnet_link => [.idx .forwarding_ruleset 0] ++ vnet_ref c
  | .inventory =>
    (if create_ondemand c then [.idx (.nic .ondemand) 0] else []) ++
      (if create_grafana c then [.idx (.nic .grafana) 0] else []) ++ jumpbox_ref c ++
      (if create_ad c then [.idx (.nic .ad) 0] else []) ++
      if ad_ha c then [.idx (.nic .ad2) 0] else if create_ad c then [.idx (.nic .ad) 0] else []
  | .global_variables =>
    subnet_ref c .compute ++
      (match homedir_type c with
        | .anf => [.idx .netapp_volume 0]
        | .azurefiles => [.idx .nfsfiles 0]
        | .existing => []) ++
      (if allow_public_ip c && create_ondemand c then [.idx (.pip .ondemand) 0]
        else if (c.ondemand.bind (·.fqdn)).isSome then []
        else if create_ondemand c then [.idx (.nic .ondemand) 0] else []) ++
      (if create_sig c then [.idx .sig 0] else []) ++ (if create_database c then [.idx .mysql 0] else []) ++
      if create_dnsfw_rules c then [.idx .forwarding_ruleset 0] else []
  | .connect_script => jumpbox_ref c
  | .packer_pip => (if create_sig c then [.idx .sig 0] else []) ++ vnet_ref c ++ subnet_ref c .compute ++ jumpbox_ref c

/-- Every reference of `l` has its instance. -/
def Resolved (c : AzhopConfig) (l : List Ref) : Prop := ∀ r ∈ l, Present c r

/-- Every reference an instance of a block evaluates has its instance. -/
def WellFormed (c : AzhopConfig) : Prop := ∀ a, 0 < count c a → Resolved c (refs c a)

/-! ## When the references resolve -/

variable {c : AzhopConfig}

@[simp] theorem present_idx {a : Address} {i : Nat} : Present c (.idx a i) ↔ i < count c a := Iff.rfl

@[simp] theorem present_asg {a : Asg} : Present c (.asg (create_nsg c) a) ↔ a ∈ keys (asgs c) := by
  simp [Present]

@[simp] theorem present_subnets {k : SubnetKey} : Present c (.subnets k) ↔ k ∈ keys (subnets c) := Iff.rfl

/-- `HubSsh` and `Shed` are keys of the other backend. -/
@[simp] theorem present_ports {k : PortKey} : Present c (.ports k) ↔ k ≠ .HubSsh ∧ k ≠ .Shed := by
  cases k <;> simp [Present, nsg_destination_ports]

@[simp] theorem pos_if {p : Prop} [Decidable p] {n : Nat} : (0 < if p then n else 0) ↔ p ∧ 0 < n := by
  by_cases h : p <;> simp [h]

@[simp] theorem resolved_nil : Resolved c [] := by simp [Resolved]

@[simp] theorem resolved_cons {r : Ref} {l : List Ref} : Resolved c (r :: l) ↔ Present c r ∧ Resolved c l := by
  simp [Resolved]

@[simp] theorem resolved_append {l l' : List Ref} : Resolved c (l ++ l') ↔ Resolved c l ∧ Resolved c l' := by
  simp [Resolved, or_imp, forall_and]

@[simp] theorem resolved_if {p : Prop} [Decidable p] {l l' : List Ref} :
    Resolved c (if p then l else l') ↔ (p → Resolved c l) ∧ (¬p → Resolved c l') := by
  by_cases h : p <;> simp [h]

@[simp] theorem resolved_range {a : Address} {n : Nat} :
    Resolved c ((List.range n).map (.idx a)) ↔ n ≤ count c a := by
  constructor
  · intro h
    by_contra hn
    have hlt := h (.idx a (count c a)) (List.mem_map_of_mem (List.mem_range.2 (by omega)))
    exact absurd hlt (by simp)
  · intro h r hr
    obtain ⟨i, hi, rfl⟩ := List.mem_map.1 hr
    exact Nat.lt_of_lt_of_le (List.mem_range.1 hi) h

section Subnets

attribute [local simp] count

@[simp] theorem resolved_rg : Resolved c (rg_ref c) := by
  simp +contextual [rg_ref]

@[simp] theorem resolved_vnet : Resolved c (vnet_ref c) := by
  simp +contextual [vnet_ref]

/-- A section without properties leaves the default. -/
theorem createSubnet_of_noSubnet {k : SubnetKey} (h : noSubnet c k = true) (default : Bool) :
    createSubnet c k default = default := by
  unfold noSubnet at h
  unfold createSubnet
  cases hs : section? c k with
  | none => rfl
  | some s => simp_all

theorem create_database_subnet_eq (h : no_database_subnet c = true) : create_database_subnet c = false := by
  unfold create_database_subnet
  rw [createSubnet_of_noSubnet h, h]
  cases create_vnet c <;> rfl

theorem create_outbounddns_subnet_eq (h : no_outbounddns_subnet c = true) : create_outbounddns_subnet c = false := by
  unfold create_outbounddns_subnet
  rw [createSubnet_of_noSubnet h, h]
  cases create_vnet c <;> rfl

/-- The subnets every configuration has. -/
@[simp] theorem resolved_subnet {k : SubnetKey} (h : k ∈ [SubnetKey.frontend, .admin, .netapp, .compute]) :
    Resolved c (subnet_ref c k) := by
  simp only [List.mem_cons, List.not_mem_nil, or_false] at h
  rcases h with rfl | rfl | rfl | rfl <;> simp +contextual [subnet_ref]

theorem resolved_ad_iff : Resolved c (subnet_ref c .ad) ↔ create_ad_subnet c = true ∨ create_ad c = true := by
  cases h : create_ad_subnet c <;> cases ha : create_ad c <;> simp [subnet_ref, create_subnet, h, ha]

theorem resolved_bastion (h : no_bastion_subnet c = false) : Resolved c (subnet_ref c .bastion) := by
  simp +contextual [subnet_ref, h]

theorem resolved_database_iff : Resolved c (subnet_ref c .database) ↔ no_database_subnet c = false := by
  cases hno : no_database_subnet c with
  | true => simp [subnet_ref, create_subnet, create_database_subnet_eq hno, hno]
  | false => simp +contextual [subnet_ref, hno]

theorem resolved_outbounddns_iff : Resolved c (subnet_ref c .outbounddns) ↔
    create_outbounddns_subnet c = true ∨ (create_ad c = true ∧ no_outbounddns_subnet c = false) := by
  cases hno : no_outbounddns_subnet c with
  | true => simp [subnet_ref, create_subnet, create_outbounddns_subnet_eq hno, hno]
  | false =>
    cases h : create_outbounddns_subnet c <;> cases ha : create_ad c <;>
      simp [subnet_ref, create_subnet, h, ha, hno]

end Subnets

/-- A machine's own resources are referred to when the machine is created. -/
theorem resolved_machine {block : Machine → Address} (hb : ∀ m, count c (block m) = if create_machine c m then 1 else 0)
    {m : Machine} (hm : create_machine c m = true) : Resolved c (machine_ref block m) := by
  cases m <;> simp [machine_ref, hb, hm]

theorem resolved_jumpbox_iff :
    Resolved c (jumpbox_ref c) ↔ (allow_public_ip c = true → jumpbox_enabled c = true) := by
  cases hp : allow_public_ip c <;> cases hj : jumpbox_enabled c <;> simp [jumpbox_ref, count, create_machine, hp, hj]

/-! ## The security groups in use -/

/-- What makes the root module refer to a security group. -/
def needed (c : AzhopConfig) : Asg → Bool
  | .asg_ssh | .asg_cyclecloud | .asg_sched | .asg_cyclecloud_client | .asg_nfs_client => true
  | .asg_jumpbox => create_nsg c || jumpbox_enabled c
  | .asg_deployer => create_nsg c
  | .asg_telegraf | .asg_grafana => create_grafana c
  | .asg_ondemand => create_ondemand c || create_nsg c && (create_grafana c || !no_gateway_subnet c)
  | .asg_ad_client => use_ad c || ad_ha c
  | .asg_ad => create_ad c || ad_ha c
  | .asg_rdp => create_ad c || ad_ha c || create_nsg c && use_ad c
  | .asg_mysql_client => use_database c
  | .asg_lustre_client | .asg_mariadb_client => false

/-- A machine is in the group, or a rule of `nsg-common` names it. -/
def Uses (c : AzhopConfig) (a : Asg) : Prop :=
  (∃ m, create_machine c m = true ∧ a ∈ asg_associations c m) ∨
    (create_nsg c = true ∧ ∃ x ∈ nsg_rules c, a ∈ rowAsgs (ad_target c) x.2)

theorem use_ad_of_create (h : create_ad c = true) : use_ad c = true := by simp [use_ad, h]

theorem mem_if {b : Bool} {a k : Asg} : (a ∈ if b then [k] else []) ↔ a = k ∧ b = true := by
  cases b <;> simp

theorem needed_of_machine {m : Machine} {a : Asg} (hm : create_machine c m = true) (ha : a ∈ asg_associations c m) :
    needed c a = true := by
  cases m <;>
    simp only [asg_associations, List.mem_append, List.mem_cons, List.not_mem_nil, or_false, mem_if] at ha
  case ad =>
    have had := use_ad_of_create hm
    rcases ha with rfl | rfl | rfl <;> simp_all [needed, create_machine]
  case ad2 => rcases ha with rfl | rfl | rfl <;> simp_all [needed, create_machine]
  case ccportal => rcases ha with ((rfl | rfl) | ⟨rfl, h⟩) | ⟨rfl, h⟩ <;> simp_all [needed]
  case grafana => rcases ha with (rfl | rfl | rfl | rfl) | ⟨rfl, h⟩ <;> simp_all [needed, create_machine]
  case jumpbox => rcases ha with (rfl | rfl) | ⟨rfl, h⟩ <;> simp_all [needed, create_machine]
  case ondemand =>
    rcases ha with (((rfl | rfl | rfl | rfl | rfl) | ⟨rfl, h⟩) | ⟨rfl, h⟩) | ⟨rfl, h⟩ <;>
      simp_all [needed, create_machine, lustre_enabled]
  case scheduler =>
    rcases ha with (((rfl | rfl | rfl | rfl) | ⟨rfl, h⟩) | ⟨rfl, h⟩) | ⟨rfl, h⟩ <;> simp_all [needed]

/-- A block of rules names the groups in `as`, given whether the domain controller is an existing one. -/
theorem needed_of_block (b : Rows) (as : Bool → List Asg)
    (hb : ∀ e : Bool, ∀ x ∈ b, ∀ a ∈ rowAsgs (if e then .any else .asg .asg_ad) x.2, a ∈ as e)
    (has : ∀ a ∈ as (use_existing_ad c), needed c a = true) {x : String × Row} (hx : x ∈ b) {a : Asg}
    (ha : a ∈ rowAsgs (ad_target c) x.2) : needed c a = true :=
  has a (hb (use_existing_ad c) x hx a ha)

theorem needed_of_rule {x : String × Row} {a : Asg} (hnsg : create_nsg c = true) (hx : x ∈ nsg_rules c)
    (ha : a ∈ rowAsgs (ad_target c) x.2) : needed c a = true := by
  obtain ⟨b, hb, hc, hx⟩ := mem_nsg_rules.1 hx
  simp only [nsgBlocks, List.mem_cons, List.not_mem_nil, or_false] at hb
  rcases hb with rfl | rfl | rfl | rfl | rfl | rfl | rfl | rfl | rfl | rfl | rfl <;> dsimp only at hc hx
  · exact needed_of_block _nsg_rules
      (fun _ => [.asg_ssh, .asg_jumpbox, .asg_deployer, .asg_sched, .asg_cyclecloud, .asg_cyclecloud_client])
      (by decide) (by simp [needed, hnsg]) hx ha
  · have had : use_existing_ad c = false → create_ad c = true := by
      intro h
      simpa [use_ad, h] using hc
    refine needed_of_block ad_nsg_rules
      (fun e => [.asg_ad_client, .asg_rdp, .asg_jumpbox] ++ if e then [] else [.asg_ad]) (by decide) ?_ hx ha
    cases he : use_existing_ad c with
    | true => simp [needed, hnsg, hc]
    | false => simp [needed, hnsg, hc, had he]
  · exact needed_of_block bastion_nsg_rules (fun _ => []) (by decide) (by simp) hx ha
  · exact needed_of_block gateway_nsg_rules (fun _ => [.asg_ondemand]) (by decide)
      (by simpa [needed, hnsg] using Or.inr (Or.inr (by simpa using hc))) hx ha
  · exact needed_of_block internet_nsg_rules (fun _ => [.asg_jumpbox]) (by decide) (by simp [needed, hnsg]) hx ha
  · exact needed_of_block hub_nsg_rules (fun _ => []) (by decide) (by simp) hx ha
  · exact needed_of_block grafana_nsg_rules (fun _ => [.asg_telegraf, .asg_grafana, .asg_ondemand]) (by decide)
      (by simp [needed, hnsg, hc]) hx ha
  · exact needed_of_block mysql_nsg_rules (fun _ => [.asg_mysql_client]) (by decide) (by simp [needed, hc]) hx ha
  · exact needed_of_block ondemand_nsg_rules (fun _ => [.asg_ondemand, .asg_cyclecloud]) (by decide)
      (by simp [needed, hc]) hx ha
  · cases hc
  · exact needed_of_block anf_nsg_rules (fun _ => [.asg_nfs_client]) (by decide) (by simp [needed]) hx ha

/-- A row of a block whose condition holds is emitted. -/
theorem uses_of_row (hnsg : create_nsg c = true) (b : Bool × Rows) (hb : b ∈ nsgBlocks c) (hc : b.1 = true)
    {x : String × Row} (hx : x ∈ b.2) {a : Asg} (ha : a ∈ rowAsgs (ad_target c) x.2) : Uses c a :=
  Or.inr ⟨hnsg, x, mem_nsg_rules.2 ⟨b, hb, hc, hx⟩, ha⟩

theorem uses_of_machine {m : Machine} (hm : create_machine c m = true) {a : Asg} (ha : a ∈ asg_associations c m) :
    Uses c a :=
  Or.inl ⟨m, hm, ha⟩

theorem uses_iff {a : Asg} : Uses c a ↔ needed c a = true := by
  constructor
  · rintro (⟨m, hm, ha⟩ | ⟨hnsg, x, hx, ha⟩)
    · exact needed_of_machine hm ha
    · exact needed_of_rule hnsg hx ha
  · intro h
    have hcc : create_machine c .ccportal = true := rfl
    have hsched : create_machine c .scheduler = true := rfl
    cases a
    case asg_ssh => exact uses_of_machine hcc (by simp [asg_associations])
    case asg_cyclecloud => exact uses_of_machine hcc (by simp [asg_associations])
    case asg_sched => exact uses_of_machine hsched (by simp [asg_associations])
    case asg_cyclecloud_client => exact uses_of_machine hsched (by simp [asg_associations])
    case asg_nfs_client => exact uses_of_machine hsched (by simp [asg_associations])
    case asg_jumpbox =>
      rcases Bool.or_eq_true_iff.1 h with hnsg | hj
      · exact uses_of_row hnsg (true, _nsg_rules) (by simp [nsgBlocks]) rfl List.mem_cons_self
          (by simp [rowAsgs, sideAsgs])
      · exact uses_of_machine (m := .jumpbox) hj (by simp [asg_associations])
    case asg_deployer =>
      exact uses_of_row h (true, _nsg_rules) (by simp [nsgBlocks]) rfl
        (x := ("AllowSshFromDeployerIn", _)) (List.mem_cons_of_mem _ (List.mem_cons_of_mem _ List.mem_cons_self))
        (by simp [rowAsgs, sideAsgs])
    case asg_telegraf | asg_grafana => exact uses_of_machine (m := .grafana) h (by simp [asg_associations])
    case asg_ondemand =>
      rcases Bool.or_eq_true_iff.1 h with ho | hr
      · exact uses_of_machine (m := .ondemand) ho (by simp [asg_associations])
      · obtain ⟨hnsg, hr⟩ := Bool.and_eq_true_iff.1 hr
        rcases Bool.or_eq_true_iff.1 hr with hg | hg
        · exact uses_of_row hnsg (create_grafana c, grafana_nsg_rules) (by simp [nsgBlocks]) hg
            (x := ("AllowGrafanaIn", _)) (List.mem_cons_of_mem _ (List.mem_cons_of_mem _ List.mem_cons_self))
            (by simp [rowAsgs, sideAsgs])
        · exact uses_of_row hnsg (!no_gateway_subnet c, gateway_nsg_rules) (by simp [nsgBlocks]) hg List.mem_cons_self
            (by simp [rowAsgs, sideAsgs])
    case asg_ad_client =>
      rcases Bool.or_eq_true_iff.1 h with hu | hh
      · exact uses_of_machine hcc (by simp [asg_associations, hu])
      · exact uses_of_machine (m := .ad2) hh (by simp [asg_associations])
    case asg_ad =>
      rcases Bool.or_eq_true_iff.1 h with hc | hh
      · exact uses_of_machine (m := .ad) hc (by simp [asg_associations])
      · exact uses_of_machine (m := .ad2) hh (by simp [asg_associations])
    case asg_rdp =>
      rcases Bool.or_eq_true_iff.1 h with hm | hr
      · rcases Bool.or_eq_true_iff.1 hm with hc | hh
        · exact uses_of_machine (m := .ad) hc (by simp [asg_associations])
        · exact uses_of_machine (m := .ad2) hh (by simp [asg_associations])
      · obtain ⟨hnsg, hu⟩ := Bool.and_eq_true_iff.1 hr
        exact uses_of_row hnsg (use_ad c, ad_nsg_rules) (by simp [nsgBlocks]) hu
          (x := ("AllowRdpIn", ⟨550, .Inbound, .Allow, .Tcp, .Rdp, .asg .asg_jumpbox, .asg .asg_rdp⟩))
          (by simp [ad_nsg_rules]) (by simp [rowAsgs, sideAsgs])
    case asg_mysql_client => exact uses_of_machine hsched (by simp [asg_associations, show use_database c = true from h])
    case asg_lustre_client | asg_mariadb_client => cases h

/-! ## The subnets of the rules -/

theorem mem_keys_subnets {k : SubnetKey} : k ∈ keys (subnets c) ↔
    k ∈ keys defaultSubnets ∨ (k = .bastion ∧ no_bastion_subnet c = false) ∨
      (k = .gateway ∧ no_gateway_subnet c = false) ∨ (k = .outbounddns ∧ no_outbounddns_subnet c = false) ∨
      (k = .database ∧ no_database_subnet c = false) := by
  have hopt : ∀ (b : Bool) (k' : SubnetKey) (n : String),
      (k ∈ keys (if b then [] else [(k', n)])) ↔ k = k' ∧ b = false := by
    intro b k' n
    cases b <;> simp
  simp [subnets, mem_keys_unionAll, hopt]

theorem subnet_of_rule (hdb : use_database c = true → no_database_subnet c = false) {x : String × Row}
    (hx : x ∈ nsg_rules c) {k : SubnetKey} (hk : k ∈ rowSubnets x.2) : k ∈ keys (subnets c) := by
  obtain ⟨b, hb, hc, hx⟩ := mem_nsg_rules.1 hx
  simp only [nsgBlocks, List.mem_cons, List.not_mem_nil, or_false] at hb
  have hdefault : ∀ {b : Rows}, (∀ x ∈ b, ∀ k ∈ rowSubnets x.2, k ∈ keys defaultSubnets) → x ∈ b →
      k ∈ keys (subnets c) := by
    intro b hb hx
    exact mem_keys_subnets.2 (Or.inl (hb x hx k hk))
  have honly : ∀ {b : Rows} {k' : SubnetKey}, (∀ x ∈ b, ∀ k ∈ rowSubnets x.2, k = k') → x ∈ b → k = k' := by
    intro b k' hb hx
    exact hb x hx k hk
  rcases hb with rfl | rfl | rfl | rfl | rfl | rfl | rfl | rfl | rfl | rfl | rfl <;> dsimp only at hc hx
  · exact hdefault (by decide) hx
  · exact hdefault (by decide) hx
  -- the bastion, gateway and MySQL blocks name an optional subnet
  · have hkb : k = .bastion := honly (by decide) hx
    exact mem_keys_subnets.2 (Or.inr (Or.inl ⟨hkb, by simpa using hc⟩))
  · have hkg : k = .gateway := honly (by decide) hx
    exact mem_keys_subnets.2 (Or.inr (Or.inr (Or.inl ⟨hkg, by simpa using hc⟩)))
  · exact hdefault (by decide) hx
  · exact hdefault (by decide) hx
  · exact hdefault (by decide) hx
  · have hkd : k = .database := honly (by decide) hx
    exact mem_keys_subnets.2 (Or.inr (Or.inr (Or.inr (Or.inr ⟨hkd, hdb hc⟩))))
  · exact hdefault (by decide) hx
  · cases hc
  · exact hdefault (by decide) hx

theorem templateRows_ports : ∀ x ∈ templateRows, x.2.ports ≠ .HubSsh ∧ x.2.ports ≠ .Shed := by decide +kernel

/-! ## The plan -/

/-- The configurations Terraform can plan. -/
structure PlanOk (c : AzhopConfig) : Prop where
  /-- Public addresses need a jumpbox: the outputs read its address. -/
  jumpbox : allow_public_ip c = true → jumpbox_enabled c = true
  /-- The association of the database subnet has no condition on the subnet. -/
  database : create_nsg c = true ∨ create_database c = true → no_database_subnet c = false
  /-- The second controller needs the subnet of the first. -/
  controller : ad_ha c = true → create_ad_subnet c = true ∨ create_ad c = true
  private_dns : create_dns_records c = true ∨ ad_ha c = true → create_private_dns c = true
  peering : 0 < (vnet_peering c).length → create_vnet c = true
  outbounddns : create_nsg c = true → no_outbounddns_subnet c = false →
    create_outbounddns_subnet c = true ∨ create_ad c = true
  resolver : create_dnsfw_rules c = true →
    create_outbounddns_subnet c = true ∨ (create_ad c = true ∧ no_outbounddns_subnet c = false)
  anf : homedir_type c = .anf → create_anf c = true
  azurefiles : homedir_type c = .azurefiles → create_nfsfiles c = true
  /-- Security groups named by the file must be all that are needed. -/
  given_asgs : ∀ a, c.network.asg = some a → ∀ k, needed c k = true → k ∈ keys a.names
  /-- Of the default ones, that of Open OnDemand is named by the rules of Grafana and of the gateway. -/
  ondemand_asg : c.network.asg = none → create_nsg c = true → create_grafana c = true ∨ no_gateway_subnet c = false →
    create_ondemand c = true
  ad_asgs : c.network.asg = none → ad_ha c = true → use_ad c = true

theorem mem_keys_default_asgs {k : Asg} : k ∈ keys (_default_asgs c) ↔
    k ∈ [Asg.asg_ssh, .asg_jumpbox, .asg_sched, .asg_cyclecloud, .asg_cyclecloud_client, .asg_nfs_client, .asg_deployer] ∨
      (k ∈ [Asg.asg_ad, .asg_ad_client, .asg_rdp] ∧ use_ad c = true) ∨
      (k ∈ [Asg.asg_telegraf, .asg_grafana] ∧ create_grafana c = true) ∨
      (k = .asg_ondemand ∧ create_ondemand c = true) ∨ (k = .asg_mysql_client ∧ use_database c = true) := by
  have hopt : ∀ (b : Bool) (o : List (Asg × String)), (k ∈ keys (if b then o else [])) ↔ k ∈ keys o ∧ b = true := by
    intro b o
    cases b <;> simp
  simp [_default_asgs, mem_keys_unionAll, hopt, lustre_enabled]

/-- The groups there are, against those needed. -/
theorem asgs_ok_iff : (∀ k, needed c k = true → k ∈ keys (asgs c)) ↔
    (∀ a, c.network.asg = some a → ∀ k, needed c k = true → k ∈ keys a.names) ∧
      (c.network.asg = none → create_nsg c = true → create_grafana c = true ∨ no_gateway_subnet c = false →
        create_ondemand c = true) ∧
      (c.network.asg = none → ad_ha c = true → use_ad c = true) := by
  cases h : c.network.asg with
  | some a => simp [asgs, h]
  | none =>
    have hasgs : asgs c = _default_asgs c := by rw [asgs, h]
    simp only [hasgs, mem_keys_default_asgs, reduceCtorEq, false_imp_iff, implies_true, true_and, true_imp_iff]
    constructor
    · intro hk
      constructor
      · intro hnsg hr
        have ho := hk .asg_ondemand
        simpa [needed, hnsg, hr] using ho
      · intro hh
        simpa [needed, hh] using hk .asg_ad
    · rintro ⟨ho, hh⟩ k hk
      cases k
      case asg_ondemand =>
        have hk : create_ondemand c = true ∨
            create_nsg c = true ∧ (create_grafana c = true ∨ no_gateway_subnet c = false) := by
          simpa [needed] using hk
        rcases hk with hk | ⟨hnsg, hr⟩
        · simpa using hk
        · simpa using ho hnsg hr
      case asg_ad | asg_rdp | asg_ad_client =>
        have hu : use_ad c = true := by
          by_cases hc : create_ad c = true
          · exact use_ad_of_create hc
          · by_cases hha : ad_ha c = true
            · exact hh hha
            · simp_all [needed]
        simp [hu]
      all_goals simp_all [needed]

theorem resolved_rule (h : PlanOk c) (hnsg : create_nsg c = true) {x : String × Row} (hx : x ∈ nsg_rules c) :
    Resolved c (rule_refs c x.2) := by
  have hports := templateRows_ports x (mem_templateRows hx)
  have hasgs : ∀ a ∈ rowAsgs (ad_target c) x.2, a ∈ keys (asgs c) := by
    intro a ha
    exact asgs_ok_iff.2 ⟨h.given_asgs, h.ondemand_asg, h.ad_asgs⟩ a (needed_of_rule hnsg hx ha)
  have hsubnets : ∀ k ∈ rowSubnets x.2, k ∈ keys (subnets c) :=
    fun k hk => subnet_of_rule (fun _ => h.database (Or.inl hnsg)) hx hk
  intro r hr
  simp only [rule_refs, List.cons_append, List.mem_cons, List.mem_append, List.mem_map] at hr
  rcases hr with rfl | ⟨a, ha, rfl⟩ | ⟨k, hk, rfl⟩
  · exact present_ports.2 hports
  · rw [← hnsg]
    exact present_asg.2 (hasgs a ha)
  · exact present_subnets.2 (hsubnets k hk)

theorem resolved_asgs (h : PlanOk c) {m : Machine} (hm : create_machine c m = true) :
    Resolved c ((asg_associations c m).map (.asg (create_nsg c))) := by
  intro r hr
  obtain ⟨a, ha, rfl⟩ := List.mem_map.1 hr
  exact present_asg.2 (asgs_ok_iff.2 ⟨h.given_asgs, h.ondemand_asg, h.ad_asgs⟩ a (needed_of_machine hm ha))

theorem resolved_association (h : PlanOk c) {k : SubnetKey} (hk : k ∈ nsgAssociations c) :
    Resolved c (subnet_ref c k) := by
  have hnsg : create_nsg c = true := by
    by_contra hnsg
    simp [nsgAssociations, hnsg] at hk
  rw [nsgAssociations, if_pos hnsg] at hk
  cases k
  case database => exact resolved_database_iff.2 (h.database (Or.inl hnsg))
  case ad => exact resolved_ad_iff.2 (Or.inr (by simpa using hk))
  case bastion => exact resolved_bastion (by simpa using hk)
  case outbounddns => 
    have hno : no_outbounddns_subnet c = false := by simpa using hk
    exact resolved_outbounddns_iff.2 ((h.outbounddns hnsg hno).imp_right fun ha => ⟨ha, hno⟩)
  all_goals simp_all

theorem resolved_machine_subnet (h : PlanOk c) {m : Machine} (hm : create_machine c m = true) :
    Resolved c (subnet_ref c (machine_subnet m)) := by
  cases m
  case ad => exact resolved_ad_iff.2 (Or.inr hm)
  case ad2 => exact resolved_ad_iff.2 (h.controller hm)
  all_goals exact resolved_subnet (by decide)

/-- The machine a resource belongs to. -/
def machineOf : Address → Option Machine
  | .nic m | .vm m | .asg_association m | .monitor_agent m | .dcra_metrics m | .dcra_insights m | .volume_alert m => some m
  | _ => none

/-- Only what belongs to a created machine is planned. -/
theorem created_of_planned {a : Address} {m : Machine} (ha : machineOf a = some m) (h : 0 < count c a) :
    create_machine c m = true := by
  by_contra hm
  cases a <;> cases ha <;> simp [count, hm] at h

/-- The resources of a machine refer to the machine, its subnet and its groups, and to the monitor. -/
theorem resolved_of_machine (h : PlanOk c) {a : Address} {m : Machine} (hm : machineOf a = some m) (ha : 0 < count c a) :
    Resolved c (refs c a) := by
  have hcreate := created_of_planned hm ha
  have hvm : Resolved c (machine_ref .vm m) := resolved_machine (fun _ => rfl) hcreate
  cases a <;> cases hm
  case nic =>
    have hs := resolved_machine_subnet h hcreate
    cases m <;> simp_all [refs, count, machine_subnet]
  case vm => exact resolved_append.2 ⟨resolved_rg, resolved_machine (fun _ => rfl) hcreate⟩
  case asg_association => exact resolved_append.2 ⟨resolved_machine (fun _ => rfl) hcreate, resolved_asgs h hcreate⟩
  case monitor_agent => exact hvm
  case dcra_metrics | dcra_insights =>
    obtain ⟨-, hmon⟩ : (monitored m = true ∧ create_machine c m = true) ∧ monitor c = true := by simpa [count] using ha
    refine resolved_append.2 ⟨hvm, ?_⟩
    simp [count, hmon]
  case volume_alert =>
    obtain ⟨-, halert⟩ : (monitored m = true ∧ create_machine c m = true) ∧ create_alerts c = true := by
      simpa [count] using ha
    simp [refs, hvm, count, halert]

/-- A subnet is associated with the network security group that is created. -/
theorem nsg_of_association {k : SubnetKey} (ha : 0 < count c (.nsg_association k)) :
    k ∈ nsgAssociations c ∧ create_nsg c = true := by
  have hk : k ∈ nsgAssociations c := by
    by_contra hk
    simp [count, hk] at ha
  refine ⟨hk, ?_⟩
  by_contra hnsg
  simp [nsgAssociations, hnsg] at hk

theorem resolved_home (h : PlanOk c) : Resolved c (match homedir_type c with
    | .anf => [.idx .netapp_volume 0]
    | .azurefiles => [.idx .nfsfiles 0]
    | .existing => []) := by
  cases ht : homedir_type c with
  | anf => simp [count, h.anf ht]
  | azurefiles => simp [count, h.azurefiles ht]
  | existing => simp

theorem wellFormed_of_planOk (h : PlanOk c) : WellFormed c := by
  intro a ha
  cases a
  case locals => simp +contextual [refs, count, create_machine]
  case asgs | data_asgs => cases hnsg : create_nsg c <;> simp_all [refs, count]
  case nsg_common =>
    have hnsg : create_nsg c = true := by simpa [count] using ha
    rw [refs, if_pos hnsg]
    refine resolved_append.2 ⟨resolved_rg, fun r hr => ?_⟩
    obtain ⟨x, hx, hr⟩ := List.mem_flatMap.1 hr
    exact resolved_rule h hnsg hx r hr
  case nsg_association k =>
    obtain ⟨hk, hnsg⟩ := nsg_of_association ha
    have hcommon : Resolved c [.idx .nsg_common 0] := by simp [count, hnsg]
    refine resolved_append.2 ⟨resolved_association h hk, hcommon⟩
  case nic m | vm m | asg_association m | monitor_agent m | dcra_metrics m | dcra_insights m | volume_alert m =>
    exact resolved_of_machine h rfl ha
  case anf_alert => simp_all [refs, count]
  case vm_data_collection_rule | vm_insights_collection_rule =>
    have hmon : monitor c = true := by simpa [count] using ha
    have hws : use_existing_ws c = false → create_log_analytics_workspace c = true := by
      intro hws
      simpa [monitor, hws] using hmon
    simpa [refs, count] using hws
  case mysql =>
    have hdb : create_database c = true := by simpa [count] using ha
    have hsubnet := resolved_database_iff.2 (h.database (Or.inr hdb))
    simp [refs, count, hdb, hsubnet]
  case natgateway_association k =>
    cases k <;> simp_all [refs, count, mem_keys_subnets, defaultSubnets]
  case azhop_to_peer | peer_to_azhop =>
    have hvnet := h.peering ha
    simp [refs, count, hvnet]
  case a_record_ad | srv_record =>
    have hp := h.private_dns (Or.inl (by simpa [count] using ha))
    simp [refs, count, hp]
  case a_record_ad2 =>
    have hp := h.private_dns (Or.inr (by simpa [count] using ha))
    simp [refs, count, hp]
  case outbound_endpoint =>
    have hs : create_outbounddns_subnet c = true ∨ create_dnsfw_rules c = true := by simpa [count] using ha
    have hsubnet : Resolved c (subnet_ref c .outbounddns) := by
      apply resolved_outbounddns_iff.2
      rcases hs with hs | hs
      · exact Or.inl hs
      · exact h.resolver hs
    simp [refs, count, hs, hsubnet]
  case inventory =>
    have hj := resolved_jumpbox_iff.2 h.jumpbox
    simp +contextual [refs, count, create_machine, hj]
  case global_variables =>
    have hcompute : Resolved c (subnet_ref c .compute) := resolved_subnet (by decide)
    have hhome := resolved_home h
    simp +contextual [refs, count, create_machine, hcompute, hhome]
  case connect_script => exact resolved_jumpbox_iff.2 h.jumpbox
  case packer_pip =>
    have hj := resolved_jumpbox_iff.2 h.jumpbox
    simp +contextual [refs, count, hj]
  all_goals simp_all [refs, count]

theorem asgs_of_wellFormed (h : WellFormed c) : ∀ k, needed c k = true → k ∈ keys (asgs c) := by
  intro k hk
  rcases uses_iff.2 hk with ⟨m, hm, hmem⟩ | ⟨hnsg, x, hx, hmem⟩
  · have hr := h (.asg_association m) (by
      have hne : 0 < (asg_associations c m).dedup.length := List.length_pos_of_mem (List.mem_dedup.2 hmem)
      simpa [count, hm] using hne)
    exact present_asg.1 ((resolved_append.1 hr).2 _ (List.mem_map_of_mem hmem))
  · have hr := h .nsg_common (by simp [count, hnsg])
    rw [refs, if_pos hnsg] at hr
    have hp := (resolved_append.1 hr).2 (.asg true k) (List.mem_flatMap.2 ⟨x, hx, by simp [rule_refs, hmem]⟩)
    rw [← hnsg] at hp
    exact present_asg.1 hp

theorem planOk_of_wellFormed (h : WellFormed c) : PlanOk c where
  jumpbox := resolved_jumpbox_iff.1 (h .connect_script Nat.one_pos)
  database := by
    rintro (hnsg | hdb)
    · have hr := h (.nsg_association .database) (by simp [count, nsgAssociations, hnsg])
      exact resolved_database_iff.1 (resolved_append.1 hr).1
    · have hr := h .mysql (by simp [count, hdb])
      exact resolved_database_iff.1 (resolved_append.1 hr).2
  controller := by
    intro hha
    have hr := h (.nic .ad2) (by simp [count, create_machine, hha])
    simp only [refs, resolved_append] at hr
    exact resolved_ad_iff.1 hr.1.2
  private_dns := by
    rintro (hrec | hha)
    · have hr := h .a_record_ad (by simp [count, hrec])
      simpa [refs, count] using hr
    · have hr := h .a_record_ad2 (by simp [count, hha])
      simpa [refs, count] using hr
  peering := by
    intro hp
    have hr := h .peer_to_azhop hp
    simpa [refs, count] using hr
  outbounddns := by
    intro hnsg hno
    have hr := h (.nsg_association .outbounddns) (by simp [count, nsgAssociations, hnsg, hno])
    exact (resolved_outbounddns_iff.1 (resolved_append.1 hr).1).imp_right And.left
  resolver := by
    intro hfw
    have hr := h .outbound_endpoint (by simp [count, hfw])
    exact resolved_outbounddns_iff.1 (resolved_append.1 hr).2
  anf := by
    intro ht
    have hr := h .global_variables Nat.one_pos
    simp only [refs, resolved_append, ht] at hr
    simpa [count] using hr.1.1.1.1.2
  azurefiles := by
    intro ht
    have hr := h .global_variables Nat.one_pos
    simp only [refs, resolved_append, ht] at hr
    simpa [count] using hr.1.1.1.1.2
  given_asgs := (asgs_ok_iff.1 (asgs_of_wellFormed h)).1
  ondemand_asg := (asgs_ok_iff.1 (asgs_of_wellFormed h)).2.1
  ad_asgs := (asgs_ok_iff.1 (asgs_of_wellFormed h)).2.2

theorem plan_ok_iff (c : AzhopConfig) : WellFormed c ↔ PlanOk c :=
  ⟨planOk_of_wellFormed, wellFormed_of_planOk⟩

/-- With the security groups of the file there can be no database: the schema
has no name for the group of its clients. -/
theorem no_database_with_given_asgs (h : WellFormed c) {a : AsgMap} (ha : c.network.asg = some a) :
    use_database c = false := by
  by_contra hdb
  have hneeded : needed c .asg_mysql_client = true := by simpa [needed] using hdb
  exact a.names_ok ((planOk_of_wellFormed h).given_asgs a ha _ hneeded)

/-- A file like the template's, with a jumpbox and without a database subnet:
the association of the database subnet is planned, and the subnet it takes
instance `[0]` of has no instance. -/
def noDatabaseConfig : AzhopConfig :=
  { smallConfig with jumpbox := some { vm_size := "Standard_B2ms" } }

theorem database_association_dangling :
    count noDatabaseConfig (.nsg_association .database) = 1 ∧
      .idx (.data_subnet .database) 0 ∈ refs noDatabaseConfig (.nsg_association .database) ∧
      count noDatabaseConfig (.data_subnet .database) = 0 ∧ ¬WellFormed noDatabaseConfig := by
  have hcreate : create_subnet noDatabaseConfig .database = false := by decide
  refine ⟨by decide, by simp [refs, subnet_ref, hcreate], by decide, fun h => ?_⟩
  have hno := (planOk_of_wellFormed h).database (Or.inl rfl)
  exact absurd hno (by decide)

end AzHop.Terraform
